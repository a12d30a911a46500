import DeadSymbols.Value

/-!
# Readers of documents

Settings are written in two formats that others define. What reads a document of such a format is
given by the caller: a function from bytes that may fail. A document is any value in the one format
and a table in the other. A reader fails because the bytes are no text, because the text is not in
the format, because something in it has no value, or because the reader itself breaks down on it.
-/

namespace DeadSymbols

/-- How a reader breaks down. -/
inductive Breakdown
  /-- A number does not fit. -/
  | overflow
  /-- A table has no entry for what is looked up in it. -/
  | lookup
  /-- A text is shorter than is taken for granted. -/
  | index
  /-- A result is used that there is not. -/
  | attribute
  /-- A value is not of the kind that is taken for granted. -/
  | kind
  /-- The document nests too deep. -/
  | depth
  | other (message : String)
  deriving DecidableEq, Repr

/-- The wording of a breakdown. -/
def Breakdown.message : Breakdown → String
  | .overflow => "a number does not fit"
  | .lookup => "nothing is known by that name"
  | .index => "string index out of range"
  | .attribute => "there is no such result"
  | .kind => "the value is of another kind"
  | .depth => "the document nests too deep"
  | .other message => message

/-- Why a reader gives no value. -/
inductive ReaderFault
  /-- The text is not in the format. -/
  | malformed
  | notUtf8 (cause : Text.Utf8Error)
  /-- Something in the text has no value. -/
  | unfit (message : String)
  | breakdown (cause : Breakdown)
  deriving DecidableEq, Repr

/-- The readers of the two formats of settings. -/
structure Readers where
  yaml : Text.Bytes → Except ReaderFault Value
  toml : Text.Bytes → Except ReaderFault (List (Value × Value))

end DeadSymbols
