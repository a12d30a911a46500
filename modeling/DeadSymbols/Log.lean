import DeadSymbols.Text.Letter

/-!
# The log

A record has a level, the name of the part that made it, and a message. What is shown of a list of
records depends on a threshold only, so records are kept as they come and filtered when they are
shown.
-/

namespace DeadSymbols

namespace Log

/-- How much a record matters. -/
inductive Level
  | debug
  | info
  | warning
  | error
  | critical
  deriving DecidableEq, Repr

namespace Level

/-- The rank of a level. -/
def rank : Level → Nat
  | debug => 10
  | info => 20
  | warning => 30
  | error => 40
  | critical => 50

/-- The name of a level. -/
def name : Level → String
  | debug => "DEBUG"
  | info => "INFO"
  | warning => "WARNING"
  | error => "ERROR"
  | critical => "CRITICAL"

/-- All levels. -/
def all : List Level := [debug, info, warning, error, critical]

/-- The level of a name, in upper or lower case. -/
def ofName? (s : String) : Option Level :=
  all.find? fun l => l.name = Text.upperCase s

/-- The level a name stands for as a threshold; a name of no level asks for warnings. -/
def threshold (s : String) : Level :=
  (ofName? s).getD .warning

end Level

/-- One entry of the log. -/
structure Record where
  level : Level
  /-- The part of the program that made the record; the empty name is the program as a whole. -/
  origin : String
  message : String
  deriving DecidableEq, Repr

/-- The printed form of a record. -/
def Record.display (r : Record) : String :=
  r.level.name ++ " " ++ (if r.origin.isEmpty then "root" else r.origin) ++ ": " ++ r.message

/-- The records a threshold lets through. -/
def shown (threshold : Level) (records : List Record) : List Record :=
  records.filter fun r => threshold.rank ≤ r.level.rank

/-- The printed records that a threshold lets through. -/
def text (threshold : Level) (records : List Record) : String :=
  String.join ((shown threshold records).map fun r => r.display ++ "\n")

/-- The name of the threshold: the first of the command line, the environment and the settings that
gives one. -/
def thresholdName (commandLine environment settings : Option String) : String :=
  match [commandLine, environment, settings].filterMap (·.filter (!·.isEmpty)) with
  | name :: _ => Text.upperCase name
  | [] => Level.warning.name

end Log

end DeadSymbols
