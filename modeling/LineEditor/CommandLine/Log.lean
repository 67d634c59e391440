import LineEditor.Text.Case

/-!
# Log levels

What a run reports while it works is graded. A threshold lets pass what is at least as grave as it
is. Thresholds are known by name, and the names of two of them have a longer and a shorter form.
-/

namespace LineEditor

/-- The grades of reports. -/
inductive Level where
  /-- Of use to someone who looks for an error. -/
  | debug
  /-- What is being done. -/
  | info
  /-- Something is not as it should be. -/
  | warning
deriving Repr, DecidableEq

/-- How grave a report is. -/
def Level.gravity : Level → Nat
  | .debug => 10
  | .info => 20
  | .warning => 30

/-- The name of a grade. -/
def Level.name : Level → String
  | .debug => "DEBUG"
  | .info => "INFO"
  | .warning => "WARNING"

/-- A report: its grade, the part of the program that makes it, and what it says. -/
structure Report where
  /-- How grave it is. -/
  level : Level
  /-- Which part of the program makes it. -/
  origin : String
  /-- What it says. -/
  message : String
deriving Repr, DecidableEq

/-- A report as a line of a log. -/
def Report.line (r : Report) : String :=
  s!"{r.level.name} {r.origin}: {r.message}\n"

/-- The thresholds by name. -/
def thresholds : List (String × Nat) :=
  [("CRITICAL", 50), ("FATAL", 50), ("ERROR", 40), ("WARN", 30), ("WARNING", 30), ("INFO", 20),
   ("DEBUG", 10), ("NOTSET", 0)]

/-- The threshold that is used when no other one is known. -/
def defaultThreshold : Nat := Level.warning.gravity

/-- The threshold of a name, which may be written in lower case. -/
def threshold? (name : List Char) : Option Nat :=
  thresholds.lookup (String.ofList (Text.upcase name))

end LineEditor
