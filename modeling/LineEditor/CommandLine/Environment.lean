import LineEditor.CommandLine.Log
import LineEditor.Text.Numeral
import LineEditor.Text.Quoted

/-!
# Settings from the environment

Three variables of the environment set what the command line leaves open: whether a run goes on when
a line is done, which reports are shown, and how many programs are kept ready. A variable that holds
no sensible value is ignored, and a warning says so.
-/

namespace LineEditor

/-- The variables of the environment that a run looks at. -/
structure Environment where
  /-- Whether to go on when a line is done. -/
  ignoreDone : Option (List Char) := none
  /-- Which reports to show. -/
  logLevel : Option (List Char) := none
  /-- How many programs to keep ready. -/
  cacheMax : Option (List Char) := none
deriving Repr, DecidableEq

/-- What is said of a variable that holds no integer. -/
def notIntegerNotice (name raw : List Char) (default : Int) : String :=
  let variableName := String.ofList name
  let shown := Text.quoted raw
  s!"Ignoring {variableName}={shown}: not an integer, using {default}"

/-- The integer in a variable, raised to a minimum; the default if the variable is not set. If it
holds no integer, the default is taken and there is something to say. -/
def readVariable (name : List Char) (raw : Option (List Char)) (default minimum : Int) :
    Int × Option String :=
  match raw with
  | none => (default, none)
  | some raw =>
    match Text.readInt raw with
    | .ok n => (max minimum n, none)
    | .error _ => (default, some (notIntegerNotice name raw default))

namespace Environment

/-- How many programs are kept ready, and what there is to say about it. -/
def cacheSize (env : Environment) : Int × Option String :=
  readVariable "LINED_PROGRAM_CACHE_MAX".toList env.cacheMax 64 1

/-- Whether a run stops when a line is done, unless the command line says otherwise. -/
def stopOnDone (env : Environment) : Bool :=
  env.ignoreDone ≠ some ['1']

/-- The name of the threshold of reports, in upper case. -/
def levelName (env : Environment) : List Char :=
  Text.upcase (env.logLevel.getD "WARNING".toList)

/-- The threshold of reports, and a warning if it has no known name. -/
def threshold (env : Environment) : Nat × Option Report :=
  match threshold? env.levelName with
  | some n => (n, none)
  | none =>
    let shown := Text.quoted env.levelName
    (defaultThreshold, some ⟨.warning, "lined.cli",
      s!"Ignoring LINED_LOG_LEVEL={shown}: unknown level, using WARNING"⟩)

end Environment

end LineEditor
