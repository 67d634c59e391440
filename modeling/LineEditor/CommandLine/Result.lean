import LineEditor.CommandLine.Log
import LineEditor.CommandLine.ProgramText
import LineEditor.Command.Parser

/-!
# What a run leaves behind

A run of the command ends with an exit status, or breaks off for a reason that it does not report
itself. Either way it leaves a text on the standard output, messages on the side, and the files.
-/

namespace LineEditor

/-! ## Messages on the side -/

/-- A message on the side. -/
inductive Notice where
  /-- A report, which is shown if it is grave enough. -/
  | report (r : Report)
  /-- A text, which is always shown. -/
  | plain (s : String)
deriving Repr, DecidableEq

namespace Notice

/-- The report of a part of the program. -/
def of (level : Level) (origin message : String) : Notice :=
  .report ⟨level, origin, message⟩

/-- An error that ends a run. -/
def error (message : String) : Notice :=
  .plain s!"error: {message}\n"

/-- The messages that are shown above a threshold, as one text. -/
def shown (threshold : Nat) (notices : List Notice) : String :=
  String.join (notices.map fun notice =>
    match notice with
    | .report r => if threshold ≤ r.level.gravity then r.line else ""
    | .plain s => s)

end Notice

/-! ## How a run ends -/

/-- Why a run breaks off without an exit status. -/
inductive Crash where
  /-- A path holds the null character. -/
  | nullInPath
  /-- A path leads to a place that a link keeps from being reached, as it leads round in a
  circle. -/
  | circle (place : Place)
  /-- The input is not UTF-8. -/
  | undecodable (error : Text.Utf8.DecodeError)
  /-- An integer in the program text has so many digits that it cannot be read. -/
  | tooLong (digits : Nat)
  /-- A token that should be an integer is none. -/
  | notInteger (text : List Char)
  /-- The program text is what is left of two dashes. -/
  | textDropped
  /-- The name of the program file is what is left of two dashes. -/
  | nameDropped
  /-- More programs are to be kept ready than can be counted. -/
  | cacheTooLarge
deriving Repr, DecidableEq

/-- The reason of a crash in words. -/
def Crash.message : Crash → String
  | .nullInPath => nullInPathMessage
  | .circle place =>
    let shown := Text.quoted place.path
    s!"Symlink loop from {shown}"
  | .undecodable error => error.message
  | .tooLong digits => tooLongMessage digits
  | .notInteger text => notIntegerMessage text
  | .textDropped => "unhashable type: 'list'"
  | .nameDropped => "expected str, bytes or os.PathLike object, not list"
  | .cacheTooLarge => "cannot fit 'int' into an index-sized integer"

/-- How a run ends. -/
inductive Exit where
  /-- With a status, which is nought for success. -/
  | status (code : Nat)
  /-- By breaking off. -/
  | crash (reason : Crash)
deriving Repr, DecidableEq

/-- What a run leaves behind. -/
structure Result where
  /-- How it has ended. -/
  exit : Exit
  /-- The text on the standard output. -/
  output : List Char := []
  /-- The messages on the side, in order. -/
  notices : List Notice := []
  /-- The files. -/
  files : FileTree
deriving Repr, DecidableEq

/-- The result of a run that fails with a message and changes nothing. -/
def Result.failure (files : FileTree) (notices : List Notice) (message : String) : Result :=
  ⟨.status 1, [], notices ++ [.error message], files⟩

/-- The result of a run that breaks off and changes nothing. -/
def Result.crash (files : FileTree) (notices : List Notice) (reason : Crash) : Result :=
  ⟨.crash reason, [], notices, files⟩

end LineEditor
