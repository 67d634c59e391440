import LineEditor.Command.Parser
import LineEditor.Program.Run

/-!
# Compiling program texts

A program text compiles if it is parsed and holds at least one command. Together with the choice
whether to stop when a line is done, it then maps lines to lines, each on its own.
-/

namespace LineEditor

/-- A failure in words. -/
def Failure.message : Failure → String
  | .refused error => error.message
  | .tooLong digits => tooLongMessage digits
  | .notInteger text => notIntegerMessage text

/-- Why a program text does not compile. -/
inductive CompileError where
  /-- It is not parsed. -/
  | failed (failure : Failure)
  /-- It holds no commands. -/
  | empty
deriving Repr, DecidableEq

/-- An error of compiling in words. -/
def CompileError.message : CompileError → String
  | .failed failure => failure.message
  | .empty => "program contains no commands"

/-- A program that is ready to run on lines. -/
structure Compiled where
  /-- The program. -/
  program : Program
  /-- Whether it stops when a line is done. -/
  stopOnDone : Bool
deriving Repr, DecidableEq

/-- Compiles a program text. -/
def compile (source : List Char) (stopOnDone : Bool) : Except CompileError Compiled :=
  match parse source with
  | .error failure => .error (.failed failure)
  | .ok [] => .error .empty
  | .ok program => .ok ⟨program, stopOnDone⟩

/-- What a program makes of a line. -/
def Compiled.execute (compiled : Compiled) (text : List Char) : Line :=
  (Program.run compiled.stopOnDone compiled.program text).line

/-- The text that a program makes of a line. -/
def Compiled.apply (compiled : Compiled) (text : List Char) : List Char :=
  (compiled.execute text).text

end LineEditor
