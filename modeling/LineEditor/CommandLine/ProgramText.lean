import LineEditor.CommandLine.FileTree
import LineEditor.Text.Lines

/-!
# Where the program text comes from

A program is given as a text or as the name of a file, one of the two. A file is decoded as a whole,
and its line endings of every kind become newlines; a text is taken as it is.
-/

namespace LineEditor

/-- Why there is no program text. -/
inductive ProgramTextError where
  /-- Not exactly one of a text and a file name is given. -/
  | notOneSource
  /-- A path holds the null character. -/
  | nullInPath
  /-- The file cannot be opened. -/
  | unopened (path : List Char) (error : OpenError)
  /-- The file is not UTF-8. -/
  | undecodable (path : List Char) (error : Text.Utf8.DecodeError)
deriving Repr, DecidableEq

/-- What is said of a program file that cannot be read. -/
def unreadableMessage (path : List Char) (reason : String) : String :=
  let shown := Text.quoted path
  s!"cannot read program file {shown}: {reason}"

/-- The words for a path that holds the null character. -/
def nullInPathMessage : String :=
  "embedded null byte"

/-- Why there is no program text, in words. -/
def ProgramTextError.message : ProgramTextError → String
  | .notOneSource => "read_program_text() takes exactly one of text= or path="
  | .nullInPath => nullInPathMessage
  | .unopened path error => unreadableMessage path error.message
  | .undecodable path error => unreadableMessage path error.message

/-- The program text in a file. The path is tidied before it is opened. -/
def programTextOfFile (tree : FileTree) (path : List Char) :
    Except ProgramTextError (List Char) :=
  let tidied := tidy path
  if holdsNull path then .error .nullInPath
  else
    match tree.read tidied with
    | .error fault => .error (.unopened path ⟨fault, tidied⟩)
    | .ok bytes =>
      match Text.Utf8.decode bytes with
      | .error error => .error (.undecodable path error)
      | .ok source => .ok (Text.unifyNewlines source)

/-- The program text, given as a text or as the name of a file. -/
def readProgramText (tree : FileTree) (text path : Option (List Char)) :
    Except ProgramTextError (List Char) :=
  match text, path with
  | some source, none => .ok source
  | none, some path => programTextOfFile tree path
  | _, _ => .error .notOneSource

end LineEditor
