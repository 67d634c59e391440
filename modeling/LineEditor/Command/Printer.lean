import LineEditor.Command.Parser

/-!
# Printing programs

A command is written as its keyword and its arguments, each of which is one token: integers in
decimal, strings in quotes with a backslash before every quote and backslash in them. A repetition
is written before the command that it repeats. Blocks, programs in the place of commands, negative
counts and searches for anything but one character have no written form; what is printed for them
does not parse.
-/

namespace LineEditor

/-- A string in quotes, as a program text holds it. -/
def writeString (s : List Char) : List Char :=
  '"' :: s.flatMap (fun c => if c = '"' || c = '\\' then ['\\', c] else [c]) ++ ['"']

/-- An integer in decimal. -/
def writeInt (n : Int) : List Char :=
  if n < 0 then '-' :: Nat.toDigits 10 n.natAbs else Nat.toDigits 10 n.natAbs

/-- The tokens of a basic command as they are written. -/
def Edit.written : Edit → List (List Char)
  | .plain verb => [verb.keyword.toList]
  | .goto column => [Keyword.goto.spelling.toList, writeInt column]
  | .insert s => [Keyword.insert.spelling.toList, writeString s]
  | .truncateBy amount => [Keyword.truncateBy.spelling.toList, writeInt amount]
  | .find target => [Keyword.find.spelling.toList, writeString target]
  | .findBack target => [Keyword.findBack.spelling.toList, writeString target]
  | .translate pairs =>
    [Keyword.translate.spelling.toList, writeString (pairs.map Prod.fst),
     writeString (pairs.map Prod.snd)]

/-- The tokens of a command as they are written. -/
def Command.written : Command → List (List Char)
  | .edit e => e.written
  | .times count body => Keyword.times.spelling.toList :: writeInt count :: body.written
  | .block _ | .program _ => [['{'], ['}']]

/-- The tokens of a program as they are written. -/
def Program.written (program : Program) : List (List Char) :=
  program.flatMap Command.written

/-- A program as text, one space between tokens. -/
def Program.print (program : Program) : List Char :=
  [' '].intercalate program.written

end LineEditor
