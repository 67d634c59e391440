/-!
# Lines

A line of a text is a piece up to and including a newline, or what is left after the last newline
if that is not empty. Text from elsewhere may end its lines in a carriage return, a newline or both.
Reading it can turn each of these into one newline, or keep them all; then a carriage return that no
newline follows is a character like any other.
-/

namespace LineEditor.Text

/-- A text whose line endings of every kind have become newlines. -/
def unifyNewlines : List Char → List Char
  | [] => []
  | '\r' :: '\n' :: rest => '\n' :: unifyNewlines rest
  | c :: rest => (if c = '\r' then '\n' else c) :: unifyNewlines rest

/-- What becomes of the line endings of a text when it is read. -/
inductive LineEndings where
  /-- They are kept. -/
  | kept
  /-- Those of every kind become newlines. -/
  | unified
deriving Repr, DecidableEq

/-- A text as it is read. -/
def LineEndings.read : LineEndings → List Char → List Char
  | .kept, text => text
  | .unified, text => unifyNewlines text

/-- The lines of a text, each with its newline. -/
def splitLines : List Char → List (List Char)
  | [] => []
  | c :: rest =>
    if c = '\n' then
      [c] :: splitLines rest
    else
      match splitLines rest with
      | [] => [[c]]
      | line :: lines => (c :: line) :: lines

/-- A text without the given character, should it end in it. -/
def dropLast? (last : Char) (s : List Char) : List Char :=
  if s.getLast? = some last then s.dropLast else s

/-- A line without its ending: one newline and then one carriage return, each if it is there. -/
def stripEnding (line : List Char) : List Char :=
  dropLast? '\r' (dropLast? '\n' line)

end LineEditor.Text
