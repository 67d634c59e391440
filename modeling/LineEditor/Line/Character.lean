import LineEditor.Line.Motion
import LineEditor.Text.Case

/-!
# Editing characters

Commands on the character at the cursor do nothing when there is none.
-/

namespace LineEditor.Line

/-- Deletes the character at the cursor. -/
def delete (line : Line) : Line :=
  { line with text := line.text.eraseIdx (offset line.length line.cursor) }

/-- Deletes the character before the cursor. -/
def deleteBack (line : Line) : Line :=
  if line.cursor ≤ 0 then line
  else { line with text := line.text.eraseIdx (line.cursor - 1).toNat, cursor := line.cursor - 1 }

/-- Swaps the characters before and at the cursor and moves past both. At the start of the line
those are the first two characters, at its end the last two. -/
def transposeChars (line : Line) : Line :=
  let place :=
    if line.cursor = 0 then 1
    else if line.atEnd then line.cursor - 1
    else line.cursor
  let first := offset line.length (place - 1)
  match line.text.drop first with
  | a :: b :: rest =>
    { line with text := line.text.take first ++ b :: a :: rest, cursor := place + 1 }
  | _ => line

/-- Changes the character at the cursor by a function. -/
def modifyChar (f : List Char → List Char) (line : Line) : Line :=
  if line.atCharacter then line.modify ⟨line.cursor, line.cursor + 1⟩ f else line

/-- Puts the character at the cursor in upper case. -/
def upcaseChar (line : Line) : Line :=
  line.modifyChar Text.upcase

/-- Puts the character at the cursor in lower case. -/
def downcaseChar (line : Line) : Line :=
  line.modifyChar Text.downcase

/-- What a character becomes by pairs of a character and its replacement: the later of two pairs
for one character counts. -/
def translateChar (pairs : List (Char × Char)) (c : Char) : Char :=
  (pairs.reverse.lookup c).getD c

/-- Replaces characters, all at once. -/
def translate (pairs : List (Char × Char)) (line : Line) : Line :=
  { line with text := line.text.map (translateChar pairs) }

/-- Inserts a text at the cursor and moves past it. -/
def insert (s : List Char) (line : Line) : Line :=
  { line with
    text := Span.replace ⟨line.cursor, line.cursor⟩ line.text s
    cursor := line.cursor + s.length }

end LineEditor.Line
