import LineEditor.Line.Region

/-!
# Editing the whole line

Commands that delete to one end of the line, and commands that change all of it.
-/

namespace LineEditor.Line

/-- Deletes what follows the cursor and lets the mark keep its text. -/
def killAfter (line : Line) : Line :=
  line.kill ⟨line.cursor, line.length⟩

/-- Deletes what precedes the cursor and lets the mark keep its text. -/
def killBefore (line : Line) : Line :=
  { line.kill ⟨0, line.cursor⟩ with cursor := 0 }

/-- Deletes what follows the cursor; the mark keeps its number, even past the end. -/
def removeAfter (line : Line) : Line :=
  line.remove ⟨line.cursor, line.length⟩

/-- Deletes so many characters at the end, or all of them if there are fewer. -/
def truncateBy (amount : Int) (line : Line) : Line :=
  line.modifyText (·.take (line.length - amount.toNat))

/-- Trims the line at its start. -/
def trimLeft (line : Line) : Line :=
  line.modifyText Text.trimLeft

/-- Trims the line at its end. -/
def trimRight (line : Line) : Line :=
  line.modifyText Text.trimRight

/-- Trims the line at both ends. -/
def trim (line : Line) : Line :=
  line.trimRight.trimLeft

/-- Puts the line in upper case. -/
def upcase (line : Line) : Line :=
  line.modifyText Text.upcase

/-- Puts the line in lower case. -/
def downcase (line : Line) : Line :=
  line.modifyText Text.downcase

/-- Moves the start of the line, up to the character at the cursor, to the end of the line, its last
character first. -/
def transpose (line : Line) : Line :=
  let count := offset line.length (line.cursor + 1)
  let moved := line.text.take count
  let kept := line.text.drop count
  { line with text := kept ++ moved.getLast?.toList ++ moved.dropLast }

end LineEditor.Line
