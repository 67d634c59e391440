import LineEditor.Line.Word

/-!
# Moving and searching

Motions change the cursor and nothing else, and they keep it on the line if it stands there. A
search moves the cursor to a character, if it is there. Looking ahead begins with the character at
the cursor, looking behind with the one before it.
-/

namespace LineEditor.Line

/-- Moves to the next character. -/
def forward (line : Line) : Line :=
  { line with cursor := min (line.cursor + 1) line.length }

/-- Moves to the character before. -/
def back (line : Line) : Line :=
  { line with cursor := max 0 (line.cursor - 1) }

/-- Moves to the start of the line. -/
def home (line : Line) : Line :=
  { line with cursor := 0 }

/-- Moves past the last character. -/
def toEnd (line : Line) : Line :=
  { line with cursor := line.length }

/-- Moves to the last character. -/
def last (line : Line) : Line :=
  { line with cursor := max 0 (line.length - 1) }

/-- Moves to a column, or to the end of the line that is nearer to it. -/
def goto (column : Int) (line : Line) : Line :=
  { line with cursor := max 0 (min column line.length) }

/-- Moves to the end of a word. -/
def forwardWord (line : Line) : Line :=
  { line with cursor := line.forwardWordTarget }

/-- Moves to the start of a word. -/
def backWord (line : Line) : Line :=
  { line with cursor := line.backWordTarget }

/-! ## Searching -/

/-- The first place of a character at the cursor or after it. A text of another length than one is
nowhere. -/
def findAhead? (target : List Char) (line : Line) : Option Int :=
  (line.ahead.findIdx? fun c => [c] = target).map fun (n : Nat) => line.cursor + n

/-- The last place of a character before the cursor. A text of another length than one is
nowhere. -/
def findBehind? (target : List Char) (line : Line) : Option Int :=
  let before := line.text.take line.cursor.toNat
  (before.reverse.findIdx? fun c => [c] = target).map fun (n : Nat) => before.length - 1 - n

/-- Moves to the place that a search has found, if it has found one. -/
def moveTo (place : Option Int) (line : Line) : Line :=
  { line with cursor := place.getD line.cursor }

/-- Moves to the first place of a character at the cursor or after it. -/
def find (target : List Char) (line : Line) : Line :=
  line.moveTo (line.findAhead? target)

/-- Moves to the last place of a character before the cursor. -/
def findBack (target : List Char) (line : Line) : Line :=
  line.moveTo (line.findBehind? target)

end LineEditor.Line
