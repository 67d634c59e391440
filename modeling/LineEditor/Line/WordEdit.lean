import LineEditor.Line.Character

/-!
# Editing words

The word at the cursor reaches from the start of a word at the cursor or before it to the end of a
word at the cursor or after it; between two words it covers both.
-/

namespace LineEditor.Line

/-- The span from the start of the word behind to the end of the word ahead. -/
def wordSpan (line : Line) : Span :=
  ⟨line.wordStart, line.wordEnd⟩

/-- Deletes from the cursor to the end of a word. -/
def killWord (line : Line) : Line :=
  line.kill ⟨line.cursor, line.wordEnd⟩

/-- Deletes back to the start of the word at the cursor, or of the word before if the cursor stands
on that start. -/
def killWordBack (line : Line) : Line :=
  let start := if line.wordStart = line.cursor then line.previousWordStart else line.wordStart
  { line.kill ⟨start, line.cursor⟩ with cursor := start }

/-- Deletes from the start to the end of a word. -/
def killFullWord (line : Line) : Line :=
  { line.kill line.wordSpan with cursor := line.wordStart }

/-- Swaps the last word that begins at the cursor or before it with the word after it, or the last
two words if none follows, and moves past both. -/
def transposeWords (line : Line) : Line :=
  let spans := line.wordSpans
  let index := min (spans.countP (·.start ≤ line.cursor) - 1) (spans.length - 2)
  match spans.drop index with
  | first :: second :: _ =>
    let between : Span := ⟨first.stop, second.start⟩
    let both : Span := ⟨first.start, second.stop⟩
    let swapped := second.of line.text ++ between.of line.text ++ first.of line.text
    { line with text := both.replace line.text swapped, cursor := second.stop }
  | _ => line

/-- Puts a word in upper case. -/
def upcaseWord (line : Line) : Line :=
  line.modify line.wordSpan Text.upcase

/-- Puts a word in lower case. -/
def downcaseWord (line : Line) : Line :=
  line.modify line.wordSpan Text.downcase

/-- Puts the first character of a word in upper case; the cursor keeps its number. -/
def capitalizeWord (line : Line) : Line :=
  { ({ line with cursor := line.wordStart } : Line).upcaseChar with cursor := line.cursor }

end LineEditor.Line
