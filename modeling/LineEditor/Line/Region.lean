import LineEditor.Line.Character
import LineEditor.Text.Blank

/-!
# The region and the clips

Text is copied from the region or from the whole line. Commands on the text copied last do nothing
when none has been copied.
-/

namespace LineEditor.Line

/-- Sets the mark at the cursor. -/
def setMark (line : Line) : Line :=
  { line with mark := some line.cursor }

/-- Puts the region in upper case. -/
def upcaseRegion (line : Line) : Line :=
  line.modify line.region Text.upcase

/-- Puts the region in lower case. -/
def downcaseRegion (line : Line) : Line :=
  line.modify line.region Text.downcase

/-! ## Clips -/

/-- The text of the region. -/
def regionText (line : Line) : List Char :=
  line.region.of line.text

/-- Copies the region. -/
def copy (line : Line) : Line :=
  line.pushClip line.regionText

/-- Copies the line. -/
def copyLine (line : Line) : Line :=
  line.pushClip line.text

/-- Copies the region and deletes it. The cursor comes to its start, and so does a mark at its
end. -/
def cut (line : Line) : Line :=
  let region := line.region
  { line.copy.remove region with
    cursor := region.start
    mark := if line.cursor < region.stop then some region.start else line.mark }

/-- Inserts the text copied last. -/
def paste (line : Line) : Line :=
  match line.topClip? with
  | none => line
  | some s => line.insert s

/-- Changes the text copied last by a function. -/
def modifyClip (f : List Char → List Char) (line : Line) : Line :=
  match line.clips with
  | [] => line
  | top :: below => { line with clips := f top :: below }

end LineEditor.Line
