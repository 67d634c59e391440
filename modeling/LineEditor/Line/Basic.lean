/-!
# The line being edited

The commands work on one line at a time. The line has a cursor, which stands before one of its
characters or past the last one, and it may have a mark, which can be left behind past the end when
text is deleted. Copied texts are kept in a stack of clips. Once a line is done, the rest of the
program may be left out.

A place is the number of characters before it. Commands keep the cursor of a line on the line, but a
line can also be made with a cursor and a mark that stand anywhere, even at negative places. Where
text is taken or replaced, a negative place is counted back from the end of the line, and a place
past the end is the end.

The cursor and the mark enclose the region. Lines change by having a span of their text replaced.
-/

namespace LineEditor

/-- A line that is being edited. -/
structure Line where
  /-- The characters of the line. -/
  text : List Char
  /-- The place of the cursor. -/
  cursor : Int := 0
  /-- The place of the mark, if it has been set. -/
  mark : Option Int := none
  /-- The copied texts, the last one first. -/
  clips : List (List Char) := []
  /-- Whether the line is done. -/
  done : Bool := false
deriving Repr, DecidableEq

/-- How many characters of a text of the given length come before a place: a negative place is
counted back from the end of the text, and a place past the end is the end. -/
def offset (length : Nat) (place : Int) : Nat :=
  if place < 0 then (length + place).toNat else min place.toNat length

@[simp] theorem offset_natCast (length place : Nat) : offset length place = min place length := by
  rw [offset, if_neg (Int.not_lt.2 (Int.natCast_nonneg place)), Int.toNat_natCast]

/-- A span of a text: the characters from one place up to another one. -/
structure Span where
  /-- Where the span begins. -/
  start : Int
  /-- Where it ends: the first place after it. -/
  stop : Int
deriving Repr, DecidableEq

/-- The characters of a text on a span. -/
def Span.of (s : Span) (text : List Char) : List Char :=
  (text.take (offset text.length s.stop)).drop (offset text.length s.start)

/-- A text with other characters on a span, or at its start if it ends before that. -/
def Span.replace (s : Span) (text new : List Char) : List Char :=
  let start := offset text.length s.start
  text.take start ++ (new ++ text.drop (max start (offset text.length s.stop)))

namespace Line

/-- How many characters a line has. -/
def length (line : Line) : Nat :=
  line.text.length

/-- Whether a character stands at the cursor. -/
def atCharacter (line : Line) : Bool :=
  line.cursor < line.length

/-- Whether the cursor stands right past the last character. -/
def atEnd (line : Line) : Bool :=
  line.cursor = line.length

/-- Whether the cursor stands so far before the line that counting back from the end does not reach
it. -/
def isBefore (line : Line) : Bool :=
  line.cursor < -line.length

/-- Whether the cursor stands past the end. -/
def isPast (line : Line) : Bool :=
  line.length < line.cursor

/-- The span between the cursor and the mark, which is empty if there is no mark. A mark past the
end counts as one at the end. -/
def region (line : Line) : Span :=
  let mark : Int := match line.mark with
    | none => line.cursor
    | some m => min m line.length
  ⟨min mark line.cursor, max mark line.cursor⟩

/-- Brings the cursor and the mark back onto the line, each to the nearer end. -/
def clamp (line : Line) : Line :=
  { line with
    cursor := max 0 (min line.cursor line.length)
    mark := line.mark.map fun m => max 0 (min m line.length) }

/-- Moves the mark along with its text when `count` characters from `left` on are deleted: a mark
further right goes back by so much, though not past `left`. -/
def pullMark (left count : Int) (line : Line) : Line :=
  { line with mark := line.mark.map fun m => if left < m then max left (m - count) else m }

/-- Deletes a span; the cursor and the mark keep their numbers. -/
def remove (s : Span) (line : Line) : Line :=
  { line with text := s.replace line.text [] }

/-- Deletes a span and lets the mark keep its text. -/
def kill (s : Span) (line : Line) : Line :=
  (line.remove s).pullMark s.start (s.stop - s.start)

/-- Changes a span by a function and brings the cursor and the mark back onto the line, which may
have become shorter. -/
def modify (s : Span) (f : List Char → List Char) (line : Line) : Line :=
  { line with text := s.replace line.text (f (s.of line.text)) }.clamp

/-- Changes the whole line by a function and brings the cursor and the mark back onto it. -/
def modifyText (f : List Char → List Char) (line : Line) : Line :=
  { line with text := f line.text }.clamp

/-! ## Clips -/

/-- The text copied last. -/
def topClip? (line : Line) : Option (List Char) :=
  line.clips.head?

/-- Adds a copied text. -/
def pushClip (s : List Char) (line : Line) : Line :=
  { line with clips := s :: line.clips }

/-- Puts another text in the place of the one copied last; `none` if there is none. -/
def replaceTopClip? (s : List Char) (line : Line) : Option Line :=
  match line.clips with
  | [] => none
  | _ :: below => some { line with clips := s :: below }

end Line

end LineEditor
