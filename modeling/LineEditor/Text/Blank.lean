import LineEditor.Text.CodePoint

/-!
# Blank characters and trimming

A character is blank when Unicode calls it white space, or when it is one of the four separators of
records and fields among the control characters. Trimming takes blanks off one end of a text, or off
both.
-/

namespace LineEditor.Text

/-- The blank characters. -/
def blankRanges : List CodeRange :=
  [(0x9, 0xD), (0x1C, 0x20), (0x85, 0x85), (0xA0, 0xA0), (0x1680, 0x1680), (0x2000, 0x200A),
   (0x2028, 0x2029), (0x202F, 0x202F), (0x205F, 0x205F), (0x3000, 0x3000)]

/-- Whether a character is blank. -/
def isBlank (c : Char) : Bool :=
  c.within blankRanges

/-- A text without the blanks that it starts with. -/
def trimLeft (s : List Char) : List Char :=
  s.dropWhile isBlank

/-- A text without the blanks that it ends with. -/
def trimRight (s : List Char) : List Char :=
  (s.reverse.dropWhile isBlank).reverse

/-- A text without the blanks at either end. -/
def trim (s : List Char) : List Char :=
  trimLeft (trimRight s)

end LineEditor.Text
