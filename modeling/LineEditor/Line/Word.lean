import LineEditor.Line.Basic

/-!
# Words of a line

A word is a longest piece of a line without separators. Commands on words look for the boundary of a
word from the cursor, ahead for an end and behind for a start. Looking behind begins with the
character at the cursor, looking ahead does so too; either passes over separators first and then
over the characters of one word.

From a cursor before the line, looking ahead begins as many characters before the end of the line,
and comes to its start after that; nothing is behind.
-/

namespace LineEditor

/-- Whether a character separates words. -/
def isWordSeparator (c : Char) : Bool :=
  c = ' ' || c = '\t' || c = '.' || c = ',' || c = ';' || c = ':'

/-- Whether a character is part of a word. -/
def isWordChar (c : Char) : Bool :=
  !isWordSeparator c

/-- The start of the last word of a text that is read backwards, `none` if it has no word. -/
def lastWordStart? (backwards : List Char) : Option Nat :=
  match backwards.dropWhile isWordSeparator with
  | [] => none
  | word => some (word.dropWhile isWordChar).length

/-- How many characters precede the end of the first word of a text, `none` if it has no word. -/
def firstWordEnd? (text : List Char) : Option Nat :=
  match text.dropWhile isWordSeparator with
  | [] => none
  | word => some (text.length - (word.dropWhile isWordChar).length)

/-- The spans of the words of a text whose first character has the given index; `opened` is where a
word begins that is not yet finished there. -/
def wordSpansFrom (index : Nat) (opened : Option Nat) : List Char → List Span
  | [] =>
    match opened with
    | none => []
    | some start => [⟨start, index⟩]
  | c :: text =>
    if isWordChar c then
      wordSpansFrom (index + 1) (some (opened.getD index)) text
    else
      match opened with
      | none => wordSpansFrom (index + 1) none text
      | some start => ⟨start, index⟩ :: wordSpansFrom (index + 1) none text

namespace Line

/-- The spans of the words of a line, in order. -/
def wordSpans (line : Line) : List Span :=
  wordSpansFrom 0 none line.text

/-- The line up to the character at the cursor, read backwards. -/
def behind (line : Line) : List Char :=
  (line.text.take (line.cursor + 1).toNat).reverse

/-- The line from the cursor on. -/
def ahead (line : Line) : List Char :=
  if line.cursor < 0 then line.text.drop (offset line.length line.cursor) ++ line.text
  else line.text.drop line.cursor.toNat

/-- The start of the last of some words behind the cursor, and the start of the line if there is
none; the cursor itself if it stands before the line. -/
def startBehind (words : List Char) (line : Line) : Int :=
  if line.cursor < 0 then line.cursor else ((lastWordStart? words).getD 0 : Nat)

/-- The start of the word at the cursor or before it, and the start of the line if there is none. -/
def wordStart (line : Line) : Int :=
  line.startBehind line.behind

/-- The start of the word before the one at the cursor, and the start of the line if there is
none. -/
def previousWordStart (line : Line) : Int :=
  line.startBehind (if line.atCharacter then line.behind.dropWhile isWordChar else line.behind)

/-- The end of the word at the cursor or after it, and the end of the line if there is none, unless
the cursor stands past that. -/
def wordEnd (line : Line) : Int :=
  match firstWordEnd? line.ahead with
  | none => max line.cursor line.length
  | some n => line.cursor + n

/-- Where moving to the end of a word leads: nowhere if no word is ahead. -/
def forwardWordTarget (line : Line) : Int :=
  line.cursor + (firstWordEnd? line.ahead).getD 0

/-- Where moving to the start of a word leads: nowhere if no word is behind. -/
def backWordTarget (line : Line) : Int :=
  match lastWordStart? line.behind with
  | none => line.cursor
  | some n => n

end Line

end LineEditor
