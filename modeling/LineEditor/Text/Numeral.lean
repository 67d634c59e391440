import LineEditor.Text.Blank
import LineEditor.Text.Digit

/-!
# Decimal numerals

A numeral is an optional sign and at least one decimal digit, of any script and of several scripts
if need be; a single underscore may stand between two digits. Blanks around a numeral are not part
of it, the separator characters of ASCII excepted, which belong to no numeral. So that reading stays
cheap, a numeral may have no more than `digitLimit` digits, leading zeros included; the digits that
a text begins with are counted before it is known whether anything else follows.
-/

namespace LineEditor.Text

/-- The greatest number of digits of a numeral that is read. -/
def digitLimit : Nat := 4300

/-- Why a text is not read as a number. -/
inductive NumeralFault where
  /-- The text is not a numeral. -/
  | malformed
  /-- The numeral has more digits than the limit. -/
  | tooLong (digits : Nat)
deriving Repr, DecidableEq

/-- Whether a blank may surround a numeral. -/
def isPadding (c : Char) : Bool :=
  isBlank c && !c.within [(0x1C, 0x1F)]

/-- The values of a row of digits, in which single underscores may stand between digits. -/
def digitRow? : List Char → Option (List Nat)
  | [] => none
  | [c] => (digitValue? c).map fun d => [d]
  | c :: '_' :: rest => do
    let d ← digitValue? c
    let ds ← digitRow? rest
    return d :: ds
  | c :: rest => do
    let d ← digitValue? c
    let ds ← digitRow? rest
    return d :: ds

/-- The number that a row of digits stands for. -/
def ofDigits (digits : List Nat) : Nat :=
  digits.foldl (fun n d => 10 * n + d) 0

/-- Whether a character can be part of a row of digits. -/
def isRowChar (c : Char) : Bool :=
  (digitValue? c).isSome || c = '_'

/-- The number that an unsigned row of digits stands for, which only blanks may follow. -/
def readNat (s : List Char) : Except NumeralFault Nat :=
  match digitRow? (s.takeWhile isRowChar) with
  | none => .error .malformed
  | some digits =>
    if digits.length > digitLimit then .error (.tooLong digits.length)
    else if (s.dropWhile isRowChar).all isPadding then .ok (ofDigits digits)
    else .error .malformed

/-- The number that a text stands for. -/
def readInt (s : List Char) : Except NumeralFault Int :=
  match s.dropWhile isPadding with
  | '-' :: digits => (readNat digits).map fun n => -(n : Int)
  | '+' :: digits => (readNat digits).map fun n => (n : Int)
  | digits => (readNat digits).map fun n => (n : Int)

end LineEditor.Text
