/-!
# UTF-8

A character is written as one lead byte and up to three tail bytes. The lead byte says how many tail
bytes follow and narrows the first of them, so that no character has two encodings and surrogates
have none. A decoder that reads bytes as they arrive may find that its last character is unfinished;
a decoder that has all bytes must call that an error. An error names the bytes that form no
character: the longest piece that still could have begun one.
-/

namespace LineEditor.Text.Utf8

/-! ## Decoding -/

/-- What is wrong with a byte sequence. -/
inductive Fault where
  /-- A byte that no character begins with. -/
  | invalidStart
  /-- A tail byte outside the range that the bytes before it allow. -/
  | invalidContinuation
  /-- The bytes end inside a character. -/
  | unexpectedEnd
deriving Repr, DecidableEq

/-- Bytes that form no character. -/
structure DecodeError where
  /-- What is wrong. -/
  fault : Fault
  /-- Where the offending bytes begin. -/
  position : Nat
  /-- How many they are. -/
  width : Nat
  /-- The first of them. -/
  byte : UInt8
deriving Repr, DecidableEq

/-- The ranges of the tail bytes that follow a lead byte; `none` if the byte leads no character. -/
def tailRanges? (lead : UInt8) : Option (List (UInt8 × UInt8)) :=
  let tail := (0x80, 0xBF)
  if lead < 0x80 then some []
  else if lead < 0xC2 then none
  else if lead < 0xE0 then some [tail]
  else if lead = 0xE0 then some [(0xA0, 0xBF), tail]
  else if lead = 0xED then some [(0x80, 0x9F), tail]
  else if lead < 0xF0 then some [tail, tail]
  else if lead = 0xF0 then some [(0x90, 0xBF), tail, tail]
  else if lead < 0xF4 then some [tail, tail, tail]
  else if lead = 0xF4 then some [(0x80, 0x8F), tail, tail]
  else none

/-- How the bytes after a lead byte meet the ranges that it asks for. -/
inductive Tail where
  /-- All tail bytes are there. -/
  | complete
  /-- The bytes end before the tail does. -/
  | short
  /-- After so many good bytes, counted from the lead byte, comes a wrong one. -/
  | broken (good : Nat)
deriving Repr, DecidableEq

/-- Compares bytes with the ranges of a tail, `good` bytes of the character being read already. -/
def checkTail (good : Nat) : List (UInt8 × UInt8) → List UInt8 → Tail
  | [], _ => .complete
  | _ :: _, [] => .short
  | (low, high) :: ranges, b :: bytes =>
    if low ≤ b && b ≤ high then checkTail (good + 1) ranges bytes else .broken good

/-- The payload bits of a lead byte that is followed by `tails` tail bytes. -/
def leadBits (tails : Nat) (lead : UInt8) : Nat :=
  if tails = 0 then lead.toNat else lead.toNat % Nat.pow 2 (6 - tails)

/-- The character that a lead byte and its tail bytes encode. -/
def assemble (lead : UInt8) (tail : List UInt8) : Char :=
  Char.ofNat (tail.foldl (fun n b => 64 * n + b.toNat % 64) (leadBits tail.length lead))

/-- How decoding ends. -/
inductive Ending where
  /-- With the last character. -/
  | complete
  /-- With the given bytes of a character that is not finished. -/
  | unfinished (bytes : List UInt8)
  /-- At bytes that form no character. -/
  | broken (error : DecodeError)
deriving Repr, DecidableEq

/-- Decodes bytes that begin at the given position: the characters before the end, and the end. -/
def decodeFrom (position : Nat) : List UInt8 → List Char × Ending
  | [] => ([], .complete)
  | lead :: bytes =>
    match tailRanges? lead with
    | none => ([], .broken ⟨.invalidStart, position, 1, lead⟩)
    | some ranges =>
      match checkTail 1 ranges bytes with
      | .short => ([], .unfinished (lead :: bytes))
      | .broken good => ([], .broken ⟨.invalidContinuation, position, good, lead⟩)
      | .complete =>
        let tails := ranges.length
        let (chars, ending) := decodeFrom (position + 1 + tails) (bytes.drop tails)
        (assemble lead (bytes.take tails) :: chars, ending)
termination_by bytes => bytes.length
decreasing_by simp only [List.length_drop, List.length_cons]; omega

/-- The error of ending inside a character, whose bytes begin at the given position. -/
def endError (position : Nat) (bytes : List UInt8) : DecodeError :=
  ⟨.unexpectedEnd, position, bytes.length, bytes.headD 0⟩

/-- Decodes bytes that are all there. -/
def decode (bytes : List UInt8) : Except DecodeError (List Char) :=
  match decodeFrom 0 bytes with
  | (chars, .complete) => .ok chars
  | (_, .unfinished rest) => .error (endError (bytes.length - rest.length) rest)
  | (_, .broken error) => .error error

/-- Decodes bytes that arrive in chunks, after `held` bytes of an unfinished character. A chunk that
cannot be decoded adds nothing to the text, not even its good characters, and positions in errors
count from the held bytes. -/
def decodeChunks (held : List UInt8) : List (List UInt8) → List Char × Option DecodeError
  | [] => if held.isEmpty then ([], none) else ([], some (endError 0 held))
  | chunk :: chunks =>
    match decodeFrom 0 (held ++ chunk) with
    | (_, .broken error) => ([], some error)
    | (chars, .unfinished rest) =>
      let (more, error) := decodeChunks rest chunks
      (chars ++ more, error)
    | (chars, .complete) =>
      let (more, error) := decodeChunks [] chunks
      (chars ++ more, error)

/-! ## Encoding -/

/-- The tail byte that holds the six lowest bits of a number. -/
def tailByte (n : Nat) : UInt8 :=
  (0x80 + n % 64).toUInt8

/-- The bytes of a character: as few as hold its code point. -/
def encodeChar (c : Char) : List UInt8 :=
  let n := c.toNat
  if n < 0x80 then [n.toUInt8]
  else if n < 0x800 then [(0xC0 + n / 64).toUInt8, tailByte n]
  else if n < 0x10000 then [(0xE0 + n / 4096).toUInt8, tailByte (n / 64), tailByte n]
  else [(0xF0 + n / 262144).toUInt8, tailByte (n / 4096), tailByte (n / 64), tailByte n]

/-- The bytes of a text. -/
def encode (s : List Char) : List UInt8 :=
  s.flatMap encodeChar

/-! ## Errors in words -/

/-- What is wrong, in words. -/
def Fault.reason : Fault → String
  | .invalidStart => "invalid start byte"
  | .invalidContinuation => "invalid continuation byte"
  | .unexpectedEnd => "unexpected end of data"

/-- A byte in hexadecimal. -/
def hexByte (b : UInt8) : String :=
  let digits := String.ofList (Nat.toDigits 16 b.toNat)
  if b < 16 then "0x0" ++ digits else "0x" ++ digits

/-- A decoding error in words. -/
def DecodeError.message (e : DecodeError) : String :=
  let reason := e.fault.reason
  if e.width = 1 then
    let byte := hexByte e.byte
    s!"'utf-8' codec can't decode byte {byte} in position {e.position}: {reason}"
  else
    let last := e.position + e.width - 1
    s!"'utf-8' codec can't decode bytes in position {e.position}-{last}: {reason}"

end LineEditor.Text.Utf8
