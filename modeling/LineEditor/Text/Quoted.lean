import LineEditor.Text.Printable

/-!
# Quoted texts

Messages show a text in quotes, in such a way that it can be read back from them: a quote of the
same kind, a backslash and everything that is not printable are escaped. The quote is the single
one, unless the text holds single quotes and no double ones.
-/

namespace LineEditor.Text

/-- A number in hexadecimal, padded with zeros to a width. -/
def hexDigits (width n : Nat) : List Char :=
  let digits := Nat.toDigits 16 n
  List.replicate (width - digits.length) '0' ++ digits

/-- The escape of a code point by its number: two, four or eight digits, as many as it takes. -/
def escapeCode (n : Nat) : List Char :=
  if n ≤ 0xFF then '\\' :: 'x' :: hexDigits 2 n
  else if n ≤ 0xFFFF then '\\' :: 'u' :: hexDigits 4 n
  else '\\' :: 'U' :: hexDigits 8 n

/-- A character as it is written inside the given quotes. -/
def quotedChar (quote c : Char) : List Char :=
  if c = quote || c = '\\' then ['\\', c]
  else if c = '\n' then ['\\', 'n']
  else if c = '\r' then ['\\', 'r']
  else if c = '\t' then ['\\', 't']
  else if isPrintable c then [c]
  else escapeCode c.toNat

/-- The quote in which a text is shown. -/
def quoteOf (s : List Char) : Char :=
  if s.contains '\'' && !s.contains '"' then '"' else '\''

/-- A text in quotes. -/
def quoted (s : List Char) : String :=
  let quote := quoteOf s
  String.ofList (quote :: s.flatMap (quotedChar quote) ++ [quote])

theorem quoteOf_ne (s : List Char) : quoteOf s ≠ ')' := by
  unfold quoteOf
  split <;> decide

/-- A text in quotes ends with its quote. -/
theorem getLast?_quoted (s : List Char) : (quoted s).toList.getLast? = some (quoteOf s) := by
  unfold quoted
  rw [String.toList_ofList, List.getLast?_concat]

end LineEditor.Text
