import LineEditor.Text.Numeral

/-!
# Tokens

A program text is read as a sequence of tokens: words, integers, quoted strings and brackets. A
token remembers where in the text it was completed. Lines and columns count from one, and a column
counts characters; a token that is not read from a text may claim any line and column.
-/

namespace LineEditor

/-- A place in a program text. -/
structure Position where
  /-- The line, counted from one. -/
  line : Int
  /-- The column, counted from one. -/
  column : Int
deriving Repr, DecidableEq

/-- The place of the first character of a text. -/
def Position.start : Position :=
  ⟨1, 1⟩

/-- One column to the right. -/
def Position.right (p : Position) : Position :=
  ⟨p.line, p.column + 1⟩

/-- The place of the character after `c`, which stands at `p`: a newline begins a new line. -/
def Position.after (p : Position) (c : Char) : Position :=
  if c = '\n' then ⟨p.line + 1, 1⟩ else p.right

/-- The kinds of token. -/
inductive Kind where
  /-- A word, such as a keyword. -/
  | word
  /-- An integer of at most 32 bits. -/
  | int
  /-- A quoted string. -/
  | string
  /-- An opening parenthesis. -/
  | leftParen
  /-- A closing parenthesis. -/
  | rightParen
  /-- An opening brace. -/
  | leftBrace
  /-- A closing brace. -/
  | rightBrace
  /-- A kind that no text yields, known by its name only. -/
  | other (name : String)
deriving Repr, DecidableEq

/-- The name of a kind in messages. -/
def Kind.name : Kind → String
  | .word => "WORD"
  | .int => "INT"
  | .string => "STRING"
  | .leftParen => "LPAREN"
  | .rightParen => "RPAREN"
  | .leftBrace => "LBRACE"
  | .rightBrace => "RBRACE"
  | .other name => name

/-- A token of a program text. -/
structure Token where
  /-- What kind of token it is. -/
  kind : Kind
  /-- Its text: of a string what the quotes enclose, with the escapes undone. -/
  text : List Char
  /-- The place of the character that completed it, or the end of the text. -/
  position : Position
deriving Repr, DecidableEq

/-- The kind of token that a bracket is, or `none` for any other character. -/
def bracketKind? : Char → Option Kind
  | '(' => some .leftParen
  | ')' => some .rightParen
  | '{' => some .leftBrace
  | '}' => some .rightBrace
  | _ => none

/-- Whether a character separates tokens. -/
def isSeparator (c : Char) : Bool :=
  c = ' ' || c = '\t' || c = '\r' || c = '\n'

/-- A word without the sign that it begins with, if any. -/
def unsigned : List Char → List Char
  | '+' :: digits => digits
  | '-' :: digits => digits
  | digits => digits

/-- Whether a word is an optional sign and at least one digit. -/
def isIntegerWord (word : List Char) : Bool :=
  let digits := unsigned word
  !digits.isEmpty && digits.all Char.isDigit

/-- Whether a number has 32 bits at most, the sign included. -/
def isInt32 (n : Int) : Bool :=
  -2147483648 ≤ n && n ≤ 2147483647

/-- The kind of token that a word is: an integer if it is written as one of at most 32 bits. A word
that is an integer of too many digits to be read is neither, and its digits are counted instead. -/
def wordKind (word : List Char) : Except Nat Kind :=
  if isIntegerWord word then
    match Text.readInt word with
    | .ok n => .ok (if isInt32 n then .int else .word)
    | .error (.tooLong digits) => .error digits
    | .error .malformed => .ok .word
  else
    .ok .word

end LineEditor
