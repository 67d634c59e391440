import LineEditor.Token.Lexer

/-!
# Lexemes

What the tokens of a program text are can be told from the whole text, without reading it in steps.
The text is cut into string literals, white space, and the longest runs of characters that are
neither. A literal is one lexeme. In a run every bracket that nothing but brackets precedes is a
lexeme, and the rest of the run is cut before every other bracket into words.

A lexeme knows the index of the character that completes it: the bracket itself, the closing quote
of a literal, the character after a word; or the length of the text if that ends first.
-/

namespace LineEditor

/-- A token as a piece of a program text. -/
structure Lexeme where
  /-- What kind of token it is. -/
  kind : Kind
  /-- Its text: of a literal what the quotes enclose, with the escapes undone. -/
  text : List Char
  /-- The index of the character that completes it. -/
  stop : Nat
deriving Repr, DecidableEq

/-! ## Literals -/

/-- How many characters a literal has after its opening quote and before its closing one, which is
the first quote that no backslash escapes. -/
def literalLength : List Char → Nat
  | [] => 0
  | ['\\'] => 1
  | '\\' :: _ :: rest => literalLength rest + 2
  | c :: rest => if c = '"' then 0 else literalLength rest + 1

/-- A text with its escapes undone; a backslash that escapes nothing is dropped. -/
def unescape : List Char → List Char
  | [] => []
  | ['\\'] => []
  | '\\' :: c :: rest => c :: unescape rest
  | c :: rest => c :: unescape rest

/-! ## Words -/

/-- The number that decimal digits are. -/
def digitsValue (digits : List Char) : Nat :=
  digits.foldl (fun n c => 10 * n + (c.toNat - '0'.toNat)) 0

/-- The integer that a word is written as. -/
def writtenInt? (word : List Char) : Option Int :=
  let size := digitsValue (unsigned word)
  if isIntegerWord word then some (if word.head? = some '-' then -(size : Int) else size) else none

/-- The kind of token that a word is, of however many digits. -/
def writtenKind (word : List Char) : Kind :=
  if (writtenInt? word).any isInt32 then .int else .word

/-- Whether a character is a bracket. -/
def isBracket (c : Char) : Bool :=
  (bracketKind? c).isSome

/-- A text cut before every bracket in it. -/
def cutAtBrackets : List Char → List (List Char)
  | [] => []
  | c :: rest =>
    match cutAtBrackets rest with
    | [] => [[c]]
    | piece :: pieces =>
      if piece.head?.any isBracket then [c] :: piece :: pieces else (c :: piece) :: pieces

/-- The lexemes of words one right after another, the first of which begins at an index. -/
def wordLexemes (index : Nat) : List (List Char) → List Lexeme
  | [] => []
  | word :: words =>
    let stop := index + word.length
    ⟨writtenKind word, word, stop⟩ :: wordLexemes stop words

/-- The lexemes of a run that begins at an index. -/
def runLexemes (index : Nat) : List Char → List Lexeme
  | [] => []
  | c :: rest =>
    match bracketKind? c with
    | some kind => ⟨kind, [c], index⟩ :: runLexemes (index + 1) rest
    | none => wordLexemes index (cutAtBrackets (c :: rest))

/-! ## Texts -/

/-- Whether a character belongs to a run. -/
def isRunChar (c : Char) : Bool :=
  !isSeparator c && c ≠ '"'

/-- The lexemes of a text that begins at an index, outside of any literal and any run. -/
def lexemesFrom (index : Nat) : List Char → List Lexeme
  | [] => []
  | c :: rest =>
    if c = '"' then
      let stop := index + 1 + literalLength rest
      ⟨.string, unescape (rest.take (literalLength rest)), stop⟩ ::
        lexemesFrom (stop + 1) (rest.drop (literalLength rest + 1))
    else if isSeparator c then
      lexemesFrom (index + 1) rest
    else
      let run := c :: rest.takeWhile isRunChar
      runLexemes index run ++ lexemesFrom (index + run.length) (rest.dropWhile isRunChar)
termination_by text => text.length
decreasing_by
  · simp only [List.length_drop, List.length_cons]; omega
  · simp
  · have := (List.dropWhile_suffix isRunChar (l := rest)).length_le
    simp only [List.length_cons]; omega

/-- The lexemes of a program text. -/
def lexemes (source : List Char) : List Lexeme :=
  lexemesFrom 0 source

/-! ## Places -/

/-- The place of the character with an index in a text, or of its end: lines are counted by the
newlines before it, and columns by the characters after the last of these. -/
def Position.ofIndex (source : List Char) (index : Nat) : Position :=
  let before := source.take index
  ⟨1 + before.count '\n', 1 + (before.reverse.takeWhile (· ≠ '\n')).length⟩

/-- The token that a lexeme of a program text is. -/
def Lexeme.token (source : List Char) (l : Lexeme) : Token :=
  ⟨l.kind, l.text, .ofIndex source l.stop⟩

end LineEditor
