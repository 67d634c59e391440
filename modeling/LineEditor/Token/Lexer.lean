import LineEditor.Token.Basic

/-!
# Reading tokens

A lexer reads a program text once, from left to right, and yields one token at a time. A word ends
before white space, a quote or a bracket. What ended it may not be lost: a quote opens the string
that is the next token, and a bracket becomes the first character of the next word. A bracket that
ends no word is a token by itself. In a string a backslash makes the next character an ordinary one;
a string that is never closed ends with the text.

`Lexer.next` takes one step and `Lexer.run` takes them all. Each step that yields a token leaves
less to read, which `Lexer.size` measures.
-/

namespace LineEditor

/-- What the last token has left for the next one. -/
inductive Held where
  /-- Nothing. -/
  | nothing
  /-- The bracket that begins the next word. -/
  | bracket (c : Char)
  /-- The quote that opens the next string. -/
  | quote
deriving Repr, DecidableEq

/-- A program text, read up to some place between two tokens. -/
structure Lexer where
  /-- The characters not yet read. -/
  rest : List Char
  /-- The place of the first of them. -/
  position : Position
  /-- What the last token has left. -/
  held : Held
  /-- The place just past the last character read, which is the end of the text once that has been
  met. -/
  reach : Position
deriving Repr, DecidableEq

/-- What a lexer does in one step. -/
inductive Step where
  /-- It yields a token. -/
  | token (t : Token) (next : Lexer)
  /-- It meets the end of the text. -/
  | finished (last : Lexer)
  /-- It meets an integer of so many digits that it cannot be read. -/
  | tooLong (digits : Nat)
deriving Repr, DecidableEq

namespace Lexer

/-- A lexer that has not read anything of a text. -/
def ofSource (source : List Char) : Lexer :=
  ⟨source, .start, .nothing, .start⟩

/-- A lexer that has met the end of its text. -/
def exhausted (p : Position) : Lexer :=
  ⟨[], p, .nothing, p⟩

/-- A lexer that has just read the character `c`, which stands at `p`. -/
def past (p : Position) (c : Char) (rest : List Char) (held : Held) : Lexer :=
  ⟨rest, p.after c, held, p.right⟩

/-- Yields the word whose characters, the last one first, have been read. -/
def yieldWord (word : List Char) (p : Position) (next : Lexer) : Step :=
  match wordKind word.reverse with
  | .ok kind => .token ⟨kind, word.reverse, p⟩ next
  | .error digits => .tooLong digits

/-- Reads on in a string, after the characters `text`, the last one first, and perhaps a backslash
that takes the next character. The first character to read stands at `p`. -/
def readString (text : List Char) (escaped : Bool) (p : Position) : List Char → Step
  | [] => .token ⟨.string, text.reverse, p⟩ (exhausted p)
  | c :: rest =>
    if escaped then readString (c :: text) false (p.after c) rest
    else if c = '\\' then readString text true (p.after c) rest
    else if c = '"' then .token ⟨.string, text.reverse, p⟩ (past p c rest .nothing)
    else readString (c :: text) false (p.after c) rest

/-- Reads on in a word, after the characters `word`, the last one first, or between tokens if there
are none. The first character to read stands at `p`. -/
def readWord (word : List Char) (p : Position) : List Char → Step
  | [] => if word.isEmpty then .finished (exhausted p) else yieldWord word p (exhausted p)
  | c :: rest =>
    match bracketKind? c with
    | some kind =>
      if word.isEmpty then .token ⟨kind, [c], p⟩ (past p c rest .nothing)
      else yieldWord word p (past p c rest (.bracket c))
    | none =>
      if c = '"' then
        if word.isEmpty then readString [] false (p.after c) rest
        else yieldWord word p (past p c rest .quote)
      else if isSeparator c then
        if word.isEmpty then readWord [] (p.after c) rest
        else yieldWord word p (past p c rest .nothing)
      else
        readWord (c :: word) (p.after c) rest

/-- Reads the next token. -/
def next (lexer : Lexer) : Step :=
  match lexer.held with
  | .nothing => readWord [] lexer.position lexer.rest
  | .bracket c => readWord [c] lexer.position lexer.rest
  | .quote => readString [] false lexer.position lexer.rest

/-! ## Every token leaves less to read -/

/-- How much there is to read: the characters not yet read and what the last token has left. -/
def size (lexer : Lexer) : Nat :=
  lexer.rest.length + if lexer.held = .nothing then 0 else 1

@[simp] theorem size_exhausted (p : Position) : (exhausted p).size = 0 := rfl

theorem size_past_le (p : Position) (c : Char) (rest : List Char) (held : Held) :
    (past p c rest held).size ≤ rest.length + 1 := by
  by_cases h : held = .nothing <;> simp [size, past, h]

@[simp] theorem size_past_nothing (p : Position) (c : Char) (rest : List Char) :
    (past p c rest .nothing).size = rest.length := by
  simp [size, past]

theorem eq_of_yieldWord {word : List Char} {p : Position} {lexer next : Lexer} {t : Token}
    (h : yieldWord word p lexer = .token t next) : lexer = next := by
  unfold yieldWord at h
  split at h
  · injection h
  · nomatch h

theorem size_le_of_readString {text : List Char} {escaped : Bool} {p : Position}
    {rest : List Char} {t : Token} {next : Lexer}
    (h : readString text escaped p rest = .token t next) : next.size ≤ rest.length := by
  fun_induction readString text escaped p rest with
  | case1 => cases h; simp
  | case2 _ _ _ _ ih => exact Nat.le_succ_of_le (ih h)
  | case3 _ _ _ _ _ ih => exact Nat.le_succ_of_le (ih h)
  | case4 => cases h; simp
  | case5 _ _ _ _ _ _ _ _ ih => exact Nat.le_succ_of_le (ih h)

theorem size_le_of_readWord {word : List Char} {p : Position} {rest : List Char} {t : Token}
    {next : Lexer} (h : readWord word p rest = .token t next) :
    next.size + (if word.isEmpty then 1 else 0) ≤ rest.length := by
  fun_induction readWord word p rest with
  | case1 => nomatch h
  | case2 word p hw => rw [← eq_of_yieldWord h]; simp [hw]
  | case3 word p c rest kind hk hw => cases h; simp [hw]
  | case4 word p c rest kind hk hw =>
    rw [← eq_of_yieldWord h]
    simpa [hw] using size_past_le p c rest (.bracket c)
  | case5 word p rest hw hk => have := size_le_of_readString h; simp [hw]; omega
  | case6 word p rest hw hk =>
    rw [← eq_of_yieldWord h]
    simpa [hw] using size_past_le p '"' rest .quote
  | case7 word p c rest hk hc hs hw ih => have := ih h; simp [hw] at this ⊢; omega
  | case8 word p c rest hk hc hs hw => rw [← eq_of_yieldWord h]; simp [hw]
  | case9 word p c rest hk hc hs ih =>
    have := ih h
    simp only [List.isEmpty_cons, Bool.false_eq_true, if_false, List.length_cons] at this ⊢
    split <;> omega

theorem size_lt_of_next {lexer lexer' : Lexer} {t : Token}
    (h : lexer.next = .token t lexer') : lexer'.size < lexer.size := by
  unfold next at h
  split at h <;> rename_i held
  · have := size_le_of_readWord h; simp [size, held] at this ⊢; omega
  · have := size_le_of_readWord h; simp [size, held] at this ⊢; omega
  · have := size_le_of_readString h; simp [size, held] at this ⊢; omega

/-! ## Reading to the end -/

/-- How the tokens of a text end. -/
inductive Ending where
  /-- With the end of the text, which is at the given place. -/
  | endOfText (position : Position)
  /-- At an integer of so many digits that it cannot be read. -/
  | tooLong (digits : Nat)
deriving Repr, DecidableEq

/-- All tokens that a lexer yields, each with what the lexer is after it, and how they end. -/
def run (lexer : Lexer) : List (Token × Lexer) × Ending :=
  match _h : lexer.next with
  | .token t lexer' =>
    let (steps, ending) := lexer'.run
    ((t, lexer') :: steps, ending)
  | .finished last => ([], .endOfText last.reach)
  | .tooLong digits => ([], .tooLong digits)
termination_by lexer.size
decreasing_by exact size_lt_of_next _h

/-- All tokens that a lexer yields. -/
def tokens (lexer : Lexer) : List Token :=
  lexer.run.1.map Prod.fst

/-- How the tokens that a lexer yields end. -/
def ending (lexer : Lexer) : Ending :=
  lexer.run.2

/-- What a lexer is after it has yielded `count` tokens, or met the end of its text; an integer that
cannot be read on the way has so many digits. -/
def skip : Nat → Lexer → Except Nat Lexer
  | 0, lexer => .ok lexer
  | count + 1, lexer =>
    match lexer.next with
    | .token _ lexer' => lexer'.skip count
    | .finished last => .ok last
    | .tooLong digits => .error digits

end Lexer

end LineEditor
