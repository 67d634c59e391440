import LineEditor.Command.Printer
import LineEditor.Proofs.Command.Keyword
import LineEditor.Proofs.Token.IntegerWord
import LineEditor.Proofs.Token.Lexemes
import Mathlib.Data.List.Forall2

/-!
# Reading what is written

Keywords and integers as they are printed are pieces of text, and so are strings in quotes, however
they are escaped. A text that is made of such pieces, with white space between them, has one lexeme
for each piece.
-/

namespace LineEditor

/-! ## Integers -/

theorem isDigit_of_mem_toDigits {n : Nat} {c : Char} (h : c ∈ Nat.toDigits 10 n) :
    c.isDigit = true :=
  Nat.isDigit_of_mem_toDigits (by decide) (by decide) h

theorem unsigned_toDigits (n : Nat) : unsigned (Nat.toDigits 10 n) = Nat.toDigits 10 n := by
  rcases hdigits : Nat.toDigits 10 n with _ | ⟨c, rest⟩
  · rfl
  · have hc : c.isDigit = true := isDigit_of_mem_toDigits (by rw [hdigits]; simp)
    refine unsigned_of_ne ?_ ?_
    · rintro rfl
      exact absurd hc (by decide)
    · rintro rfl
      exact absurd hc (by decide)

theorem unsigned_writeInt (n : Int) : unsigned (writeInt n) = Nat.toDigits 10 n.natAbs := by
  unfold writeInt
  split
  · rfl
  · exact unsigned_toDigits n.natAbs

theorem isIntegerWord_writeInt (n : Int) : isIntegerWord (writeInt n) = true := by
  unfold isIntegerWord
  rw [unsigned_writeInt]
  simp only [Bool.and_eq_true, Bool.not_eq_true', List.isEmpty_eq_false_iff, List.all_eq_true]
  exact ⟨Nat.toDigits_ne_nil, fun c hc => isDigit_of_mem_toDigits hc⟩

theorem digitsValue_toDigits (n : Nat) : digitsValue (Nat.toDigits 10 n) = n :=
  Nat.ofDigitChars_ten_toDigits

theorem writtenInt?_writeInt (n : Int) : writtenInt? (writeInt n) = some n := by
  rw [writtenInt?, if_pos (isIntegerWord_writeInt n), unsigned_writeInt, digitsValue_toDigits]
  by_cases hneg : n < 0
  · rw [writeInt, if_pos hneg]
    simp only [List.head?_cons, if_true, Option.some.injEq]
    omega
  · have hhead : (writeInt n).head? ≠ some '-' := by
      intro hhead
      have hmem : '-' ∈ Nat.toDigits 10 n.natAbs := by
        rw [writeInt, if_neg hneg] at hhead
        exact List.mem_of_head? hhead
      exact absurd (isDigit_of_mem_toDigits hmem) (by decide)
    rw [if_neg hhead]
    simp only [Option.some.injEq]
    omega

/-- An integer of 32 bits has at most ten digits. -/
theorem tooManyDigits?_writeInt {n : Int} (h : isInt32 n = true) :
    tooManyDigits? (writeInt n) = none := by
  have hbound : n.natAbs < 10 ^ 10 := by
    simp only [isInt32, Bool.and_eq_true, decide_eq_true_eq] at h
    omega
  have hlength := (Nat.length_toDigits_le_iff (by decide) (by decide)).2 hbound
  have hlimit : ¬Text.digitLimit < (Nat.toDigits 10 n.natAbs).length := by
    unfold Text.digitLimit
    omega
  simp [tooManyDigits?, unsigned_writeInt, hlimit]

theorem readInt_writeInt {n : Int} (h : isInt32 n = true) :
    Text.readInt (writeInt n) = .ok n := by
  obtain ⟨m, hwritten, hread⟩ := readInt_of_isIntegerWord (isIntegerWord_writeInt n)
  rw [writtenInt?_writeInt] at hwritten
  have hlimit := tooManyDigits?_writeInt h
  rw [tooManyDigits?, isIntegerWord_writeInt] at hlimit
  cases hwritten
  rw [hread, if_neg (by simpa using hlimit)]

theorem writtenKind_writeInt {n : Int} (h : isInt32 n = true) :
    writtenKind (writeInt n) = .int := by
  simp [writtenKind, writtenInt?_writeInt, h]

/-! ## Words -/

/-- Whether a character belongs to a word wherever it stands. -/
def isPieceChar (c : Char) : Bool :=
  isRunChar c && !isBracket c

/-- A piece of text is read as one word. -/
structure IsWordPiece (word : List Char) : Prop where
  /-- It is not empty. -/
  ne_nil : word ≠ []
  /-- Nothing in it ends a word. -/
  all_pieceChar : ∀ c ∈ word, isPieceChar c = true
  /-- If it is an integer, it can be read. -/
  readable : tooManyDigits? word = none

theorem isPieceChar_iff {c : Char} :
    isPieceChar c = true ↔ isRunChar c = true ∧ bracketKind? c = none := by
  simp [isPieceChar, isBracket]

/-- The characters that end a word wherever they stand. -/
def wordEnders : List Char :=
  [' ', '\t', '\r', '\n', '"', '(', ')', '{', '}']

theorem isPieceChar_of_not_mem {c : Char} (h : c ∉ wordEnders) : isPieceChar c = true := by
  simp only [wordEnders, List.mem_cons, List.not_mem_nil, or_false, not_or] at h
  obtain ⟨hspace, htab, hreturn, hnewline, hquote, hleft, hright, hleftBrace, hrightBrace⟩ := h
  have hrun : isRunChar c = true := by
    simp [isRunChar, isSeparator, hspace, htab, hreturn, hnewline, hquote]
  have hbracket : bracketKind? c = none := by
    unfold bracketKind?
    split
    · exact absurd rfl hleft
    · exact absurd rfl hright
    · exact absurd rfl hleftBrace
    · exact absurd rfl hrightBrace
    · rfl
  exact isPieceChar_iff.2 ⟨hrun, hbracket⟩

theorem isPieceChar_of_isDigit {c : Char} (h : c.isDigit = true) : isPieceChar c = true := by
  have hdigits : wordEnders.all (!Char.isDigit ·) = true := by decide
  refine isPieceChar_of_not_mem fun hc => ?_
  have hc := List.all_eq_true.1 hdigits c hc
  rw [h] at hc
  exact absurd hc (by decide)

theorem isWordPiece_writeInt {n : Int} (h : isInt32 n = true) : IsWordPiece (writeInt n) := by
  refine ⟨?_, ?_, tooManyDigits?_writeInt h⟩
  · intro hnil
    have hword := isIntegerWord_writeInt n
    rw [hnil] at hword
    exact absurd hword (by decide)
  · intro c hc
    unfold writeInt at hc
    split at hc
    · rcases List.mem_cons.1 hc with rfl | hc
      · decide
      · exact isPieceChar_of_isDigit (isDigit_of_mem_toDigits hc)
    · exact isPieceChar_of_isDigit (isDigit_of_mem_toDigits hc)

/-! ## Keywords -/

/-- Whether a character can be part of a keyword. -/
def isKeywordChar (c : Char) : Bool :=
  ('a'.toNat ≤ c.toNat && c.toNat ≤ 'z'.toNat) || c = '_'

theorem isPieceChar_of_isKeywordChar {c : Char} (h : isKeywordChar c = true) :
    isPieceChar c = true := by
  have hkeyword : wordEnders.all (!isKeywordChar ·) = true := by decide
  refine isPieceChar_of_not_mem fun hc => ?_
  have hc := List.all_eq_true.1 hkeyword c hc
  rw [h] at hc
  exact absurd hc (by decide)

theorem isIntegerWord_eq_false {c : Char} {rest : List Char} (h : isKeywordChar c = true) :
    isIntegerWord (c :: rest) = false := by
  have hplus : c ≠ '+' := by
    rintro rfl
    exact absurd h (by decide)
  have hminus : c ≠ '-' := by
    rintro rfl
    exact absurd h (by decide)
  have hdigit : c.isDigit = false := by
    refine Bool.eq_false_iff.2 fun hdigit => ?_
    obtain ⟨hlo, hhi⟩ := toNat_of_isDigit hdigit
    simp only [isKeywordChar, Bool.or_eq_true, Bool.and_eq_true, decide_eq_true_eq] at h
    rcases h with h | rfl
    · have hlower : 97 ≤ c.toNat := h.1
      omega
    · exact absurd hdigit (by decide)
  simp [isIntegerWord, unsigned_of_ne hplus hminus, hdigit]

/-- A word of such characters is no integer, and nothing in it ends it. -/
theorem isWordPiece_of_keywordChars {word : List Char}
    (h : (!word.isEmpty && word.all isKeywordChar) = true) :
    IsWordPiece word ∧ writtenKind word = .word := by
  simp only [Bool.and_eq_true, Bool.not_eq_true', List.isEmpty_eq_false_iff,
    List.all_eq_true] at h
  obtain ⟨hne, hchars⟩ := h
  rcases word with _ | ⟨c, rest⟩
  · exact absurd rfl hne
  have hword : isIntegerWord (c :: rest) = false := isIntegerWord_eq_false (hchars c (by simp))
  refine ⟨⟨hne, fun d hd => isPieceChar_of_isKeywordChar (hchars d hd), ?_⟩, ?_⟩
  · simp [tooManyDigits?, hword]
  · simp [writtenKind, writtenInt?, hword]

/-- Every keyword is a word. -/
theorem isWordPiece_of_mem_keywords {word : List Char} (h : word ∈ keywords) :
    IsWordPiece word ∧ writtenKind word = .word := by
  have hchars : keywords.all (fun word => !word.isEmpty && word.all isKeywordChar) = true := by
    decide +kernel
  exact isWordPiece_of_keywordChars (List.all_eq_true.1 hchars word h)

/-! ## Words in a text -/

/-- The end of a text, or white space. -/
def IsGap (text : List Char) : Prop :=
  ∀ c ∈ text.head?, isSeparator c = true

theorem isGap_nil : IsGap [] := by
  intro c hc
  cases hc

theorem lexemesInWord_append {more : List Char} (h : ∀ c ∈ more, isPieceChar c = true)
    (index : Nat) (word rest : List Char) :
    lexemesInWord index word (more ++ rest) = lexemesInWord index (word ++ more) rest := by
  induction more generalizing word with
  | nil => simp
  | cons c more ih =>
    obtain ⟨hrun, hbracket⟩ := isPieceChar_iff.1 (h c (by simp))
    rw [List.cons_append, lexemesInWord_cons hrun hbracket, ih fun d hd => h d (by simp [hd])]
    simp

/-- A row of characters none of which ends a word is one lexeme if white space follows it. -/
theorem lexemesFrom_pieceChars {word rest : List Char} (hne : word ≠ [])
    (hword : ∀ c ∈ word, isPieceChar c = true) (hrest : IsGap rest) (index : Nat) :
    lexemesFrom index (word ++ rest) =
      ⟨writtenKind word, word, index + word.length⟩ ::
        lexemesFrom (index + word.length) rest := by
  rcases word with _ | ⟨c, more⟩
  · exact absurd rfl hne
  obtain ⟨hrun, hbracket⟩ := isPieceChar_iff.1 (hword c (by simp))
  rw [List.cons_append, lexemesFrom_wordChar hrun hbracket,
    lexemesInWord_append fun d hd => hword d (by simp [hd]), List.singleton_append]
  rcases rest with _ | ⟨d, rest⟩
  · rw [lexemesInWord_nil, lexemesFrom_nil]
  · have hd : isRunChar d = false := by simp [isRunChar, hrest d rfl]
    rw [lexemesInWord_stop hd]

/-! ## Strings -/

/-- A text escapes a string: a backslash stands before every quote and backslash of the string, and
may stand before any other character. -/
inductive Escapes : List Char → List Char → Prop where
  /-- The empty text escapes the empty string. -/
  | nil : Escapes [] []
  /-- A character that needs no backslash may have none. -/
  | plain {c : Char} {text s : List Char} (hbackslash : c ≠ '\\') (hquote : c ≠ '"')
      (h : Escapes text s) : Escapes (c :: text) (c :: s)
  /-- Any character may have one. -/
  | escaped (c : Char) {text s : List Char} (h : Escapes text s) :
      Escapes ('\\' :: c :: text) (c :: s)

theorem lexemesInLiteral_append_of_escapes {text s : List Char} (h : Escapes text s)
    (index : Nat) (read rest : List Char) :
    lexemesInLiteral index read (text ++ '"' :: rest) =
      ⟨.string, read ++ s, index + text.length⟩ ::
        lexemesFrom (index + text.length + 1) rest := by
  induction h generalizing index read with
  | nil => simpa using lexemesInLiteral_quote index read rest
  | @plain c text s hbackslash hquote h ih =>
    rw [List.cons_append, lexemesInLiteral_cons hbackslash hquote, ih]
    simp only [List.append_assoc, List.singleton_append, List.length_cons]
    rw [show index + (text.length + 1) = index + 1 + text.length by omega]
  | @escaped c text s h ih =>
    rw [List.cons_append, List.cons_append, lexemesInLiteral_escape, ih]
    simp only [List.append_assoc, List.singleton_append, List.length_cons]
    rw [show index + (text.length + 1 + 1) = index + 2 + text.length by omega]

/-- A text in quotes that escapes a string is one lexeme, whatever follows it. -/
theorem lexemesFrom_quoted {text s : List Char} (h : Escapes text s) (index : Nat)
    (rest : List Char) :
    lexemesFrom index ('"' :: (text ++ ['"']) ++ rest) =
      ⟨.string, s, index + 1 + text.length⟩ ::
        lexemesFrom (index + 1 + text.length + 1) rest := by
  rw [List.cons_append, lexemesFrom_quote, List.append_assoc, List.singleton_append,
    lexemesInLiteral_append_of_escapes h, List.nil_append]

/-- A string with a backslash before every quote and backslash. -/
def escape (s : List Char) : List Char :=
  s.flatMap fun c => if c = '"' || c = '\\' then ['\\', c] else [c]

theorem writeString_eq (s : List Char) : writeString s = '"' :: (escape s ++ ['"']) := rfl

theorem escapes_escape (s : List Char) : Escapes (escape s) s := by
  induction s with
  | nil => exact .nil
  | cons c s ih =>
    by_cases hc : c = '"' ∨ c = '\\'
    · have hescape : escape (c :: s) = '\\' :: c :: escape s := by
        simp [escape, hc]
      rw [hescape]
      exact .escaped c ih
    · have hescape : escape (c :: s) = c :: escape s := by
        simp [escape, hc]
      have hne := not_or.1 hc
      rw [hescape]
      exact .plain hne.2 hne.1 ih

/-! ## Texts -/

/-- A piece of text is how a token of the given kind and text is written. -/
inductive Writes : List Char → Kind × List Char → Prop where
  /-- A word or an integer is written as it is. -/
  | word {word : List Char} (h : IsWordPiece word) : Writes word (writtenKind word, word)
  /-- A string is written in quotes, and escaped. -/
  | quoted {text s : List Char} (h : Escapes text s) :
      Writes ('"' :: (text ++ ['"'])) (.string, s)

theorem Writes.string (s : List Char) : Writes (writeString s) (.string, s) := by
  rw [writeString_eq]
  exact .quoted (escapes_escape s)

theorem Writes.keyword (v : Verb) : Writes v.keyword.toList (.word, v.keyword.toList) := by
  obtain ⟨hpiece, hkind⟩ := isWordPiece_of_mem_keywords v.keyword_mem_keywords
  rw [← hkind]
  exact .word hpiece

theorem Writes.spelling (k : Keyword) : Writes k.spelling.toList (.word, k.spelling.toList) := by
  obtain ⟨hpiece, hkind⟩ := isWordPiece_of_mem_keywords k.spelling_mem_keywords
  rw [← hkind]
  exact .word hpiece

theorem Writes.int {n : Int} (h : isInt32 n = true) : Writes (writeInt n) (.int, writeInt n) := by
  rw [← writtenKind_writeInt h]
  exact .word (isWordPiece_writeInt h)

/-- A text is made of pieces, with white space between any two neighbours. -/
inductive Spaced : List (List Char) → List Char → Prop where
  /-- No pieces make the empty text. -/
  | nil : Spaced [] []
  /-- One piece is a text. -/
  | single (piece : List Char) : Spaced [piece] piece
  /-- A gap comes before the next piece. -/
  | cons {gap next text : List Char} {pieces : List (List Char)} (piece : List Char)
      (hne : gap ≠ []) (hgap : ∀ c ∈ gap, isSeparator c = true)
      (h : Spaced (next :: pieces) text) : Spaced (piece :: next :: pieces) (piece ++ gap ++ text)

/-- Two texts with white space between them are made of the pieces of both. -/
theorem Spaced.append {pieces more : List (List Char)} {text gap rest : List Char}
    (h : Spaced pieces text) (hpieces : pieces ≠ []) (hne : gap ≠ [])
    (hgap : ∀ c ∈ gap, isSeparator c = true) (hrest : Spaced more rest) (hmore : more ≠ []) :
    Spaced (pieces ++ more) (text ++ gap ++ rest) := by
  obtain ⟨next, more, rfl⟩ := List.exists_cons_of_ne_nil hmore
  induction h with
  | nil => exact absurd rfl hpieces
  | single piece => exact .cons piece hne hgap hrest
  | cons piece hne' hgap' _ ih =>
    rw [List.append_assoc, List.append_assoc, ← List.append_assoc _ gap]
    exact .cons piece hne' hgap' (ih (List.cons_ne_nil _ _))

/-- What is written as a piece of text is read from it as one lexeme. -/
theorem lexemesFrom_piece {piece rest : List Char} {reading : Kind × List Char}
    (h : Writes piece reading) (hrest : IsGap rest) (index : Nat) :
    ∃ l stop, lexemesFrom index (piece ++ rest) = l :: lexemesFrom stop rest ∧
      (l.kind, l.text) = reading ∧ (l.kind ≠ .string → tooManyDigits? l.text = none) := by
  cases h with
  | word h =>
    rw [lexemesFrom_pieceChars h.ne_nil h.all_pieceChar hrest]
    exact ⟨_, _, rfl, rfl, fun _ => h.readable⟩
  | quoted h =>
    rw [lexemesFrom_quoted h]
    exact ⟨_, _, rfl, rfl, fun hkind => absurd rfl hkind⟩

/-- The lexemes of a text that is made of pieces are what these pieces were written for. -/
theorem lexemes_of_spaced {pieces : List (List Char)} {text : List Char}
    {readings : List (Kind × List Char)} (h : Spaced pieces text)
    (hwrites : List.Forall₂ Writes pieces readings) (index : Nat) :
    (lexemesFrom index text).map (fun l => (l.kind, l.text)) = readings ∧
      ∀ l ∈ lexemesFrom index text, l.kind ≠ .string → tooManyDigits? l.text = none := by
  induction h generalizing readings index with
  | nil =>
    cases hwrites
    simp
  | single piece =>
    rcases hwrites with _ | ⟨hpiece, hnil⟩
    cases hnil
    obtain ⟨l, stop, hlexemes, hl, hreadable⟩ := lexemesFrom_piece hpiece isGap_nil index
    rw [List.append_nil, lexemesFrom_nil] at hlexemes
    rw [hlexemes]
    exact ⟨by rw [List.map_singleton, hl], by simpa using hreadable⟩
  | @cons gap next text pieces piece hne hgap h ih =>
    rcases hwrites with _ | ⟨hpiece, hothers⟩
    have hstart : IsGap (gap ++ text) := by
      intro c hc
      rw [List.head?_append_of_ne_nil _ hne] at hc
      exact hgap c (List.mem_of_head? hc)
    obtain ⟨l, stop, hlexemes, hl, hreadable⟩ := lexemesFrom_piece hpiece hstart index
    obtain ⟨hreadings, hothers⟩ := ih hothers (stop + gap.length)
    rw [List.append_assoc, hlexemes, lexemesFrom_gap hgap, List.map_cons, hl, hreadings]
    exact ⟨rfl, by simpa using ⟨hreadable, hothers⟩⟩

end LineEditor
