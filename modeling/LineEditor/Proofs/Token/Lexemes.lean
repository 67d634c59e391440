import LineEditor.Token.Lexeme
import Mathlib.Data.List.TakeWhile

/-!
# Lexemes from the left

The lexemes of a text are said by cutting it into runs and literals. Here they are worked out from
the left: what the first character of a text tells about its lexemes, and how the lexemes of a run
go on after the first characters of a word in it.
-/

namespace LineEditor

/-! ## Characters -/

theorem isRunChar_of_bracket {c : Char} {kind : Kind} (h : bracketKind? c = some kind) :
    isRunChar c = true := by
  unfold bracketKind? at h
  split at h
  · decide
  · decide
  · decide
  · decide
  · exact absurd h (by simp)

theorem isBracket_of_bracketKind? {c : Char} {kind : Kind} (h : bracketKind? c = some kind) :
    isBracket c = true := by
  simp [isBracket, h]

theorem isBracket_eq_false {c : Char} (h : bracketKind? c = none) : isBracket c = false := by
  simp [isBracket, h]

theorem isRunChar_iff {c : Char} : isRunChar c = true ↔ isSeparator c = false ∧ c ≠ '"' := by
  simp [isRunChar]

/-! ## Pieces of a run -/

/-- The pieces that a run is cut into after the first characters of a word in it. -/
def wordPieces (word run : List Char) : List (List Char) :=
  (word ++ run.takeWhile (!isBracket ·)) :: cutAtBrackets (run.dropWhile (!isBracket ·))

@[simp] theorem wordPieces_nil (word : List Char) : wordPieces word [] = [word] := by
  simp [wordPieces, cutAtBrackets]

theorem wordPieces_bracket {c : Char} (h : isBracket c = true) (word run : List Char) :
    wordPieces word (c :: run) = word :: cutAtBrackets (c :: run) := by
  simp [wordPieces, h]

theorem wordPieces_cons {c : Char} (h : isBracket c = false) (word run : List Char) :
    wordPieces word (c :: run) = wordPieces (word ++ [c]) run := by
  simp [wordPieces, h]

/-- The first character of a text that is cut begins a word, also if it is a bracket. -/
theorem cutAtBrackets_cons (c : Char) (run : List Char) :
    cutAtBrackets (c :: run) = wordPieces [c] run := by
  induction run generalizing c with
  | nil => rfl
  | cons d run ih =>
    by_cases hd : isBracket d = true
    · rw [wordPieces_bracket hd, cutAtBrackets, ih]
      simp [wordPieces, hd]
    · have hd : isBracket d = false := by simpa using hd
      rw [wordPieces_cons hd, cutAtBrackets, ih]
      simp [wordPieces, hd]

/-! ## Lexemes of a text by its first character -/

@[simp] theorem lexemesFrom_nil (index : Nat) : lexemesFrom index [] = [] := by
  rw [lexemesFrom]

/-- The lexemes of a literal in which the characters `read` have been read, and of the text after
it. What is still to be read of the literal begins at an index. -/
def lexemesInLiteral (index : Nat) (read text : List Char) : List Lexeme :=
  ⟨.string, read ++ unescape (text.take (literalLength text)), index + literalLength text⟩ ::
    lexemesFrom (index + literalLength text + 1) (text.drop (literalLength text + 1))

/-- The lexemes of a word whose first characters, from an index on, have been read, and of the text
after these. -/
def lexemesInWord (index : Nat) (word text : List Char) : List Lexeme :=
  wordLexemes index (wordPieces word (text.takeWhile isRunChar)) ++
    lexemesFrom (index + word.length + (text.takeWhile isRunChar).length) (text.dropWhile isRunChar)

theorem lexemesFrom_quote (index : Nat) (text : List Char) :
    lexemesFrom index ('"' :: text) = lexemesInLiteral (index + 1) [] text := by
  rw [lexemesFrom, if_pos rfl]
  rfl

theorem lexemesFrom_separator {c : Char} (h : isSeparator c = true) (index : Nat)
    (text : List Char) : lexemesFrom index (c :: text) = lexemesFrom (index + 1) text := by
  have hquote : c ≠ '"' := by
    rintro rfl
    exact absurd h (by decide)
  rw [lexemesFrom, if_neg hquote, if_pos h]

/-- White space has no lexemes. -/
theorem lexemesFrom_gap {gap : List Char} (h : ∀ c ∈ gap, isSeparator c = true) (index : Nat)
    (rest : List Char) :
    lexemesFrom index (gap ++ rest) = lexemesFrom (index + gap.length) rest := by
  induction gap generalizing index with
  | nil => rfl
  | cons c gap ih =>
    rw [List.cons_append, lexemesFrom_separator (h c (by simp)), ih fun d hd => h d (by simp [hd]),
      List.length_cons]
    rw [show index + 1 + gap.length = index + (gap.length + 1) by omega]

theorem lexemesFrom_runChar {c : Char} (h : isRunChar c = true) (index : Nat) (text : List Char) :
    lexemesFrom index (c :: text) =
      runLexemes index (c :: text.takeWhile isRunChar) ++
        lexemesFrom (index + 1 + (text.takeWhile isRunChar).length) (text.dropWhile isRunChar) := by
  obtain ⟨hseparator, hquote⟩ := isRunChar_iff.1 h
  rw [lexemesFrom, if_neg hquote, if_neg (by simp [hseparator])]
  simp only [List.length_cons]
  rw [show index + ((text.takeWhile isRunChar).length + 1) =
    index + 1 + (text.takeWhile isRunChar).length by omega]

/-- The lexemes of any text are those of the run that it begins with, which may be empty, and those
of the rest. -/
theorem lexemesFrom_eq_run (index : Nat) (text : List Char) :
    lexemesFrom index text =
      runLexemes index (text.takeWhile isRunChar) ++
        lexemesFrom (index + (text.takeWhile isRunChar).length) (text.dropWhile isRunChar) := by
  cases text with
  | nil => simp [runLexemes]
  | cons c text =>
    by_cases h : isRunChar c = true
    · rw [lexemesFrom_runChar h, List.takeWhile_cons_of_pos h, List.dropWhile_cons_of_pos h,
        List.length_cons]
      rw [show index + ((text.takeWhile isRunChar).length + 1) =
        index + 1 + (text.takeWhile isRunChar).length by omega]
    · rw [List.takeWhile_cons_of_neg h, List.dropWhile_cons_of_neg h]
      simp [runLexemes]

/-- A bracket that no word precedes is a lexeme. -/
theorem lexemesFrom_bracket {c : Char} {kind : Kind} (h : bracketKind? c = some kind) (index : Nat)
    (text : List Char) :
    lexemesFrom index (c :: text) = ⟨kind, [c], index⟩ :: lexemesFrom (index + 1) text := by
  rw [lexemesFrom_runChar (isRunChar_of_bracket h), lexemesFrom_eq_run (index + 1) text, runLexemes,
    h]
  rfl

theorem lexemesFrom_wordChar {c : Char} (h : isRunChar c = true) (hbracket : bracketKind? c = none)
    (index : Nat) (text : List Char) :
    lexemesFrom index (c :: text) = lexemesInWord index [c] text := by
  rw [lexemesFrom_runChar h, runLexemes, hbracket]
  simp only [cutAtBrackets_cons]
  rfl

/-! ## Lexemes in a word by the next character -/

theorem lexemesInWord_nil (index : Nat) (word : List Char) :
    lexemesInWord index word [] = [⟨writtenKind word, word, index + word.length⟩] := by
  simp [lexemesInWord, wordLexemes]

/-- A bracket ends a word and begins the next one. -/
theorem lexemesInWord_bracket {c : Char} {kind : Kind} (h : bracketKind? c = some kind)
    (index : Nat) (word text : List Char) :
    lexemesInWord index word (c :: text) =
      ⟨writtenKind word, word, index + word.length⟩ ::
        lexemesInWord (index + word.length) [c] text := by
  unfold lexemesInWord
  have hrun := isRunChar_of_bracket h
  rw [List.takeWhile_cons_of_pos hrun, List.dropWhile_cons_of_pos hrun,
    wordPieces_bracket (isBracket_of_bracketKind? h), cutAtBrackets_cons, wordLexemes]
  simp only [List.cons_append, List.length_cons, List.length_nil]
  rw [show index + word.length + ((text.takeWhile isRunChar).length + 1) =
    index + word.length + (0 + 1) + (text.takeWhile isRunChar).length by omega]

/-- A quote or white space ends a word and the run. -/
theorem lexemesInWord_stop {c : Char} (h : isRunChar c = false) (index : Nat)
    (word text : List Char) :
    lexemesInWord index word (c :: text) =
      ⟨writtenKind word, word, index + word.length⟩ ::
        lexemesFrom (index + word.length) (c :: text) := by
  unfold lexemesInWord
  rw [List.takeWhile_cons_of_neg (by simp [h]), List.dropWhile_cons_of_neg (by simp [h])]
  simp [wordLexemes]

theorem lexemesInWord_cons {c : Char} (h : isRunChar c = true) (hbracket : bracketKind? c = none)
    (index : Nat) (word text : List Char) :
    lexemesInWord index word (c :: text) = lexemesInWord index (word ++ [c]) text := by
  unfold lexemesInWord
  rw [List.takeWhile_cons_of_pos h, List.dropWhile_cons_of_pos h,
    wordPieces_cons (isBracket_eq_false hbracket)]
  simp only [List.length_cons, List.length_append, List.length_nil]
  rw [show index + word.length + ((text.takeWhile isRunChar).length + 1) =
    index + (word.length + (0 + 1)) + (text.takeWhile isRunChar).length by omega]

/-! ## Lexemes in a literal by the next character -/

/-- A literal that is never closed ends with the text. -/
theorem lexemesInLiteral_nil (index : Nat) (read : List Char) :
    lexemesInLiteral index read [] = [⟨.string, read, index⟩] := by
  simp [lexemesInLiteral, literalLength, unescape]

/-- A backslash at the end of the text is dropped. -/
theorem lexemesInLiteral_backslash (index : Nat) (read : List Char) :
    lexemesInLiteral index read ['\\'] = [⟨.string, read, index + 1⟩] := by
  simp [lexemesInLiteral, literalLength, unescape]

/-- A backslash makes any character an ordinary one. -/
theorem lexemesInLiteral_escape (index : Nat) (read : List Char) (c : Char) (text : List Char) :
    lexemesInLiteral index read ('\\' :: c :: text) =
      lexemesInLiteral (index + 2) (read ++ [c]) text := by
  simp only [lexemesInLiteral, literalLength, List.take_succ_cons, List.drop_succ_cons, unescape,
    List.append_assoc, List.singleton_append]
  rw [show index + (literalLength text + 2) = index + 2 + literalLength text by omega]

theorem lexemesInLiteral_quote (index : Nat) (read text : List Char) :
    lexemesInLiteral index read ('"' :: text) =
      ⟨.string, read, index⟩ :: lexemesFrom (index + 1) text := by
  simp [lexemesInLiteral, literalLength, unescape]

/-- A character that `literalLength` counts by itself is no backslash. -/
theorem ne_backslash {c : Char} {rest : List Char} (hnil : c = '\\' → rest = [] → False)
    (hcons : ∀ d more, c = '\\' → rest = d :: more → False) : c ≠ '\\' := by
  rintro rfl
  cases rest with
  | nil => exact hnil rfl rfl
  | cons d more => exact hcons d more rfl rfl

theorem literalLength_cons {c : Char} (hbackslash : c ≠ '\\') (hquote : c ≠ '"')
    (text : List Char) : literalLength (c :: text) = literalLength text + 1 := by
  rw [literalLength, if_neg hquote]
  · rintro rfl
    exact absurd rfl hbackslash
  · rintro d rest rfl
    exact absurd rfl hbackslash

theorem lexemesInLiteral_cons {c : Char} (hbackslash : c ≠ '\\') (hquote : c ≠ '"') (index : Nat)
    (read text : List Char) :
    lexemesInLiteral index read (c :: text) =
      lexemesInLiteral (index + 1) (read ++ [c]) text := by
  have hlength := literalLength_cons hbackslash hquote text
  have hunescape : ∀ s, unescape (c :: s) = c :: unescape s := by
    intro s
    rw [unescape]
    · rintro rfl
      exact absurd rfl hbackslash
    · rintro d rest rfl
      exact absurd rfl hbackslash
  simp only [lexemesInLiteral, hlength, List.take_succ_cons, List.drop_succ_cons, hunescape,
    List.append_assoc, List.singleton_append]
  rw [show index + (literalLength text + 1) = index + 1 + literalLength text by omega]

/-! ## Kinds of lexemes -/

theorem bracketKind?_ne_int (c : Char) : bracketKind? c ≠ some .int := by
  unfold bracketKind?
  split
  · decide
  · decide
  · decide
  · decide
  · decide

theorem bracketKind?_ne_string (c : Char) : bracketKind? c ≠ some .string := by
  unfold bracketKind?
  split
  · decide
  · decide
  · decide
  · decide
  · decide

theorem writtenKind_ne_string (word : List Char) : writtenKind word ≠ .string := by
  unfold writtenKind
  split
  · decide
  · decide

theorem kind_of_mem_wordLexemes {index : Nat} {words : List (List Char)} {l : Lexeme}
    (h : l ∈ wordLexemes index words) : l.kind = writtenKind l.text := by
  induction words generalizing index with
  | nil => cases h
  | cons word words ih =>
    rcases List.mem_cons.1 h with rfl | h
    · rfl
    · exact ih h

/-- A run has no strings. -/
theorem kind_ne_string_of_mem_runLexemes {index : Nat} {run : List Char} {l : Lexeme}
    (h : l ∈ runLexemes index run) : l.kind ≠ .string := by
  induction run generalizing index with
  | nil => cases h
  | cons c run ih =>
    rw [runLexemes] at h
    split at h
    · rename_i kind hbracket
      rcases List.mem_cons.1 h with rfl | h
      · rintro (rfl : kind = .string)
        exact bracketKind?_ne_string c hbracket
      · exact ih h
    · rw [kind_of_mem_wordLexemes h]
      exact writtenKind_ne_string l.text

theorem writtenKind_of_mem_runLexemes {index : Nat} {run : List Char} {l : Lexeme}
    (h : l ∈ runLexemes index run) (hkind : l.kind = .int) : writtenKind l.text = .int := by
  induction run generalizing index with
  | nil => cases h
  | cons c run ih =>
    rw [runLexemes] at h
    split at h
    · rename_i kind hbracket
      rcases List.mem_cons.1 h with rfl | h
      · rw [show kind = .int from hkind] at hbracket
        exact absurd hbracket (bracketKind?_ne_int c)
      · exact ih h
    · rw [← kind_of_mem_wordLexemes h, hkind]

/-- A lexeme that is an integer is written as one of at most 32 bits. -/
theorem writtenKind_of_mem_lexemesFrom {index : Nat} {text : List Char} {l : Lexeme}
    (h : l ∈ lexemesFrom index text) (hkind : l.kind = .int) : writtenKind l.text = .int := by
  fun_induction lexemesFrom index text with
  | case1 => cases h
  | case2 index rest _ ih =>
    rcases List.mem_cons.1 h with rfl | h
    · cases hkind
    · exact ih h
  | case3 index c rest _ _ ih => exact ih h
  | case4 index c rest _ _ _ ih =>
    rcases List.mem_append.1 h with h | h
    · exact writtenKind_of_mem_runLexemes h hkind
    · exact ih h

end LineEditor
