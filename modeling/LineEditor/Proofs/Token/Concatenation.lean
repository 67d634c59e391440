import LineEditor.Proofs.Token.Places
import Mathlib.Data.List.Basic

/-!
# Tokens of two texts in one

White space between two texts keeps their tokens apart: unless the first text ends inside a literal,
the lexemes of both together are those of the first and then those of the second, further on by the
characters that come before it.
-/

namespace LineEditor

/-! ## Texts that end inside a literal -/

/-- Whether a text ends before a literal in it is closed. -/
def endsInLiteral : List Char → Bool
  | [] => false
  | c :: rest =>
    if c = '"' then
      if literalLength rest < rest.length then endsInLiteral (rest.drop (literalLength rest + 1))
      else true
    else endsInLiteral rest
termination_by text => text.length
decreasing_by
  · simp only [List.length_drop, List.length_cons]; omega
  · simp

variable {text back gap : List Char} {index : Nat}

theorem endsInLiteral_quote (h : endsInLiteral ('"' :: text) = false) :
    literalLength text < text.length ∧
      endsInLiteral (text.drop (literalLength text + 1)) = false := by
  rw [endsInLiteral, if_pos rfl] at h
  split at h
  · exact ⟨‹_›, h⟩
  · cases h

theorem endsInLiteral_cons {c : Char} (hquote : c ≠ '"') (text : List Char) :
    endsInLiteral (c :: text) = endsInLiteral text := by
  rw [endsInLiteral, if_neg hquote]

theorem endsInLiteral_dropWhile (text : List Char) :
    endsInLiteral (text.dropWhile isRunChar) = endsInLiteral text := by
  induction text with
  | nil => rfl
  | cons c text ih =>
    by_cases hc : isRunChar c = true
    · rw [List.dropWhile_cons_of_pos hc, ih, endsInLiteral_cons (isRunChar_iff.1 hc).2]
    · rw [List.dropWhile_cons_of_neg hc]

theorem length_run_add (c : Char) (text : List Char) :
    (c :: text.takeWhile isRunChar).length + (text.dropWhile isRunChar).length =
      (c :: text).length := by
  rw [← List.length_append, List.cons_append, List.takeWhile_append_dropWhile]

/-- A text ends inside a literal exactly if one of its strings is completed by its end. -/
theorem endsInLiteral_iff (index : Nat) (text : List Char) :
    endsInLiteral text = true ↔
      ∃ l ∈ lexemesFrom index text, l.kind = .string ∧ l.stop = index + text.length := by
  fun_induction lexemesFrom index text with
  | case1 => simp [endsInLiteral]
  | case2 index text stop ih =>
    rw [endsInLiteral, if_pos rfl]
    split
    · rename_i hclosed
      have hlength : stop + 1 + (text.drop (literalLength text + 1)).length =
          index + ('"' :: text).length := by
        simp only [stop, List.length_drop, List.length_cons]
        omega
      have hstop : stop ≠ index + ('"' :: text).length := by
        simp only [stop, List.length_cons]
        omega
      rw [ih, hlength, List.exists_mem_cons_iff]
      exact (or_iff_right fun hstring => hstop hstring.2).symm
    · have hlength := literalLength_le text
      refine iff_of_true rfl ⟨_, List.mem_cons_self, rfl, ?_⟩
      simp only [stop, List.length_cons]
      omega
  | case3 index c text hquote hseparator ih =>
    rw [endsInLiteral_cons hquote, ih, List.length_cons, Nat.add_assoc, Nat.add_comm 1]
  | case4 index c text hquote hseparator run ih =>
    rw [endsInLiteral_cons hquote, ← endsInLiteral_dropWhile, ih, Nat.add_assoc, length_run_add]
    constructor
    · rintro ⟨l, hl, hstring⟩
      exact ⟨l, List.mem_append_right _ hl, hstring⟩
    · rintro ⟨l, hl, hkind, hstop⟩
      rcases List.mem_append.1 hl with hl | hl
      · exact absurd hkind (kind_ne_string_of_mem_runLexemes hl)
      · exact ⟨l, hl, hkind, hstop⟩

/-- A literal that is closed in a text is not changed by what follows that text. -/
theorem literalLength_append (h : literalLength text < text.length) (back : List Char) :
    literalLength (text ++ back) = literalLength text := by
  fun_induction literalLength text with
  | case1 => cases h
  | case2 => simp at h
  | case3 c rest ih =>
    have hrest : literalLength rest < rest.length := by
      simp only [List.length_cons] at h
      omega
    rw [List.cons_append, List.cons_append, literalLength, ih hrest]
  | case4 rest => simp [literalLength]
  | case5 c rest hnil hcons hquote ih =>
    have hbackslash := ne_backslash hnil hcons
    have hrest : literalLength rest < rest.length := by
      simp only [List.length_cons] at h
      omega
    rw [List.cons_append, literalLength_cons hbackslash hquote, ih hrest]

/-! ## Lexemes of both texts -/

/-- A run ends at white space, whatever comes after it. -/
theorem run_append (hback : ∀ c ∈ back.head?, isRunChar c = false) (text : List Char) :
    (text ++ back).takeWhile isRunChar = text.takeWhile isRunChar ∧
      (text ++ back).dropWhile isRunChar = text.dropWhile isRunChar ++ back := by
  induction text with
  | nil =>
    cases back with
    | nil => simp
    | cons c back =>
      have hc : isRunChar c = false := hback c rfl
      simp [hc]
  | cons c text ih =>
    by_cases hc : isRunChar c = true
    · simpa [hc] using ih
    · simp [hc]

/-- The lexemes of two texts with white space between them. -/
theorem lexemesFrom_append (hclosed : endsInLiteral text = false) (hne : gap ≠ [])
    (hgap : ∀ c ∈ gap, isSeparator c = true) (index : Nat) (back : List Char) :
    lexemesFrom index (text ++ (gap ++ back)) =
      lexemesFrom index text ++ lexemesFrom (index + text.length + gap.length) back := by
  -- The gap is not empty, so a run that ends the first text does not go on in the second one.
  have hstop : ∀ c ∈ (gap ++ back).head?, isRunChar c = false := by
    intro c hc
    rw [List.head?_append_of_ne_nil _ hne] at hc
    simp [isRunChar, hgap c (List.mem_of_head? hc)]
  fun_induction lexemesFrom index text with
  | case1 index => exact lexemesFrom_gap hgap index back
  | case2 index text stop ih =>
    obtain ⟨hlength, hrest⟩ := endsInLiteral_quote hclosed
    have hstops : stop + 1 + (text.drop (literalLength text + 1)).length + gap.length =
        index + ('"' :: text).length + gap.length := by
      simp only [stop, List.length_drop, List.length_cons]
      omega
    rw [List.cons_append, lexemesFrom_quote, lexemesInLiteral, literalLength_append hlength,
      List.take_append_of_le_length (Nat.le_of_lt hlength), List.drop_append_of_le_length hlength,
      ih hrest, hstops]
    rfl
  | case3 index c text hquote hseparator ih =>
    have hrest : endsInLiteral text = false := by rwa [endsInLiteral_cons hquote] at hclosed
    rw [List.cons_append, lexemesFrom_separator hseparator, ih hrest, List.length_cons,
      Nat.add_assoc index 1, Nat.add_comm 1]
  | case4 index c text hquote hseparator run ih =>
    have hc : isRunChar c = true := isRunChar_iff.2 ⟨by simpa using hseparator, hquote⟩
    have hrest : endsInLiteral (text.dropWhile isRunChar) = false := by
      rwa [endsInLiteral_dropWhile, ← endsInLiteral_cons hquote]
    obtain ⟨htake, hdrop⟩ := run_append hstop text
    rw [List.cons_append, lexemesFrom_runChar hc, htake, hdrop, Nat.add_assoc index 1,
      Nat.add_comm 1, ← List.length_cons (a := c), ih hrest, Nat.add_assoc index,
      length_run_add, List.append_assoc]

/-! ## Lexemes further on -/

/-- A lexeme of a text that stands so many characters further on. -/
def Lexeme.further (distance : Nat) (l : Lexeme) : Lexeme :=
  { l with stop := distance + l.stop }

theorem wordLexemes_further (distance index : Nat) (words : List (List Char)) :
    wordLexemes (distance + index) words = (wordLexemes index words).map (.further distance) := by
  induction words generalizing index with
  | nil => rfl
  | cons word words ih =>
    simp only [wordLexemes, List.map_cons, Nat.add_assoc, ih]
    rfl

theorem runLexemes_further (distance index : Nat) (run : List Char) :
    runLexemes (distance + index) run = (runLexemes index run).map (.further distance) := by
  induction run generalizing index with
  | nil => rfl
  | cons c run ih =>
    rw [runLexemes, runLexemes]
    split
    · rw [Nat.add_assoc, ih]
      rfl
    · exact wordLexemes_further distance index _

theorem lexemesFrom_further (distance index : Nat) (text : List Char) :
    lexemesFrom (distance + index) text = (lexemesFrom index text).map (.further distance) := by
  fun_induction lexemesFrom index text with
  | case1 => simp
  | case2 index text stop ih =>
    rw [lexemesFrom_quote, lexemesInLiteral, List.map_cons, ← ih]
    simp only [stop, Lexeme.further, List.nil_append, Nat.add_assoc]
  | case3 index c text _ hseparator ih =>
    rw [lexemesFrom_separator hseparator, Nat.add_assoc, ih]
  | case4 index c text hquote hseparator run ih =>
    have hc : isRunChar c = true := isRunChar_iff.2 ⟨by simpa using hseparator, hquote⟩
    rw [lexemesFrom_runChar hc, List.map_append, ← ih, ← runLexemes_further]
    simp only [run, List.length_cons, Nat.add_assoc, Nat.add_comm 1]

/-! ## Places further on -/

/-- A place in a text if another text comes before it: all lines come after those of that text, and
the first line goes on where that text ends. -/
def Position.behind (front : List Char) (p : Position) : Position where
  line := p.line + front.count '\n'
  column :=
    if p.line = 1 then p.column + (front.reverse.takeWhile (· ≠ '\n')).length else p.column

theorem Position.ofIndex_append_left (h : index ≤ text.length) (back : List Char) :
    Position.ofIndex (text ++ back) index = .ofIndex text index := by
  unfold ofIndex
  rw [List.take_append_of_le_length h]

/-- The last line of a text goes back into the text before it if there is no newline in between. -/
theorem takeWhile_reverse_append (front back : List Char) :
    ((front ++ back).reverse.takeWhile (· ≠ '\n')).length =
      (back.reverse.takeWhile (· ≠ '\n')).length +
        if back.count '\n' = 0 then (front.reverse.takeWhile (· ≠ '\n')).length else 0 := by
  rw [List.reverse_append]
  by_cases hcount : back.count '\n' = 0
  · have hback : ∀ c ∈ back.reverse, decide (c ≠ '\n') = true := by
      intro c hc
      refine decide_eq_true ?_
      rintro rfl
      exact List.count_eq_zero.1 hcount (List.mem_reverse.1 hc)
    rw [if_pos hcount, List.takeWhile_append_of_pos hback, List.takeWhile_eq_self_iff.2 hback,
      List.length_append]
  · have hback : (back.reverse.takeWhile (· ≠ '\n')).length ≠ back.reverse.length := by
      intro hlength
      have hall := List.takeWhile_eq_self_iff.1 ((List.takeWhile_prefix _).eq_of_length hlength)
      refine hcount (List.count_eq_zero.2 fun hmem => ?_)
      exact absurd (hall _ (List.mem_reverse.2 hmem)) (by decide)
    rw [if_neg hcount, List.takeWhile_append, if_neg hback]
    rfl

theorem Position.ofIndex_append_right (front text : List Char) (index : Nat) :
    Position.ofIndex (front ++ text) (front.length + index) =
      (Position.ofIndex text index).behind front := by
  have hlast := takeWhile_reverse_append front (text.take index)
  simp only [ofIndex, behind, List.take_length_add_append, List.count_append, hlast]
  by_cases hcount : (text.take index).count '\n' = 0
  · simp [hcount]
    omega
  · have hline : (1 + ((text.take index).count '\n' : Int)) ≠ 1 := by omega
    simp [hcount]
    omega

/-! ## Tokens of both texts -/

/-- A token that stands elsewhere. -/
def Token.relocate (place : Position → Position) (t : Token) : Token :=
  { t with position := place t.position }

section Both

variable (hclosed : endsInLiteral text = false) (hne : gap ≠ [])
  (hgap : ∀ c ∈ gap, isSeparator c = true)

include hclosed hne hgap

theorem lexemes_append (back : List Char) :
    lexemes (text ++ gap ++ back) =
      lexemes text ++ (lexemes back).map (.further (text ++ gap).length) := by
  have hstart : 0 + text.length + gap.length = (text ++ gap).length + 0 := by simp
  unfold lexemes
  rw [List.append_assoc, lexemesFrom_append hclosed hne hgap, hstart, lexemesFrom_further]

theorem readable_append (htext : Readable text) (hback : Readable back) :
    Readable (text ++ gap ++ back) := by
  intro l hl
  rw [lexemes_append hclosed hne hgap] at hl
  rcases List.mem_append.1 hl with hl | hl
  · exact htext l hl
  · obtain ⟨m, hm, rfl⟩ := List.mem_map.1 hl
    exact hback m hm

/-- The tokens of the first text stay where they are, and those of the second one follow. -/
theorem tokens_append (htext : Readable text) (hback : Readable back) :
    (Lexer.ofSource (text ++ gap ++ back)).tokens =
      (Lexer.ofSource text).tokens ++
        (Lexer.ofSource back).tokens.map (.relocate (.behind (text ++ gap))) := by
  rw [tokens_of_readable (readable_append hclosed hne hgap htext hback), tokens_of_readable htext,
    tokens_of_readable hback, lexemes_append hclosed hne hgap, List.map_append, List.map_map,
    List.map_map]
  congr 1
  · refine List.map_congr_left fun l hl => ?_
    have hstop := (completedIn_of_mem_lexemes hl).stop_le
    rw [List.append_assoc, Lexeme.token, Position.ofIndex_append_left hstop]
    rfl
  · refine List.map_congr_left fun l _ => ?_
    simp only [Function.comp_apply, Lexeme.token, Lexeme.further, Position.ofIndex_append_right]
    rfl

theorem ending_append (htext : Readable text) (hback : Readable back) :
    (Lexer.ofSource (text ++ gap ++ back)).ending =
      .endOfText ((Position.ofIndex back back.length).behind (text ++ gap)) := by
  rw [ending_of_readable (readable_append hclosed hne hgap htext hback), List.length_append,
    Position.ofIndex_append_right]

end Both

end LineEditor
