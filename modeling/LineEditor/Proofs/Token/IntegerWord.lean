import LineEditor.Token.Lexeme
import Mathlib.Data.List.TakeWhile

/-!
# Words that are integers

A word that is an optional sign and digits of ASCII is read as the integer that it is written as,
unless it has more digits than the limit. So the kind of a word can be told from how it is written.
-/

namespace LineEditor

open Text (digitLimit)

/-! ## Rows of digits -/

theorem toNat_of_isDigit {c : Char} (h : c.isDigit = true) : 48 ≤ c.toNat ∧ c.toNat ≤ 57 := by
  simp only [Char.isDigit, Bool.and_eq_true, decide_eq_true_eq] at h
  exact ⟨h.1, h.2⟩

theorem digitValue?_of_isDigit {c : Char} (h : c.isDigit = true) :
    Text.digitValue? c = some (c.toNat - '0'.toNat) := by
  obtain ⟨hlo, hhi⟩ := toNat_of_isDigit h
  have hfind : Text.decimalZeros.find? (fun first => first ≤ c.toNat && c.toNat < first + 10) =
      some 48 := by
    rw [Text.decimalZeros, List.find?_cons_of_pos]
    simp
    omega
  unfold Text.digitValue?
  rw [hfind]
  rfl

theorem ne_underscore_of_isDigit {c : Char} (h : c.isDigit = true) : c ≠ '_' := by
  rintro rfl
  exact absurd h (by decide)

/-- Digits of ASCII are a row of digits. -/
theorem digitRow?_of_digits {digits : List Char} (hne : digits ≠ [])
    (h : ∀ c ∈ digits, c.isDigit = true) :
    Text.digitRow? digits = some (digits.map fun c => c.toNat - '0'.toNat) := by
  fun_induction Text.digitRow? digits with
  | case1 => exact absurd rfl hne
  | case2 c => rw [digitValue?_of_isDigit (h c (by simp))]; rfl
  | case3 c rest ih => exact absurd rfl (ne_underscore_of_isDigit (h '_' (by simp)))
  | case4 c rest hrest _ ih =>
    rw [digitValue?_of_isDigit (h c (by simp)),
      ih (fun hnil => hrest hnil) fun d hd => h d (by simp [hd])]
    rfl

theorem isRowChar_of_isDigit {c : Char} (h : c.isDigit = true) : Text.isRowChar c = true := by
  simp [Text.isRowChar, digitValue?_of_isDigit h]

/-- An unsigned row of digits stands for the number that the digits are. -/
theorem readNat_of_digits {digits : List Char} (hne : digits ≠ [])
    (h : ∀ c ∈ digits, c.isDigit = true) :
    Text.readNat digits =
      if digitLimit < digits.length then .error (.tooLong digits.length)
      else .ok (digitsValue digits) := by
  have hrow : ∀ c ∈ digits, Text.isRowChar c = true := fun c hc => isRowChar_of_isDigit (h c hc)
  unfold Text.readNat
  rw [List.takeWhile_eq_self_iff.2 hrow, digitRow?_of_digits hne h,
    List.dropWhile_eq_nil_iff.2 hrow]
  simp only [List.length_map, List.all_nil, if_true, gt_iff_lt]
  have hvalue : Text.ofDigits (digits.map fun c => c.toNat - '0'.toNat) = digitsValue digits := by
    unfold Text.ofDigits digitsValue
    rw [List.foldl_map]
  rw [hvalue]

/-! ## Words -/

theorem isPadding_eq_false {c : Char} (h : c.isDigit = true ∨ c = '+' ∨ c = '-') :
    Text.isPadding c = false := by
  rcases h with h | rfl | rfl
  · obtain ⟨hlo, hhi⟩ := toNat_of_isDigit h
    simp [Text.isPadding, Text.isBlank, Text.blankRanges, Char.within]
    omega
  · decide
  · decide

theorem digits_of_isIntegerWord {word : List Char} (h : isIntegerWord word = true) :
    unsigned word ≠ [] ∧ ∀ c ∈ unsigned word, c.isDigit = true := by
  simpa [isIntegerWord] using h

/-- A word that begins with no sign is unsigned as it is. -/
theorem unsigned_of_ne {c : Char} {rest : List Char} (hplus : c ≠ '+') (hminus : c ≠ '-') :
    unsigned (c :: rest) = c :: rest := by
  unfold unsigned
  split
  · rename_i heq
    exact absurd (List.cons.inj heq).1 hplus
  · rename_i heq
    exact absurd (List.cons.inj heq).1 hminus
  · rfl

/-- Nothing is trimmed off a word that begins with a digit or a sign. -/
theorem dropWhile_isPadding {c : Char} {rest : List Char}
    (h : c.isDigit = true ∨ c = '+' ∨ c = '-') :
    (c :: rest).dropWhile Text.isPadding = c :: rest := by
  rw [List.dropWhile_cons, isPadding_eq_false h]
  simp

/-- A word that is an integer is read as the integer that it is written as, unless it has more
digits than the limit. -/
theorem readInt_of_isIntegerWord {word : List Char} (h : isIntegerWord word = true) :
    ∃ n, writtenInt? word = some n ∧
      Text.readInt word =
        if digitLimit < (unsigned word).length then .error (.tooLong (unsigned word).length)
        else .ok n := by
  obtain ⟨hne, hdigits⟩ := digits_of_isIntegerWord h
  refine ⟨_, by rw [writtenInt?, if_pos h], ?_⟩
  have hread := readNat_of_digits hne hdigits
  cases word with
  | nil => exact absurd rfl hne
  | cons c rest =>
    by_cases hplus : c = '+'
    · subst hplus
      simp only [unsigned] at hread ⊢
      rw [Text.readInt, dropWhile_isPadding (by simp)]
      simp only [hread]
      split <;> rfl
    · by_cases hminus : c = '-'
      · subst hminus
        simp only [unsigned] at hread ⊢
        rw [Text.readInt, dropWhile_isPadding (by simp)]
        simp only [hread]
        split <;> rfl
      · rw [unsigned_of_ne hplus hminus] at hread hdigits ⊢
        rw [Text.readInt, dropWhile_isPadding (Or.inl (hdigits c (by simp)))]
        split
        · rename_i heq
          exact absurd (List.cons.inj heq).1 hminus
        · rename_i heq
          exact absurd (List.cons.inj heq).1 hplus
        · rw [hread]
          simp only [List.head?_cons, Option.some.injEq, hminus, if_false]
          split <;> rfl

/-! ## Kinds of words -/

/-- How many digits a word has, if it is an integer of more digits than are read. -/
def tooManyDigits? (word : List Char) : Option Nat :=
  let count := (unsigned word).length
  if isIntegerWord word && digitLimit < count then some count else none

/-- The kind of a word that is read is the kind that it is written as. -/
theorem wordKind_eq (word : List Char) :
    wordKind word =
      match tooManyDigits? word with
      | some digits => .error digits
      | none => .ok (writtenKind word) := by
  unfold wordKind tooManyDigits?
  by_cases h : isIntegerWord word = true
  · obtain ⟨n, hwritten, hread⟩ := readInt_of_isIntegerWord h
    rw [if_pos h, hread]
    by_cases hlimit : digitLimit < (unsigned word).length
    · simp [h, hlimit]
    · simp [h, hlimit, writtenKind, hwritten]
  · have hwritten : writtenInt? word = none := by rw [writtenInt?, if_neg h]
    simp [h, writtenKind, hwritten]

/-- A word that is an integer of at most 32 bits is read as one. -/
theorem isInt32_of_writtenKind {word : List Char} {n : Int} (h : writtenKind word = .int)
    (hread : Text.readInt word = .ok n) : isInt32 n = true := by
  unfold writtenKind at h
  split at h
  · rename_i hint
    have hword : isIntegerWord word = true := by
      by_contra hword
      rw [writtenInt?, if_neg hword] at hint
      exact absurd hint (by decide)
    obtain ⟨m, hwritten, hvalue⟩ := readInt_of_isIntegerWord hword
    rw [hwritten] at hint
    rw [hread] at hvalue
    split at hvalue
    · cases hvalue
    · cases hvalue
      exact hint
  · cases h

end LineEditor
