import LineEditor.Line.Word

/-!
# Where the boundaries of words are

Looking behind from a cursor on the line comes to a place from the start of the line up to the
cursor, looking ahead to one from the cursor up to the end. The spans of the words lie within the
line, each has at least one character, and between two of them stands at least one separator.
-/

namespace LineEditor

/-! ## Scanning a text -/

/-- The last word begins with a character of the text. -/
theorem lastWordStart?_lt {backwards : List Char} {n : Nat}
    (h : lastWordStart? backwards = some n) : n < backwards.length := by
  unfold lastWordStart? at h
  have hlen := (List.dropWhile_suffix isWordSeparator (l := backwards)).length_le
  cases hw : backwards.dropWhile isWordSeparator with
  | nil => simp only [hw] at h; exact absurd h (by simp)
  | cons c word =>
    have hc : isWordChar c = true := by
      have hhead := List.head?_dropWhile_not isWordSeparator backwards
      rw [hw] at hhead
      simpa [isWordChar] using hhead
    have hrest := (List.dropWhile_suffix isWordChar (l := word)).length_le
    simp only [hw, List.dropWhile_cons, hc, if_true, Option.some.injEq] at h
    rw [hw, List.length_cons] at hlen
    omega

/-- The first word ends within the text. -/
theorem firstWordEnd?_le {text : List Char} {n : Nat} (h : firstWordEnd? text = some n) :
    n ≤ text.length := by
  unfold firstWordEnd? at h
  split at h
  · exact absurd h (by simp)
  · have := Option.some.inj h
    omega

/-! ## Spans of words -/

/-- The spans begin where the word begins that is not yet finished, if there is one, have at least
one character each, and end within the text. -/
theorem bounds_of_mem_wordSpansFrom {text : List Char} {s : Span} :
    ∀ {index : Nat} {opened : Option Nat}, (∀ start ∈ opened, start < index) →
      s ∈ wordSpansFrom index opened text →
      (opened.getD index : Nat) ≤ s.start ∧ s.start < s.stop ∧ s.stop ≤ index + text.length := by
  induction text with
  | nil =>
    intro index opened hopened hs
    cases opened with
    | none => simp [wordSpansFrom] at hs
    | some start =>
      have hlt : start < index := hopened start rfl
      simp only [wordSpansFrom, List.mem_singleton] at hs
      subst hs
      simp only [Option.getD_some, List.length_nil]
      omega
  | cons c text ih =>
    intro index opened hopened hs
    rw [List.length_cons]
    by_cases hc : isWordChar c = true
    · simp only [wordSpansFrom, hc, if_true] at hs
      have hlt : opened.getD index < index + 1 := by
        cases opened with
        | none => simp
        | some start => have := hopened start rfl; simp; omega
      have hbounds := ih (by simpa using hlt) hs
      rw [Option.getD_some] at hbounds
      refine ⟨hbounds.1, hbounds.2.1, ?_⟩
      have := hbounds.2.2
      omega
    · simp only [wordSpansFrom, hc, Bool.false_eq_true, if_false] at hs
      cases opened with
      | none =>
        have hbounds := ih (by simp) hs
        simp only [Option.getD_none] at hbounds ⊢
        omega
      | some start =>
        have hlt : start < index := hopened start rfl
        rcases List.mem_cons.1 hs with rfl | hs
        · simp only [Option.getD_some]
          omega
        · have hbounds := ih (by simp) hs
          simp only [Option.getD_none, Option.getD_some] at hbounds ⊢
          omega

/-- The spans come in order, with a separator between two of them. -/
theorem pairwise_wordSpansFrom {text : List Char} :
    ∀ {index : Nat} {opened : Option Nat}, (∀ start ∈ opened, start < index) →
      (wordSpansFrom index opened text).Pairwise fun a b => a.stop < b.start := by
  induction text with
  | nil =>
    intro index opened _
    cases opened <;> simp [wordSpansFrom]
  | cons c text ih =>
    intro index opened hopened
    by_cases hc : isWordChar c = true
    · simp only [wordSpansFrom, hc, if_true]
      apply ih
      intro start hstart
      cases opened with
      | none => simp at hstart; omega
      | some first => have := hopened first rfl; simp at hstart; omega
    · simp only [wordSpansFrom, hc, Bool.false_eq_true, if_false]
      cases opened with
      | none => exact ih (by simp)
      | some start =>
        refine List.pairwise_cons.2 ⟨?_, ih (by simp)⟩
        intro s hs
        have hbounds := bounds_of_mem_wordSpansFrom (by simp) hs
        simp only [Option.getD_none] at hbounds
        simp
        omega

namespace Line

variable {line : Line}

/-! ## Looking behind and ahead -/

theorem length_behind_le (h : 0 ≤ line.cursor) : (line.behind.length : Int) ≤ line.cursor + 1 := by
  unfold behind
  rw [List.length_reverse, List.length_take]
  omega

theorem length_ahead (h0 : 0 ≤ line.cursor) (h : line.cursor ≤ line.length) :
    (line.ahead.length : Int) = line.length - line.cursor := by
  unfold ahead
  rw [if_neg (by omega), List.length_drop]
  unfold length at h ⊢
  omega

/-- The start of the last of some words behind the cursor is not past the cursor. -/
theorem startBehind_bounds {words : List Char} (h : 0 ≤ line.cursor)
    (hwords : (words.length : Int) ≤ line.cursor + 1) :
    0 ≤ line.startBehind words ∧ line.startBehind words ≤ line.cursor := by
  unfold startBehind
  rw [if_neg (by omega)]
  cases hstart : lastWordStart? words with
  | none => simp; omega
  | some n =>
    have := lastWordStart?_lt hstart
    simp only [Option.getD_some]
    omega

theorem wordStart_bounds (h : 0 ≤ line.cursor) :
    0 ≤ line.wordStart ∧ line.wordStart ≤ line.cursor :=
  startBehind_bounds h (length_behind_le h)

theorem previousWordStart_bounds (h : 0 ≤ line.cursor) :
    0 ≤ line.previousWordStart ∧ line.previousWordStart ≤ line.cursor := by
  have hlen := length_behind_le h
  refine startBehind_bounds h ?_
  split
  · have := (List.dropWhile_suffix isWordChar (l := line.behind)).length_le
    omega
  · exact hlen

theorem wordEnd_bounds (h0 : 0 ≤ line.cursor) (h : line.cursor ≤ line.length) :
    line.cursor ≤ line.wordEnd ∧ line.wordEnd ≤ line.length := by
  have hlen := length_ahead h0 h
  unfold wordEnd
  cases hend : firstWordEnd? line.ahead with
  | none => simp only; omega
  | some n =>
    have := firstWordEnd?_le hend
    simp only
    omega

theorem forwardWordTarget_bounds (h0 : 0 ≤ line.cursor) (h : line.cursor ≤ line.length) :
    line.cursor ≤ line.forwardWordTarget ∧ line.forwardWordTarget ≤ line.length := by
  have hlen := length_ahead h0 h
  unfold forwardWordTarget
  cases hend : firstWordEnd? line.ahead with
  | none => simp only [Option.getD_none]; omega
  | some n =>
    have := firstWordEnd?_le hend
    simp only [Option.getD_some]
    omega

theorem backWordTarget_bounds (h : 0 ≤ line.cursor) :
    0 ≤ line.backWordTarget ∧ line.backWordTarget ≤ line.cursor := by
  have hlen := length_behind_le h
  unfold backWordTarget
  cases hstart : lastWordStart? line.behind with
  | none => simp only; omega
  | some n =>
    have := lastWordStart?_lt hstart
    simp only
    omega

/-! ## The words of a line -/

theorem bounds_of_mem_wordSpans {s : Span} (h : s ∈ line.wordSpans) :
    0 ≤ s.start ∧ s.start < s.stop ∧ s.stop ≤ line.length := by
  have hbounds := bounds_of_mem_wordSpansFrom (by simp) h
  simpa [length] using hbounds

theorem pairwise_wordSpans (line : Line) : line.wordSpans.Pairwise fun a b => a.stop < b.start :=
  pairwise_wordSpansFrom (by simp)

end Line

end LineEditor
