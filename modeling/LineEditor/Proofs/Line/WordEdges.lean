import LineEditor.Proofs.Line.CaseMapped
import LineEditor.Proofs.Line.WordScans

/-!
# The edges of words

A word begins at a place if a character of a word stands there and none right before it, and
likewise for its end. A scan that looks for the boundary of a word comes to the nearest such place
in its direction. Setting the case of a part of a text that reaches from one edge to another leaves
both edges where they are in the rest of the text.
-/

namespace LineEditor

variable {settled : Char → Prop} {text front piece new back : List Char} {line : Line} {c : Char}
  {p : Int}

/-- A word begins at a place. -/
def WordStartAt (text : List Char) (p : Int) : Prop :=
  IsWordAt text p ∧ ¬ IsWordAt text (p - 1)

/-- A word ends at a place. -/
def WordStopAt (text : List Char) (p : Int) : Prop :=
  IsWordAt text (p - 1) ∧ ¬ IsWordAt text p

theorem exists_of_wordStartAt (h : WordStartAt line.text p) :
    ∃ s ∈ line.wordSpans, s.start = p := by
  obtain ⟨s, hs, hle, hlt⟩ := exists_word_of_isWordAt h.1
  refine ⟨s, hs, ?_⟩
  by_contra hne
  exact h.2 ((mem_wordSpans_iff.1 hs).inside (p - 1) (by omega) (by omega))

theorem exists_of_wordStopAt (h : WordStopAt line.text p) :
    ∃ s ∈ line.wordSpans, s.stop = p := by
  obtain ⟨s, hs, hle, hlt⟩ := exists_word_of_isWordAt h.1
  refine ⟨s, hs, ?_⟩
  by_contra hne
  exact h.2 ((mem_wordSpans_iff.1 hs).inside p (by omega) (by omega))

/-! ## The scans -/

namespace Line

/-- Looking behind comes to the last place where a word begins, or to the start of the line. -/
theorem wordStart_cases (h0 : 0 ≤ line.cursor) :
    (WordStartAt line.text line.wordStart ∧ line.wordStart ≤ line.cursor ∧
        ∀ p, WordStartAt line.text p → p ≤ line.cursor → p ≤ line.wordStart) ∨
      line.wordStart = 0 ∧ ∀ p, WordStartAt line.text p → line.cursor < p := by
  have heq := wordStart_eq h0
  cases hbegun : line.wordBegun? line.cursor with
  | none =>
    rw [hbegun] at heq
    refine Or.inr ⟨heq, fun p hp => ?_⟩
    obtain ⟨s, hs, rfl⟩ := exists_of_wordStartAt hp
    have hnone := List.filter_eq_nil_iff.1 (List.getLast?_eq_none_iff.1 hbegun) s hs
    rw [decide_eq_true_eq] at hnone
    exact Int.not_le.1 hnone
  | some s =>
    have hstart : line.wordStart = s.start := by rw [heq, hbegun, Option.map_some, Option.getD_some]
    obtain ⟨hle, before, after, hsplit, hbefore, hafter⟩ := split_of_wordBegun? hbegun
    have hs : IsWord line.text s := mem_wordSpans_iff.1 (by simp [hsplit])
    rw [hstart]
    refine Or.inl ⟨⟨hs.inside _ (Int.le_refl _) hs.start_lt_stop, hs.before⟩, hle,
      fun p hp hple => ?_⟩
    obtain ⟨t, ht, rfl⟩ := exists_of_wordStartAt hp
    have hlt := (mem_wordSpans_iff.1 ht).start_lt_stop
    rw [hsplit, List.mem_append, List.mem_cons] at ht
    rcases ht with ht | rfl | ht
    · have hgap := hbefore t ht
      omega
    · exact Int.le_refl _
    · exact absurd (hafter t ht) (Int.not_lt.2 hple)

/-- Looking ahead comes to the first place past the cursor where a word ends, or to the end of the
line. -/
theorem wordEnd_cases (h0 : 0 ≤ line.cursor) (h : line.cursor ≤ line.length) :
    (WordStopAt line.text line.wordEnd ∧ line.cursor < line.wordEnd ∧
        ∀ p, WordStopAt line.text p → line.cursor < p → line.wordEnd ≤ p) ∨
      line.wordEnd = line.length ∧ ∀ p, WordStopAt line.text p → p ≤ line.cursor := by
  have heq := wordEnd_eq h0 h
  cases hpast : line.wordPast? line.cursor with
  | none =>
    rw [hpast] at heq
    refine Or.inr ⟨heq, fun p hp => ?_⟩
    obtain ⟨s, hs, rfl⟩ := exists_of_wordStopAt hp
    have hnone := List.find?_eq_none.1 hpast s hs
    rw [decide_eq_true_eq] at hnone
    exact Int.not_lt.1 hnone
  | some s =>
    have hstop : line.wordEnd = s.stop := by rw [heq, hpast, Option.map_some, Option.getD_some]
    obtain ⟨hlt, before, after, hsplit, hbefore⟩ := List.find?_eq_some_iff_append.1 hpast
    have hs : IsWord line.text s := mem_wordSpans_iff.1 (by simp [hsplit])
    have hstart := hs.start_lt_stop
    have hafter := line.pairwise_wordSpans
    rw [hsplit, List.pairwise_append, List.pairwise_cons] at hafter
    rw [hstop]
    refine Or.inl ⟨⟨hs.inside _ (by omega) (by omega), hs.after⟩, of_decide_eq_true hlt,
      fun p hp hpast => ?_⟩
    obtain ⟨t, ht, rfl⟩ := exists_of_wordStopAt hp
    have hstart' := (mem_wordSpans_iff.1 ht).start_lt_stop
    rw [hsplit, List.mem_append, List.mem_cons] at ht
    rcases ht with ht | rfl | ht
    · have hnot := hbefore t ht
      rw [Bool.not_eq_true', decide_eq_false_iff_not] at hnot
      exact absurd hpast hnot
    · exact Int.le_refl _
    · have hgap := hafter.2.1.1 t ht
      omega

end Line

/-! ## Edges of a text in pieces -/

namespace CaseMapped

/-- Where a piece begins, a word begins after setting its case if one did before. -/
theorem wordStartAt_iff (h : CaseMapped settled piece new) (front back : List Char) :
    WordStartAt (front ++ (new ++ back)) front.length ↔
      WordStartAt (front ++ (piece ++ back)) front.length := by
  rw [WordStartAt, WordStartAt, isWordAt_length_iff, isWordAt_length_iff, isWordAt_pred_length_iff,
    isWordAt_pred_length_iff, h.any_head? back]

/-- And the same where it ends. -/
theorem wordStopAt_iff (h : CaseMapped settled piece new) (front back : List Char) :
    WordStopAt ((front ++ new) ++ back) (front ++ new).length ↔
      WordStopAt ((front ++ piece) ++ back) (front ++ piece).length := by
  rw [WordStopAt, WordStopAt, isWordAt_length_iff, isWordAt_length_iff, isWordAt_pred_length_iff,
    isWordAt_pred_length_iff, h.any_getLast? rfl]

end CaseMapped

/-! ## One character that becomes several -/

theorem isWordAt_append_iff (hp : front.length ≤ p) (back : List Char) :
    IsWordAt (front ++ back) p ↔ IsWordAt back (p - front.length) := by
  have hplace : (p - front.length).toNat = p.toNat - front.length := by omega
  rw [IsWordAt, IsWordAt, hplace, List.getElem?_append_right (by omega)]
  exact and_congr_left fun _ => by omega

/-- All the characters that one character has become count as that one. -/
theorem isWordAt_expanded_iff (hnew : ∀ d ∈ new, isWordChar d = isWordChar c)
    (hp : front.length ≤ p) (back : List Char) :
    IsWordAt (front ++ (new ++ back)) p ↔
      IsWordAt (front ++ c :: back) (max front.length (p - new.length + 1)) := by
  by_cases hin : p < front.length + new.length
  · obtain ⟨d, hd, hget⟩ := exists_mem_piece (Eq.refl (front ++ (new ++ back))) hp hin
    rw [Int.max_eq_left (by omega), isWordAt_length_iff, IsWordAt, hget]
    simp [hnew d hd, Int.le_trans (Int.natCast_nonneg _) hp]
  · have hlength : (front ++ new).length = front.length + new.length := List.length_append
    have hlength' : (front ++ [c]).length = front.length + 1 := List.length_append
    have hplace : p - new.length + 1 - (front ++ [c]).length = p - (front ++ new).length := by omega
    rw [Int.max_eq_right (by omega), ← List.append_assoc, isWordAt_append_iff (by omega),
      ← List.singleton_append, ← List.append_assoc, isWordAt_append_iff (by omega), hplace]

/-- A word that begins behind them began so much further left. -/
theorem wordStartAt_of_expanded (hnew : ∀ d ∈ new, isWordChar d = isWordChar c)
    (hstart : WordStartAt (front ++ (new ++ back)) p) (hp : front.length < p) :
    front.length < p - new.length + 1 ∧ WordStartAt (front ++ c :: back) (p - new.length + 1) := by
  obtain ⟨hat, hbefore⟩ := hstart
  rw [isWordAt_expanded_iff hnew (by omega)] at hat hbefore
  by_cases hlt : front.length < p - new.length + 1
  · have hplace : max (front.length : Int) (p - 1 - new.length + 1) = p - new.length + 1 - 1 := by
      omega
    rw [Int.max_eq_right (by omega)] at hat
    rw [hplace] at hbefore
    exact ⟨hlt, hat, hbefore⟩
  · -- Both places would be that of the one character.
    rw [Int.max_eq_left (by omega)] at hat hbefore
    exact absurd hat hbefore

end LineEditor
