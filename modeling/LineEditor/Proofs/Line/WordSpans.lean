import LineEditor.Proofs.Line.WordBounds
import LineEditor.Proofs.Token.Position
import Mathlib.Data.List.Basic

/-!
# The words of a line

A word is a longest run of characters that are not separators: a separator stands on either side of
it, or an end of the text. The spans of a line are its words, and each character of a word is in one
of them.
-/

namespace LineEditor

/-- A character of a word stands at a place of a text. -/
def IsWordAt (text : List Char) (place : Int) : Prop :=
  0 ≤ place ∧ ∃ c, text[place.toNat]? = some c ∧ isWordChar c = true

/-- A span is a word of a text: it has characters, all of them are characters of a word, and it
cannot be made longer on either side. -/
structure IsWord (text : List Char) (s : Span) : Prop where
  start_lt_stop : s.start < s.stop
  inside : ∀ p, s.start ≤ p → p < s.stop → IsWordAt text p
  before : ¬ IsWordAt text (s.start - 1)
  after : ¬ IsWordAt text s.stop

variable {text front piece back : List Char} {s t : Span} {p q : Int}

/-! ## Places of a text -/

theorem IsWordAt.bounds (h : IsWordAt text p) : 0 ≤ p ∧ p < text.length := by
  obtain ⟨h0, c, hc, -⟩ := h
  obtain ⟨hlt, -⟩ := List.getElem?_eq_some_iff.1 hc
  exact ⟨h0, by omega⟩

/-- At a place in a piece of a text stands a character of the piece. -/
theorem exists_mem_piece (htext : text = front ++ (piece ++ back)) (h : front.length ≤ p)
    (hlt : p < front.length + piece.length) : ∃ c ∈ piece, text[p.toNat]? = some c := by
  have hin : p.toNat - front.length < piece.length := by omega
  refine ⟨piece[p.toNat - front.length], List.getElem_mem hin, ?_⟩
  rw [htext, List.getElem?_append_right (by omega), List.getElem?_append_left hin,
    List.getElem?_eq_getElem hin]

theorem isWordAt_of_piece (htext : text = front ++ (piece ++ back))
    (hpiece : ∀ c ∈ piece, isWordChar c = true) (h : front.length ≤ p)
    (hlt : p < front.length + piece.length) : IsWordAt text p := by
  obtain ⟨c, hc, hget⟩ := exists_mem_piece htext h hlt
  exact ⟨by omega, c, hget, hpiece c hc⟩

theorem not_isWordAt_of_piece (htext : text = front ++ (piece ++ back))
    (hpiece : ∀ c ∈ piece, isWordChar c = false) (h : front.length ≤ p)
    (hlt : p < front.length + piece.length) : ¬ IsWordAt text p := by
  rintro ⟨-, d, hd, hword⟩
  obtain ⟨c, hc, hget⟩ := exists_mem_piece htext h hlt
  obtain rfl : c = d := Option.some.inj (hget.symm.trans hd)
  rw [hpiece c hc] at hword
  cases hword

/-! ### Where a text is cut -/

theorem isWordAt_length_iff (front back : List Char) :
    IsWordAt (front ++ back) front.length ↔ back.head?.any isWordChar = true := by
  rw [IsWordAt, Int.toNat_natCast, List.getElem?_append_right (Nat.le_refl _), Nat.sub_self,
    ← List.head?_eq_getElem?, Option.any_eq_true]
  exact and_iff_right (Int.natCast_nonneg _)

theorem isWordAt_pred_length_iff (front back : List Char) :
    IsWordAt (front ++ back) (front.length - 1) ↔ front.getLast?.any isWordChar = true := by
  rcases List.eq_nil_or_concat' front with rfl | ⟨rest, c, rfl⟩
  · constructor
    · rintro ⟨h0, -⟩
      exact absurd h0 (by decide)
    · intro h
      cases h
  · have hplace : (((rest ++ [c]).length : Int) - 1) = rest.length := by
      rw [List.length_append, List.length_singleton, Int.natCast_add]
      omega
    rw [hplace, List.append_assoc, isWordAt_length_iff, List.getLast?_concat]
    rfl

/-- No word goes on behind a piece just if none goes on with the first character there. -/
theorem not_isWordAt_length_iff (htext : text = front ++ back) :
    ¬ IsWordAt text front.length ↔ ∀ c ∈ back.head?, isWordChar c = false := by
  rw [htext, isWordAt_length_iff, Bool.not_eq_true, Option.any_eq_false]
  rfl

theorem not_isWordAt_pred_length_iff (htext : text = front ++ back) :
    ¬ IsWordAt text (front.length - 1) ↔ ∀ c ∈ front.getLast?, isWordChar c = false := by
  rw [htext, isWordAt_pred_length_iff, Bool.not_eq_true, Option.any_eq_false]
  rfl

theorem not_isWordAt_of_head? (htext : text = front ++ back)
    (hback : ∀ c ∈ back.head?, isWordChar c = false) : ¬ IsWordAt text front.length :=
  (not_isWordAt_length_iff htext).2 hback

theorem not_isWordAt_of_getLast? (htext : text = front ++ back)
    (hfront : ∀ c ∈ front.getLast?, isWordChar c = false) : ¬ IsWordAt text (front.length - 1) :=
  (not_isWordAt_pred_length_iff htext).2 hfront

/-! ## Words -/

namespace IsWord

/-- A word ends before a place where there is none, unless it begins behind it. -/
theorem stop_le (h : IsWord text s) (hp : ¬ IsWordAt text p) (hle : s.start ≤ p) : s.stop ≤ p := by
  by_cases hlt : p < s.stop
  · exact absurd (h.inside p hle hlt) hp
  · exact Int.not_lt.1 hlt

/-- A word begins behind a place where there is none, unless it ends before it. -/
theorem lt_start (h : IsWord text s) (hp : ¬ IsWordAt text p) (hlt : p < s.stop) : p < s.start := by
  by_cases hle : s.start ≤ p
  · exact absurd (h.inside p hle hlt) hp
  · exact Int.not_le.1 hle

/-- Words that share a place are the same. -/
theorem eq_of_shared (h : IsWord text s) (ht : IsWord text t) (hp : s.start ≤ p)
    (hlt : p < s.stop) (hp' : t.start ≤ p) (hlt' : p < t.stop) : s = t := by
  have hstop := h.stop_le ht.after (by omega)
  have hstop' := ht.stop_le h.after (by omega)
  have hstart := h.lt_start ht.before (by omega)
  have hstart' := ht.lt_start h.before (by omega)
  obtain ⟨start, stop⟩ := s
  obtain ⟨start', stop'⟩ := t
  dsimp only at *
  obtain rfl : start = start' := by omega
  obtain rfl : stop = stop' := by omega
  rfl

theorem bounds (h : IsWord text s) : 0 ≤ s.start ∧ s.stop ≤ text.length := by
  have hlt := h.start_lt_stop
  have hfirst := (h.inside s.start (Int.le_refl _) hlt).bounds
  have hlast := (h.inside (s.stop - 1) (by omega) (by omega)).bounds
  omega

/-- A separator stands right after a word, unless the text ends there. -/
theorem exists_separator (h : IsWord text s) (hlt : s.stop < text.length) :
    ∃ c, text[s.stop.toNat]? = some c ∧ isWordSeparator c = true := by
  have hstart := h.start_lt_stop
  have hbounds := h.bounds
  have hindex : s.stop.toNat < text.length := by omega
  refine ⟨text[s.stop.toNat], List.getElem?_eq_getElem hindex, ?_⟩
  by_cases hc : isWordSeparator text[s.stop.toNat] = true
  · exact hc
  · have hword : isWordChar text[s.stop.toNat] = true := by simpa [isWordChar] using hc
    exact absurd ⟨by omega, _, List.getElem?_eq_getElem hindex, hword⟩ h.after

end IsWord

/-! ## The spans are the words -/

/-- The word that is not yet finished at an index of a text begins as given, if there is one. -/
inductive Opened (text : List Char) (index : Nat) : Option Nat → Prop where
  /-- No word reaches up to there. -/
  | closed (h : ¬ IsWordAt text (index - 1)) : Opened text index none
  /-- A word has begun before. -/
  | begun {start : Nat} (hlt : start < index)
      (hinside : ∀ p : Int, start ≤ p → p < index → IsWordAt text p)
      (hbefore : ¬ IsWordAt text (start - 1)) : Opened text index (some start)

namespace Opened

variable {index : Nat} {opened : Option Nat}

/-- A character of a word begins one, or goes on with the one that has begun. -/
theorem wordChar (h : Opened text index opened) (hword : IsWordAt text index) :
    Opened text (index + 1) (some (opened.getD index)) := by
  cases h with
  | closed hbefore =>
    refine .begun (Nat.lt_succ_self index) (fun p hp hlt => ?_) hbefore
    obtain rfl : p = index := by simp at hp; omega
    exact hword
  | begun hlt hinside hbefore =>
    refine .begun (Nat.lt_succ_of_lt hlt) (fun p hp hlt => ?_) hbefore
    by_cases hlast : p = index
    · rw [hlast]
      exact hword
    · exact hinside p hp (by omega)

theorem separator (h : ¬ IsWordAt text index) : Opened text (index + 1) none := by
  refine .closed ?_
  rwa [Int.natCast_succ, Int.add_sub_cancel]

/-- The word that has begun is finished where no character of a word follows. -/
theorem isWord {start : Nat} (h : Opened text index (some start)) (hafter : ¬ IsWordAt text index) :
    IsWord text ⟨start, index⟩ := by
  cases h with
  | begun hlt hinside hbefore => exact ⟨by simpa using hlt, hinside, hbefore, hafter⟩

/-- A word that ends at an index where no word follows is the one that has begun. -/
theorem eq_of_stop_eq (h : Opened text index opened) (hs : IsWord text s)
    (hstop : s.stop = index) : ∃ start, opened = some start ∧ s = ⟨start, index⟩ := by
  have hafter : ¬ IsWordAt text index := hstop ▸ hs.after
  have hlt := hs.start_lt_stop
  have hlast : IsWordAt text (index - 1) := hs.inside _ (by omega) (by omega)
  cases h with
  | closed hbefore => exact absurd hlast hbefore
  | @begun start hlt' hinside hbefore =>
    have hword : IsWord text ⟨start, index⟩ := ⟨by simpa using hlt', hinside, hbefore, hafter⟩
    refine ⟨start, rfl, hs.eq_of_shared hword (p := index - 1) (by omega) (by omega) ?_ ?_⟩
    · show (start : Int) ≤ index - 1
      omega
    · show (index : Int) - 1 < index
      omega

end Opened

theorem isWordAt_iff_of_drop {index : Nat} {c : Char} {rest : List Char}
    (h : text.drop index = c :: rest) : IsWordAt text index ↔ isWordChar c = true := by
  have hget : text[index]? = some c := by
    rw [← List.head?_drop, h, List.head?_cons]
  constructor
  · rintro ⟨-, d, hd, hword⟩
    rw [Int.toNat_natCast, hget] at hd
    rwa [Option.some.inj hd]
  · intro hword
    exact ⟨Int.natCast_nonneg index, c, by rwa [Int.toNat_natCast], hword⟩

/-- The spans from an index on are the words that end there or later. -/
theorem mem_wordSpansFrom_iff {rest : List Char} {index : Nat} {opened : Option Nat}
    (hopened : Opened text index opened) (hrest : text.drop index = rest)
    (hle : index ≤ text.length) :
    s ∈ wordSpansFrom index opened rest ↔ IsWord text s ∧ index ≤ s.stop := by
  -- `Opened` is what the scan keeps from one character to the next.
  induction rest generalizing index opened with
  | nil =>
    have hindex : index = text.length := Nat.le_antisymm hle (length_le_of_drop hrest)
    have hend : ¬ IsWordAt text index := fun h => by have := h.bounds; omega
    -- A word that ends at the end of the text or later ends at the end.
    have hlast : IsWord text s → (index : Int) ≤ s.stop → s.stop = index := by
      intro hs hstop
      have := hs.bounds
      omega
    rcases opened with _ | start
    · rw [wordSpansFrom]
      refine iff_of_false List.not_mem_nil ?_
      rintro ⟨hs, hstop⟩
      obtain ⟨start, hnone, -⟩ := hopened.eq_of_stop_eq hs (hlast hs hstop)
      cases hnone
    · rw [wordSpansFrom, List.mem_singleton]
      constructor
      · rintro rfl
        exact ⟨hopened.isWord hend, Int.le_refl _⟩
      · rintro ⟨hs, hstop⟩
        obtain ⟨first, hfirst, rfl⟩ := hopened.eq_of_stop_eq hs (hlast hs hstop)
        cases hfirst
        rfl
  | cons c rest ih =>
    have hnext : text.drop (index + 1) = rest := drop_succ_of_drop hrest
    have hlt : index < text.length := lt_length_of_drop hrest
    by_cases hc : isWordChar c = true
    · have hword : IsWordAt text index := (isWordAt_iff_of_drop hrest).2 hc
      simp only [wordSpansFrom, if_pos hc]
      rw [ih (hopened.wordChar hword) hnext hlt]
      refine and_congr_right fun hs => ?_
      -- No word ends where one goes on, so none is lost by asking for a later end.
      have hne : s.stop ≠ index := fun h => hs.after (h ▸ hword)
      omega
    · have hseparator : ¬ IsWordAt text index := fun h => hc ((isWordAt_iff_of_drop hrest).1 h)
      have hlater := ih (Opened.separator hseparator) hnext hlt
      rcases opened with _ | start
      · rw [wordSpansFrom, if_neg hc, hlater]
        refine and_congr_right fun hs => ?_
        have hne : s.stop ≠ index := by
          intro hstop
          obtain ⟨start, hnone, -⟩ := hopened.eq_of_stop_eq hs hstop
          cases hnone
        omega
      · rw [wordSpansFrom, if_neg hc, List.mem_cons, hlater]
        -- The word that ends here is the one that has begun, and it is put before the later ones.
        constructor
        · rintro (rfl | ⟨hs, hstop⟩)
          · exact ⟨hopened.isWord hseparator, Int.le_refl _⟩
          · exact ⟨hs, by omega⟩
        · rintro ⟨hs, hstop⟩
          by_cases heq : s.stop = index
          · obtain ⟨first, hfirst, rfl⟩ := hopened.eq_of_stop_eq hs heq
            cases hfirst
            exact Or.inl rfl
          · exact Or.inr ⟨hs, by omega⟩

/-- From an index on, each character of a word is in the span of one. -/
theorem exists_mem_wordSpansFrom {rest : List Char} {index : Nat} {opened : Option Nat}
    (hopened : Opened text index opened) (hrest : text.drop index = rest)
    (hp : (opened.getD index : Nat) ≤ p) (hword : IsWordAt text p) :
    ∃ s ∈ wordSpansFrom index opened rest, s.start ≤ p ∧ p < s.stop := by
  -- The place may be in the word that has begun, so it is bounded by the start of that word.
  induction rest generalizing index opened with
  | nil =>
    have hlength : text.length ≤ index := length_le_of_drop hrest
    have hbounds := hword.bounds
    rcases opened with _ | start
    · rw [Option.getD_none] at hp
      omega
    · refine ⟨⟨start, index⟩, List.mem_singleton_self _, hp, ?_⟩
      show p < index
      omega
  | cons c rest ih =>
    have hnext : text.drop (index + 1) = rest := drop_succ_of_drop hrest
    by_cases hc : isWordChar c = true
    · have hindex : IsWordAt text index := (isWordAt_iff_of_drop hrest).2 hc
      simp only [wordSpansFrom, if_pos hc]
      exact ih (hopened.wordChar hindex) hnext hp
    · have hseparator : ¬ IsWordAt text index := fun h => hc ((isWordAt_iff_of_drop hrest).1 h)
      have hne : p ≠ index := fun h => hseparator (h ▸ hword)
      have hlater : index < p →
          ∃ s ∈ wordSpansFrom (index + 1) none rest, s.start ≤ p ∧ p < s.stop := by
        intro hlt
        refine ih (Opened.separator hseparator) hnext ?_
        rw [Option.getD_none]
        omega
      rcases opened with _ | start
      · rw [Option.getD_none] at hp
        rw [wordSpansFrom, if_neg hc]
        exact hlater (by omega)
      · rw [wordSpansFrom, if_neg hc]
        by_cases hlt : p < index
        · exact ⟨⟨start, index⟩, List.mem_cons_self, hp, hlt⟩
        · obtain ⟨s, hs, hbounds⟩ := hlater (by omega)
          exact ⟨s, List.mem_cons_of_mem _ hs, hbounds⟩

theorem opened_zero (text : List Char) : Opened text 0 none :=
  .closed fun h => by have := h.bounds; omega

variable {line : Line}

/-- The spans of a line are its words. -/
theorem mem_wordSpans_iff : s ∈ line.wordSpans ↔ IsWord line.text s := by
  refine (mem_wordSpansFrom_iff (opened_zero line.text) rfl (Nat.zero_le _)).trans ?_
  refine and_iff_left_of_imp fun hs => ?_
  have hlt := hs.start_lt_stop
  have hbounds := hs.bounds
  omega

theorem exists_word_of_isWordAt (h : IsWordAt line.text p) :
    ∃ s ∈ line.wordSpans, s.start ≤ p ∧ p < s.stop :=
  exists_mem_wordSpansFrom (opened_zero line.text) rfl h.1 h

end LineEditor
