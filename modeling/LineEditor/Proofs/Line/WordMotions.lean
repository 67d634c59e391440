import LineEditor.Proofs.Line.InBounds
import LineEditor.Proofs.Line.WordScans
import Mathlib.Logic.Function.Iterate

/-!
# Moving by words

Moving ahead comes to the end of the next word that ends past the cursor, so moving ahead again and
again comes to the ends of all these words in order, and stays at the last one. Moving back comes to
the start of the last word that has begun, which is the word just passed if the cursor has come from
before its end; from the start of a word it does not move.
-/

namespace LineEditor.Line

variable {line : Line} {place e : Int} {ends : List Int}

/-! ## Ahead -/

/-- Where the words end that end past a place. -/
def wordEndsPast (line : Line) (place : Int) : List Int :=
  (line.wordSpans.map Span.stop).filter (place < ·)

theorem head?_wordEndsPast (line : Line) (place : Int) :
    (line.wordEndsPast place).head? = (line.wordPast? place).map Span.stop := by
  rw [wordEndsPast, List.filter_map, List.head?_map, List.head?_filter]
  rfl

theorem pairwise_wordEndsPast (line : Line) (place : Int) :
    (line.wordEndsPast place).Pairwise (· < ·) := by
  refine List.Pairwise.filter _ (List.pairwise_map.2 ?_)
  refine line.pairwise_wordSpans.imp_of_mem fun {s t} _ ht hlt => ?_
  have hlt' := (mem_wordSpans_iff.1 ht).start_lt_stop
  omega

/-- From the first of these places on, the others are ahead. -/
theorem wordEndsPast_of_cons (h : line.wordEndsPast place = e :: ends) :
    line.wordEndsPast e = ends := by
  have hordered := line.pairwise_wordEndsPast place
  rw [h, List.pairwise_cons] at hordered
  have he : e ∈ line.wordEndsPast place := h ▸ List.mem_cons_self
  have hpast : place < e := of_decide_eq_true (List.mem_filter.1 he).2
  have hlater : line.wordEndsPast e = (line.wordEndsPast place).filter (e < ·) := by
    rw [wordEndsPast, wordEndsPast, List.filter_filter]
    refine List.filter_congr fun stop _ => ?_
    rw [← Bool.decide_and, decide_eq_decide]
    omega
  rw [hlater, h, List.filter_cons_of_neg (by simp)]
  exact List.filter_eq_self.2 fun stop hstop => decide_eq_true (hordered.1 stop hstop)

theorem InBounds.forwardWord_of_nil (h : line.InBounds)
    (hends : line.wordEndsPast line.cursor = []) : line.forwardWord = line := by
  have hhead := line.head?_wordEndsPast line.cursor
  rw [hends, List.head?_nil] at hhead
  rw [Line.forwardWord, forwardWordTarget_eq h.cursor_nonneg h.cursor_le, ← hhead]
  rfl

theorem InBounds.forwardWord_of_cons (h : line.InBounds)
    (hends : line.wordEndsPast line.cursor = e :: ends) :
    line.forwardWord = { line with cursor := e } := by
  have hhead := line.head?_wordEndsPast line.cursor
  rw [hends, List.head?_cons] at hhead
  rw [Line.forwardWord, forwardWordTarget_eq h.cursor_nonneg h.cursor_le, ← hhead]
  rfl

/-- Moving so many words ahead comes to the last of so many ends. -/
theorem InBounds.forwardWord_iterate (h : line.InBounds)
    (hends : line.wordEndsPast line.cursor = ends) (k : Nat) :
    Line.forwardWord^[k] line = { line with cursor := (ends.take k).getLastD line.cursor } := by
  induction ends generalizing line k with
  | nil =>
    rw [Function.iterate_fixed (h.forwardWord_of_nil hends), List.take_nil]
    rfl
  | cons e ends ih =>
    cases k with
    | zero => rfl
    | succ k =>
      have hmoved := h.forwardWord_of_cons hends
      have hnext : line.forwardWord.wordEndsPast line.forwardWord.cursor = ends := by
        rw [hmoved]
        exact wordEndsPast_of_cons hends
      rw [Function.iterate_succ_apply, ih h.forwardWord hnext, hmoved, List.take_succ_cons,
        List.getLastD_cons]

/-! ## Back -/

/-- Moving back comes to the start of a word that has begun, or stays if none has. -/
theorem InBounds.backWord_cases (h : line.InBounds) :
    (line.wordBegun? line.cursor = none ∧ line.backWord = line) ∨
      ∃ s ∈ line.wordSpans, s.start ≤ line.cursor ∧
        line.backWord = { line with cursor := s.start } := by
  have htarget := backWordTarget_eq h.cursor_nonneg
  cases hbegun : line.wordBegun? line.cursor with
  | none =>
    rw [hbegun] at htarget
    refine Or.inl ⟨rfl, ?_⟩
    rw [Line.backWord, htarget]
    rfl
  | some s =>
    obtain ⟨hle, before, after, hsplit, -⟩ := split_of_wordBegun? hbegun
    rw [hbegun] at htarget
    refine Or.inr ⟨s, by simp [hsplit], hle, ?_⟩
    rw [Line.backWord, htarget]
    rfl

/-- From anywhere on a word, or from right behind it, moving back comes to its start. -/
theorem backWord_of_mem {s : Span} (hs : s ∈ line.wordSpans) (hstart : s.start ≤ place)
    (hstop : place ≤ s.stop) :
    ({ line with cursor := place } : Line).backWord = { line with cursor := s.start } := by
  have hword : IsWord line.text s := mem_wordSpans_iff.1 hs
  have hbegun : line.wordBegun? place = some s :=
    wordBegun?_eq_some hword hstart fun t _ hlt => Int.lt_of_le_of_lt hstop hlt
  have h0 : 0 ≤ ({ line with cursor := place } : Line).cursor := Int.le_trans hword.bounds.1 hstart
  have htarget := backWordTarget_eq h0
  have hsame : ({ line with cursor := place } : Line).wordBegun? place = some s := hbegun
  rw [hsame] at htarget
  rw [Line.backWord, htarget]
  rfl

theorem InBounds.backWord_backWord (h : line.InBounds) :
    line.backWord.backWord = line.backWord := by
  rcases h.backWord_cases with ⟨-, hstays⟩ | ⟨s, hs, -, hback⟩
  · rw [hstays, hstays]
  · have hlt := (mem_wordSpans_iff.1 hs).start_lt_stop
    rw [hback]
    exact backWord_of_mem hs (Int.le_refl _) (Int.le_of_lt hlt)

/-- A motion ahead that does move comes to the end of a word, and from there back to its start. -/
theorem InBounds.backWord_forwardWord (h : line.InBounds)
    (hmoved : line.forwardWord.cursor ≠ line.cursor) :
    ∃ s ∈ line.wordSpans, line.forwardWord = { line with cursor := s.stop } ∧
      line.forwardWord.backWord = { line with cursor := s.start } := by
  cases hends : line.wordEndsPast line.cursor with
  | nil => exact absurd (congrArg cursor (h.forwardWord_of_nil hends)) hmoved
  | cons e ends =>
    have he : e ∈ line.wordEndsPast line.cursor := hends ▸ List.mem_cons_self
    obtain ⟨s, hs, rfl⟩ := List.mem_map.1 (List.mem_filter.1 he).1
    have hforward := h.forwardWord_of_cons hends
    have hlt := (mem_wordSpans_iff.1 hs).start_lt_stop
    refine ⟨s, hs, hforward, ?_⟩
    rw [hforward]
    exact backWord_of_mem hs (Int.le_of_lt hlt) (Int.le_refl _)

end LineEditor.Line
