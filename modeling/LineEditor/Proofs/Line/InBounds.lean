import LineEditor.Line.Whole
import LineEditor.Line.WordEdit
import LineEditor.Proofs.Line.CaseMapped
import LineEditor.Proofs.Line.Span
import LineEditor.Proofs.Line.Transposing
import LineEditor.Proofs.Line.WordBounds

/-!
# Lines in bounds

A line is in bounds if its cursor stands on it, before a character or past the last one, and its
mark, if there is one, is at no negative place; the mark may be past the end. Every operation on a
line in bounds leaves a line in bounds. The operations come in a few families: those that move the
cursor, those that bring the cursor and the mark back onto the line at the end, those that delete a
span and go to its start, and those that insert.
-/

namespace LineEditor.Line

/-- The cursor stands on the line, and no mark is at a negative place. -/
structure InBounds (line : Line) : Prop where
  /-- The cursor is not before the line. -/
  cursor_nonneg : 0 ≤ line.cursor
  /-- The cursor is not past the end. -/
  cursor_le : line.cursor ≤ line.length
  /-- The mark is not before the line. -/
  mark_nonneg : ∀ m ∈ line.mark, 0 ≤ m

/-- A line that has just been made from its text is in bounds. -/
theorem inBounds_ofText (text : List Char) : ({ text } : Line).InBounds :=
  ⟨Int.le_refl 0, Int.natCast_nonneg _, by simp⟩

variable {line : Line}

/-- The region of a line in bounds lies within it, also when the mark is past the end. -/
theorem InBounds.region_within (h : line.InBounds) : line.region.Within line.length := by
  obtain ⟨h0, h1, hm⟩ := h
  unfold region
  cases hmark : line.mark with
  | none => exact ⟨by simp; omega, by simp, by simp; omega⟩
  | some m =>
    have := hm m hmark
    exact ⟨by simp only; omega, by simp only; omega, by simp only; omega⟩

/-! ## Moving the cursor -/

theorem InBounds.withCursor (h : line.InBounds) {place : Int} (h0 : 0 ≤ place)
    (h1 : place ≤ line.length) : ({ line with cursor := place } : Line).InBounds :=
  ⟨h0, h1, h.mark_nonneg⟩

theorem InBounds.withDone (h : line.InBounds) (done : Bool) :
    ({ line with done := done } : Line).InBounds :=
  ⟨h.cursor_nonneg, h.cursor_le, h.mark_nonneg⟩

theorem InBounds.withClips (h : line.InBounds) (clips : List (List Char)) :
    ({ line with clips := clips } : Line).InBounds :=
  ⟨h.cursor_nonneg, h.cursor_le, h.mark_nonneg⟩

theorem InBounds.setMark (h : line.InBounds) : line.setMark.InBounds := by
  refine ⟨h.cursor_nonneg, h.cursor_le, ?_⟩
  intro m hm
  rw [← Option.some.inj hm]
  exact h.cursor_nonneg

theorem InBounds.forward (h : line.InBounds) : line.forward.InBounds := by
  have h0 := h.cursor_nonneg
  exact h.withCursor (by omega) (by omega)

theorem InBounds.back (h : line.InBounds) : line.back.InBounds := by
  have h1 := h.cursor_le
  exact h.withCursor (by omega) (by omega)

theorem InBounds.home (h : line.InBounds) : line.home.InBounds :=
  h.withCursor (Int.le_refl 0) (by omega)

theorem InBounds.toEnd (h : line.InBounds) : line.toEnd.InBounds :=
  h.withCursor (by omega) (Int.le_refl _)

theorem InBounds.last (h : line.InBounds) : line.last.InBounds :=
  h.withCursor (by omega) (by omega)

theorem InBounds.goto (h : line.InBounds) (column : Int) : (line.goto column).InBounds :=
  h.withCursor (by omega) (by omega)

theorem InBounds.forwardWord (h : line.InBounds) : line.forwardWord.InBounds := by
  have h0 := h.cursor_nonneg
  obtain ⟨hlo, hhi⟩ := forwardWordTarget_bounds h0 h.cursor_le
  exact h.withCursor (by omega) hhi

theorem InBounds.backWord (h : line.InBounds) : line.backWord.InBounds := by
  have h1 := h.cursor_le
  obtain ⟨hlo, hhi⟩ := backWordTarget_bounds h.cursor_nonneg
  exact h.withCursor hlo (by omega)

/-- A search ahead finds a place from the cursor up to the last character. -/
theorem findAhead?_bounds (h : line.InBounds) {target : List Char} {place : Int}
    (hplace : line.findAhead? target = some place) :
    line.cursor ≤ place ∧ place < line.length := by
  have hlen := length_ahead h.cursor_nonneg h.cursor_le
  unfold findAhead? at hplace
  obtain ⟨n, hn, rfl⟩ := Option.map_eq_some_iff.1 hplace
  have := (List.findIdx?_eq_some_iff_findIdx_eq.1 hn).1
  omega

/-- A search behind finds a place from the start of the line up to the character before the
cursor. -/
theorem findBehind?_bounds (h : line.InBounds) {target : List Char} {place : Int}
    (hplace : line.findBehind? target = some place) : 0 ≤ place ∧ place < line.cursor := by
  have h0 := h.cursor_nonneg
  unfold findBehind? at hplace
  obtain ⟨n, hn, rfl⟩ := Option.map_eq_some_iff.1 hplace
  have := (List.findIdx?_eq_some_iff_findIdx_eq.1 hn).1
  rw [List.length_reverse, List.length_take] at this
  rw [List.length_take]
  omega

theorem InBounds.find (h : line.InBounds) (target : List Char) : (line.find target).InBounds := by
  have h0 := h.cursor_nonneg
  unfold Line.find moveTo
  cases hplace : line.findAhead? target with
  | none => exact h
  | some place =>
    obtain ⟨hlo, hhi⟩ := findAhead?_bounds h hplace
    exact h.withCursor (by simp; omega) (by simp; omega)

theorem InBounds.findBack (h : line.InBounds) (target : List Char) :
    (line.findBack target).InBounds := by
  have h1 := h.cursor_le
  unfold Line.findBack moveTo
  cases hplace : line.findBehind? target with
  | none => exact h
  | some place =>
    obtain ⟨hlo, hhi⟩ := findBehind?_bounds h hplace
    exact h.withCursor hlo (by simp; omega)

/-! ## Operations that end by going back onto the line -/

/-- Whatever the line was before, going back onto it leaves it in bounds. -/
theorem inBounds_clamp (line : Line) : line.clamp.InBounds := by
  refine ⟨?_, ?_, ?_⟩
  · show 0 ≤ max 0 (min line.cursor line.length)
    omega
  · show max 0 (min line.cursor line.length) ≤ line.length
    omega
  · intro m hm
    obtain ⟨n, -, rfl⟩ := Option.map_eq_some_iff.1 hm
    omega

theorem inBounds_modify (s : Span) (f : List Char → List Char) (line : Line) :
    (line.modify s f).InBounds :=
  inBounds_clamp _

theorem inBounds_modifyText (f : List Char → List Char) (line : Line) :
    (line.modifyText f).InBounds :=
  inBounds_clamp _

theorem InBounds.modifyChar (h : line.InBounds) (f : List Char → List Char) :
    (line.modifyChar f).InBounds := by
  unfold Line.modifyChar
  split
  · exact inBounds_modify _ f line
  · exact h

/-! ## Deleting a span and going to its start -/

theorem length_remove {s : Span} (hs : s.Within line.length) :
    ((line.remove s).length : Int) = line.length - (s.stop - s.start) := by
  have hlen := hs.length_replace []
  simpa [remove, length] using hlen

/-- Killing a span and going to its start: what is left of the line reaches at least as far. -/
theorem InBounds.kill (h : line.InBounds) {s : Span} (hs : s.Within line.length) :
    ({ line.kill s with cursor := s.start } : Line).InBounds := by
  have hlen := length_remove hs
  obtain ⟨h0, h1, h2⟩ := hs
  refine ⟨h0, ?_, ?_⟩
  · show s.start ≤ (line.remove s).length
    omega
  · intro m hm
    obtain ⟨n, hn, rfl⟩ := Option.map_eq_some_iff.1 hm
    have := h.mark_nonneg n hn
    split <;> omega

theorem InBounds.ahead_within (h : line.InBounds) {stop : Int} (h0 : line.cursor ≤ stop)
    (h1 : stop ≤ line.length) : (⟨line.cursor, stop⟩ : Span).Within line.length :=
  ⟨h.cursor_nonneg, h0, h1⟩

theorem InBounds.behind_within (h : line.InBounds) {start : Int} (h0 : 0 ≤ start)
    (h1 : start ≤ line.cursor) : (⟨start, line.cursor⟩ : Span).Within line.length :=
  ⟨h0, h1, h.cursor_le⟩

/-- The word span reaches from a place at or before the cursor to one at or after it. -/
theorem InBounds.wordSpan_within (h : line.InBounds) : line.wordSpan.Within line.length := by
  obtain ⟨hs0, hs1⟩ := wordStart_bounds h.cursor_nonneg
  obtain ⟨he0, he1⟩ := wordEnd_bounds h.cursor_nonneg h.cursor_le
  exact ⟨hs0, Int.le_trans hs1 he0, he1⟩

theorem InBounds.killWord (h : line.InBounds) : line.killWord.InBounds := by
  obtain ⟨he0, he1⟩ := wordEnd_bounds h.cursor_nonneg h.cursor_le
  exact h.kill (h.ahead_within he0 he1)

/-- What is killed behind the cursor reaches back to the start of a word, or of the one before. -/
theorem InBounds.wordBehind_within (h : line.InBounds) :
    (⟨if line.wordStart = line.cursor then line.previousWordStart else line.wordStart,
      line.cursor⟩ : Span).Within line.length := by
  obtain ⟨hs0, hs1⟩ := wordStart_bounds h.cursor_nonneg
  obtain ⟨hp0, hp1⟩ := previousWordStart_bounds h.cursor_nonneg
  split
  · exact h.behind_within hp0 hp1
  · exact h.behind_within hs0 hs1

theorem InBounds.killWordBack (h : line.InBounds) : line.killWordBack.InBounds :=
  h.kill h.wordBehind_within

theorem InBounds.killFullWord (h : line.InBounds) : line.killFullWord.InBounds :=
  h.kill h.wordSpan_within

theorem InBounds.killAfter (h : line.InBounds) : line.killAfter.InBounds :=
  h.kill (h.ahead_within h.cursor_le (Int.le_refl _))

theorem InBounds.killBefore (h : line.InBounds) : line.killBefore.InBounds :=
  h.kill (h.behind_within (Int.le_refl 0) h.cursor_nonneg)

/-- The mark stays where it was, so it may be past the end afterwards. -/
theorem InBounds.removeAfter (h : line.InBounds) : line.removeAfter.InBounds := by
  have hlen := length_remove (h.ahead_within h.cursor_le (Int.le_refl _))
  refine ⟨h.cursor_nonneg, ?_, h.mark_nonneg⟩
  show line.cursor ≤ line.removeAfter.length
  unfold Line.removeAfter
  simp only at hlen
  omega

theorem InBounds.cut (h : line.InBounds) : line.cut.InBounds := by
  have hregion := h.region_within
  have hlen := length_remove hregion
  obtain ⟨h0, h1, h2⟩ := hregion
  refine ⟨h0, ?_, ?_⟩
  · show line.region.start ≤ (line.remove line.region).length
    omega
  · intro m hm
    change m ∈ (if line.cursor < line.region.stop then some line.region.start else line.mark) at hm
    split at hm
    · rw [← Option.some.inj hm]
      exact h0
    · exact h.mark_nonneg m hm

theorem InBounds.delete (h : line.InBounds) : line.delete.InBounds := by
  have h1 := h.cursor_le
  refine ⟨h.cursor_nonneg, ?_, h.mark_nonneg⟩
  show line.cursor ≤ (line.text.eraseIdx (offset line.length line.cursor)).length
  rw [offset_of_within h.cursor_nonneg h1, List.length_eraseIdx]
  unfold length at h1
  split <;> omega

theorem InBounds.deleteBack (h : line.InBounds) : line.deleteBack.InBounds := by
  have h1 := h.cursor_le
  unfold Line.deleteBack
  split
  · exact h
  · refine ⟨by simp only; omega, ?_, h.mark_nonneg⟩
    show line.cursor - 1 ≤ (line.text.eraseIdx (line.cursor - 1).toNat).length
    rw [List.length_eraseIdx]
    unfold length at h1
    split <;> omega

/-! ## Inserting, and rearranging the text -/

theorem InBounds.insert (h : line.InBounds) (s : List Char) : (line.insert s).InBounds := by
  have h0 := h.cursor_nonneg
  have h1 := h.cursor_le
  have hlen := (h.ahead_within (Int.le_refl _) h1).length_replace s
  refine ⟨?_, ?_, h.mark_nonneg⟩
  · show 0 ≤ line.cursor + s.length
    omega
  · show line.cursor + s.length ≤ (Span.replace ⟨line.cursor, line.cursor⟩ line.text s).length
    unfold length at h1
    simp only at hlen
    omega

theorem InBounds.paste (h : line.InBounds) : line.paste.InBounds := by
  unfold Line.paste
  split
  · exact h
  · exact h.insert _

/-- The text copied last is replaced only if there is one. -/
theorem modifyClip_cases (line : Line) (f : List Char → List Char) :
    (line.topClip? = none ∧ line.modifyClip f = line) ∨
      ∃ s, line.topClip? = some s ∧ line.replaceTopClip? (f s) = some (line.modifyClip f) := by
  unfold Line.modifyClip topClip? replaceTopClip?
  cases line.clips with
  | nil => exact Or.inl ⟨rfl, rfl⟩
  | cons top below => exact Or.inr ⟨top, rfl, rfl⟩

theorem InBounds.replaceTopClip? (h : line.InBounds) {s : List Char} {new : Line}
    (hnew : line.replaceTopClip? s = some new) : new.InBounds := by
  unfold Line.replaceTopClip? at hnew
  split at hnew
  · exact absurd hnew (by simp)
  · rw [← Option.some.inj hnew]
    exact h.withClips _

theorem InBounds.modifyClip (h : line.InBounds) (f : List Char → List Char) :
    (line.modifyClip f).InBounds := by
  rcases modifyClip_cases line f with ⟨-, heq⟩ | ⟨s, -, heq⟩
  · rw [heq]
    exact h
  · exact h.replaceTopClip? heq

theorem InBounds.withText (h : line.InBounds) {text : List Char}
    (hlen : line.length ≤ text.length) : ({ line with text := text } : Line).InBounds := by
  have h1 := h.cursor_le
  refine ⟨h.cursor_nonneg, ?_, h.mark_nonneg⟩
  show line.cursor ≤ text.length
  omega

theorem InBounds.translate (h : line.InBounds) (pairs : List (Char × Char)) :
    (line.translate pairs).InBounds :=
  h.withText (by simp [length])

theorem InBounds.transpose (h : line.InBounds) : line.transpose.InBounds :=
  h.withText (Nat.le_of_eq line.transpose_perm.length_eq.symm)

/-- On two characters or more, the character swapped with the one before it is on the line. -/
theorem InBounds.transposeChars (h : line.InBounds) : line.transposeChars.InBounds := by
  have h0 := h.cursor_nonneg
  have h1 := h.cursor_le
  unfold Line.transposeChars
  extract_lets place first
  split
  · rename_i a b rest hdrop
    have hlen := congrArg List.length hdrop
    rw [List.length_drop, List.length_cons, List.length_cons] at hlen
    have htwo : 2 ≤ line.length := by
      unfold length
      omega
    have hplace : 1 ≤ place ∧ place ≤ line.length := by
      unfold place atEnd
      by_cases hstart : line.cursor = 0
      · rw [if_pos hstart]
        omega
      · rw [if_neg hstart]
        split
        · simp_all
          omega
        · omega
    have hfirst : (first : Int) = place - 1 := by
      unfold first
      rw [offset_of_within (by omega) (by omega)]
      omega
    refine ⟨by simp only; omega, ?_, h.mark_nonneg⟩
    show place + 1 ≤ (line.text.take first ++ b :: a :: rest).length
    rw [List.length_append, List.length_take, List.length_cons, List.length_cons]
    omega
  · exact h

/-- Swapping two words keeps the length of the line, so the end of the second is still on it. -/
theorem InBounds.transposeWords (h : line.InBounds) : line.transposeWords.InBounds := by
  have hlen : line.transposeWords.length = line.length := line.transposeWords_perm.length_eq
  unfold Line.transposeWords at hlen ⊢
  extract_lets at hlen ⊢
  split at hlen
  · rename_i first second rest hdrop
    obtain ⟨-, hsecond, -⟩ := within_of_drop_wordSpans hdrop
    have hle : second.stop ≤ line.length := hsecond.stop_le
    rw [← hlen] at hle
    exact ⟨hsecond.stop_nonneg, hle, h.mark_nonneg⟩
  · exact h

theorem modify_pieces {s : Span} (hs : s.Within line.length) (f : List Char → List Char) :
    ∃ front piece back, line.text = front ++ (piece ++ back) ∧ s.start = front.length ∧
      s.stop = front.length + piece.length ∧
      (line.modify s f).text = front ++ (f piece ++ back) := by
  obtain ⟨front, back, htext, hstart, hstop, hreplace⟩ := Span.Within.exists_pieces hs
  exact ⟨front, s.of line.text, back, htext, hstart, hstop, hreplace _⟩

/-- Setting the case of a span does not make the line shorter. -/
theorem length_le_length_modify {s : Span} {f : List Char → List Char} {settled : Char → Prop}
    (hf : SetsCase f settled) (hs : s.Within line.length) :
    line.length ≤ (line.modify s f).length := by
  obtain ⟨front, piece, back, htext, -, -, htext'⟩ := modify_pieces hs f
  have hle := (hf.maps piece).length_le
  rw [length, length, htext, htext', List.length_append, List.length_append, List.length_append,
    List.length_append]
  omega

/-- Putting a character in upper case may make several of it, but does not make it vanish. -/
theorem InBounds.length_le_length_upcaseChar (h : line.InBounds) :
    line.length ≤ line.upcaseChar.length := by
  unfold Line.upcaseChar Line.modifyChar
  split
  · rename_i hat
    have hat : line.cursor < line.length := of_decide_eq_true hat
    exact length_le_length_modify setsCase_upcase (h.ahead_within (by omega) hat)
  · exact Nat.le_refl _

theorem InBounds.capitalizeWord (h : line.InBounds) : line.capitalizeWord.InBounds := by
  obtain ⟨hs0, hs1⟩ := wordStart_bounds h.cursor_nonneg
  have h1 := h.cursor_le
  have hmoved := h.withCursor hs0 (by omega)
  have hlen := hmoved.length_le_length_upcaseChar
  refine (hmoved.modifyChar Text.upcase).withCursor h.cursor_nonneg ?_
  exact Int.le_trans h1 (Int.ofNat_le.2 hlen)

end LineEditor.Line
