import LineEditor.Proofs.Line.InBounds

/-!
# Where a search leads

A search ahead comes to the first place of its character at the cursor or after it, a search behind
to the last place before the cursor. Where a text is cut at such a place, the piece between it and
the cursor does not have the character.
-/

namespace LineEditor

variable {c : Char} {line : Line} {front piece back text : List Char}

/-- A text that has a character is cut at the last place of it. -/
theorem eq_append_cons_of_mem_last (h : c ∈ text) :
    ∃ front back, text = front ++ c :: back ∧ c ∉ back := by
  obtain ⟨before, after, hreverse, hnot⟩ :=
    List.eq_append_cons_of_mem (List.mem_reverse.2 h)
  refine ⟨after.reverse, before.reverse, ?_, fun hmem => hnot (List.mem_reverse.1 hmem)⟩
  rw [← List.reverse_reverse text, hreverse, List.reverse_append, List.reverse_cons,
    List.append_assoc, List.singleton_append]

theorem findIdx?_of_notMem (h : c ∉ text) : (text.findIdx? fun d => [d] = [c]) = none := by
  refine List.findIdx?_eq_none_iff.2 fun d hd => ?_
  rw [decide_eq_false_iff_not, List.singleton_inj]
  rintro rfl
  exact h hd

theorem findIdx?_of_piece (h : c ∉ piece) (back : List Char) :
    ((piece ++ c :: back).findIdx? fun d => [d] = [c]) = some piece.length := by
  rw [List.findIdx?_append, findIdx?_of_notMem h, Option.none_or, List.findIdx?_cons,
    if_pos (decide_eq_true rfl), Option.map_some, Nat.zero_add]

namespace Line

theorem InBounds.cursor_eq_length_take (h : line.InBounds) :
    line.cursor = (line.text.take line.cursor.toNat).length := by
  have h0 := h.cursor_nonneg
  have h1 := h.cursor_le
  unfold length at h1
  rw [List.length_take]
  omega

/-! ## Ahead -/

theorem ahead_of_pieces (htext : line.text = front ++ back) (hcursor : line.cursor = front.length) :
    line.ahead = back := by
  have hplace : line.cursor.toNat = front.length := by omega
  rw [ahead, if_neg (by omega), hplace, htext, List.drop_left]

theorem findAhead?_of_piece (htext : line.text = front ++ (piece ++ c :: back))
    (hcursor : line.cursor = front.length) (hpiece : c ∉ piece) :
    line.findAhead? [c] = some (line.cursor + piece.length) := by
  rw [findAhead?, ahead_of_pieces htext hcursor, findIdx?_of_piece hpiece, Option.map_some]

theorem findAhead?_of_notMem (htext : line.text = front ++ back)
    (hcursor : line.cursor = front.length) (hback : c ∉ back) : line.findAhead? [c] = none := by
  rw [findAhead?, ahead_of_pieces htext hcursor, findIdx?_of_notMem hback, Option.map_none]

/-! ## Behind -/

theorem findBehind?_of_piece (hbehind : line.text.take line.cursor.toNat = front ++ c :: piece)
    (hpiece : c ∉ piece) : line.findBehind? [c] = some front.length := by
  have hreverse : (front ++ c :: piece).reverse = piece.reverse ++ c :: front.reverse := by
    rw [List.reverse_append, List.reverse_cons, List.append_assoc, List.singleton_append]
  have hnot : c ∉ piece.reverse := fun hmem => hpiece (List.mem_reverse.1 hmem)
  rw [findBehind?, hbehind, hreverse, findIdx?_of_piece hnot, Option.map_some]
  congr 1
  rw [List.length_append, List.length_cons, List.length_reverse]
  omega

theorem findBehind?_of_notMem (h : c ∉ line.text.take line.cursor.toNat) :
    line.findBehind? [c] = none := by
  have hnot : c ∉ (line.text.take line.cursor.toNat).reverse :=
    fun hmem => h (List.mem_reverse.1 hmem)
  rw [findBehind?, findIdx?_of_notMem hnot, Option.map_none]

end Line

end LineEditor
