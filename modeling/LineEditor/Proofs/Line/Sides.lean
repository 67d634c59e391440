import LineEditor.Proofs.Line.Killing

/-!
# The two sides of the cursor

The cursor cuts the line in two. An operation that replaces a span which ends at the cursor, and
then stands right behind what it has put there, keeps the text from the cursor on. An operation that
replaces a span which begins at the cursor, and stays, keeps the text before it. Inserting a text
and moving past a character are told by the two pieces.
-/

namespace LineEditor

namespace Span

variable {s : Span} {text : List Char} {p : Int}

theorem Within.take_replace (h : s.Within text.length) (new : List Char) :
    (s.replace text new).take s.start.toNat = text.take s.start.toNat := by
  have hle := h.start_le_length
  rw [h.replace_eq]
  exact List.take_left' (List.length_take_of_le (by omega))

theorem Within.drop_replace (h : s.Within text.length) (new : List Char) :
    (s.replace text new).drop (s.start.toNat + new.length) = text.drop s.stop.toNat := by
  have hle := h.start_le_length
  have hfront : (text.take s.start.toNat).length = s.start.toNat :=
    List.length_take_of_le (by omega)
  rw [h.replace_eq, ← List.append_assoc]
  apply List.drop_left'
  rw [List.length_append, hfront]

/-- Deleting one character is deleting the span of it. -/
theorem eraseIdx_eq_replace (h0 : 0 ≤ p) (h : p < text.length) :
    text.eraseIdx p.toNat = Span.replace ⟨p, p + 1⟩ text [] := by
  have hwithin : Span.Within ⟨p, p + 1⟩ text.length := ⟨h0, by simp only; omega, h⟩
  have hnext : (p + 1).toNat = p.toNat + 1 := by omega
  rw [hwithin.replace_eq, List.nil_append, List.eraseIdx_eq_take_drop_succ, hnext]

end Span

namespace Line

variable {line next : Line} {s : Span} {c : Char} {front back : List Char}

theorem drop_of_replace (new : List Char) (hs : s.Within line.length) (hstop : s.stop = line.cursor)
    (htext : next.text = s.replace line.text new) (hcursor : next.cursor = s.start + new.length) :
    next.text.drop next.cursor.toNat = line.text.drop line.cursor.toNat := by
  have h0 := hs.start_nonneg
  have hplace : next.cursor.toNat = s.start.toNat + new.length := by omega
  rw [hplace, htext, hs.drop_replace, hstop]

theorem take_of_replace (new : List Char) (hs : s.Within line.length)
    (hstart : s.start = line.cursor) (htext : next.text = s.replace line.text new) :
    next.text.take line.cursor.toNat = line.text.take line.cursor.toNat := by
  rw [htext, ← hstart]
  exact hs.take_replace new

/-! ## Behind the cursor -/

theorem InBounds.drop_insert (h : line.InBounds) (s : List Char) :
    (line.insert s).text.drop (line.insert s).cursor.toNat =
      line.text.drop line.cursor.toNat :=
  drop_of_replace s (h.ahead_within (Int.le_refl _) h.cursor_le) rfl rfl rfl

theorem InBounds.drop_paste (h : line.InBounds) :
    line.paste.text.drop line.paste.cursor.toNat = line.text.drop line.cursor.toNat := by
  unfold Line.paste
  split
  · rfl
  · exact h.drop_insert _

theorem InBounds.drop_deleteBack (h : line.InBounds) :
    line.deleteBack.text.drop line.deleteBack.cursor.toNat = line.text.drop line.cursor.toNat := by
  have h1 := h.cursor_le
  unfold Line.deleteBack
  split
  · rfl
  · have hwithin : Span.Within ⟨line.cursor - 1, line.cursor⟩ line.length :=
      h.behind_within (by omega) (by omega)
    have herase : line.text.eraseIdx (line.cursor - 1).toNat =
        Span.replace ⟨line.cursor - 1, line.cursor - 1 + 1⟩ line.text [] := by
      unfold length at h1
      exact Span.eraseIdx_eq_replace (by omega) (by omega)
    rw [Int.sub_add_cancel] at herase
    exact drop_of_replace [] hwithin rfl herase (Int.add_zero _).symm

/-! ## Ahead of the cursor -/

theorem InBounds.take_delete (h : line.InBounds) :
    line.delete.text.take line.cursor.toNat = line.text.take line.cursor.toNat := by
  have h0 := h.cursor_nonneg
  have h1 := h.cursor_le
  unfold length at h1
  have hplace : offset line.length line.cursor = line.cursor.toNat := offset_of_within h0 h1
  show (line.text.eraseIdx (offset line.length line.cursor)).take line.cursor.toNat = _
  rw [hplace]
  by_cases hat : line.cursor < line.text.length
  · have hwithin : Span.Within ⟨line.cursor, line.cursor + 1⟩ line.text.length :=
      ⟨h0, by simp only; omega, hat⟩
    rw [Span.eraseIdx_eq_replace h0 hat]
    exact hwithin.take_replace []
  · rw [List.eraseIdx_of_length_le (by omega)]

/-- Changing the character at the cursor neither changes what is before it nor makes the line so
short that the cursor has to move. -/
theorem InBounds.take_modifyChar (h : line.InBounds) (f : List Char → List Char) :
    (line.modifyChar f).cursor = line.cursor ∧
      (line.modifyChar f).text.take line.cursor.toNat = line.text.take line.cursor.toNat := by
  have h0 := h.cursor_nonneg
  unfold Line.modifyChar
  split
  · rename_i hat
    have hat : line.cursor < line.length := of_decide_eq_true hat
    have hwithin : Span.Within ⟨line.cursor, line.cursor + 1⟩ line.length :=
      h.ahead_within (by omega) hat
    let new := f (Span.of ⟨line.cursor, line.cursor + 1⟩ line.text)
    have hlength := hwithin.length_replace new
    refine ⟨?_, take_of_replace new hwithin rfl rfl⟩
    show max 0 (min line.cursor (Span.replace ⟨line.cursor, line.cursor + 1⟩ line.text new).length)
      = line.cursor
    unfold length at hat
    dsimp only at hlength
    omega
  · exact ⟨rfl, rfl⟩

/-! ## A text in two pieces -/

theorem insert_of_pieces (htext : line.text = front ++ back)
    (hcursor : line.cursor = front.length) (s : List Char) :
    line.insert s =
      { line with text := front ++ (s ++ back), cursor := (front ++ s).length } := by
  rw [insert, htext, hcursor, Span.replace_empty, List.length_append, Int.natCast_add]

theorem forward_of_pieces (htext : line.text = front ++ c :: back)
    (hcursor : line.cursor = front.length) :
    line.forward = { line with cursor := (front ++ [c]).length } := by
  have hlength : line.length = front.length + (back.length + 1) := by
    rw [length, htext, List.length_append, List.length_cons]
  have hnext : min (line.cursor + 1) (line.length : Int) = (front ++ [c]).length := by
    rw [List.length_append, List.length_singleton]
    omega
  rw [forward, hnext]

end Line

end LineEditor
