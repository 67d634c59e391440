import LineEditor.Proofs.Line.Sides
import Mathlib.Logic.Function.Iterate

/-!
# Edits so many times over

Moving by characters, deleting and inserting, each repeated: the cursor goes so many characters on,
so many characters are deleted, and the same text is inserted so many times over. At either end of
the line the motions and the deletions do nothing more, so where there are too few characters,
repeating goes as far as that end.
-/

namespace LineEditor.Line

variable {line : Line} {p : Nat}

/-! ## Moving -/

theorem forward_iterate (hcursor : line.cursor = p) (hp : p ≤ line.length) (n : Nat) :
    forward^[n] line = { line with cursor := (min (p + n) line.length : Nat) } := by
  induction n with
  | zero =>
    rw [Nat.add_zero, Nat.min_eq_left hp, ← hcursor]
    rfl
  | succ n ih =>
    have hnext : min ((min (p + n) line.length : Nat) + 1 : Int) line.length =
        (min (p + (n + 1)) line.length : Nat) := by omega
    rw [Function.iterate_succ_apply', ih, ← hnext]
    rfl

theorem back_iterate (hcursor : line.cursor = p) (n : Nat) :
    back^[n] line = { line with cursor := (p - n : Nat) } := by
  induction n with
  | zero =>
    rw [Nat.sub_zero, ← hcursor]
    rfl
  | succ n ih =>
    have hnext : max 0 ((p - n : Nat) - 1 : Int) = (p - (n + 1) : Nat) := by omega
    rw [Function.iterate_succ_apply', ih, ← hnext]
    rfl

/-! ## Deleting -/

/-- Deleting at the cursor leaves out the next character, if there is one. -/
theorem delete_eq (hcursor : line.cursor = p) (hp : p ≤ line.length) :
    line.delete = { line with text := line.text.take p ++ line.text.drop (p + 1) } := by
  rw [delete, hcursor, offset_natCast, Nat.min_eq_left hp, List.eraseIdx_eq_take_drop_succ]

theorem delete_iterate (hcursor : line.cursor = p) (hp : p ≤ line.length) (n : Nat) :
    delete^[n] line = { line with text := line.text.take p ++ line.text.drop (p + n) } := by
  have hfront : (line.text.take p).length = p := List.length_take_of_le hp
  induction n with
  | zero =>
    rw [Nat.add_zero, List.take_append_drop]
    rfl
  | succ n ih =>
    let left : Line := { line with text := line.text.take p ++ line.text.drop (p + n) }
    have hplace : left.cursor = p := hcursor
    have hleft : p ≤ left.length := by
      show p ≤ (line.text.take p ++ line.text.drop (p + n)).length
      rw [List.length_append]
      omega
    have htake : left.text.take p = line.text.take p := List.take_left' hfront
    have hdrop : left.text.drop (p + 1) = line.text.drop (p + (n + 1)) := by
      rw [← List.drop_drop, List.drop_left' hfront, List.drop_drop, Nat.add_assoc]
    rw [Function.iterate_succ_apply', ih]
    show left.delete = _
    rw [delete_eq hplace hleft, htake, hdrop]

/-- Deleting before the cursor leaves out the last character there, if there is one. -/
theorem deleteBack_eq (hcursor : line.cursor = p) :
    line.deleteBack =
      { line with
        text := line.text.take (p - 1) ++ line.text.drop p
        cursor := (p - 1 : Nat) } := by
  cases p with
  | zero =>
    rw [deleteBack, if_pos (show line.cursor ≤ 0 by omega), Nat.zero_sub, List.take_zero,
      List.nil_append, List.drop_zero, ← hcursor]
  | succ p =>
    have hplace : line.cursor - 1 = p := by omega
    rw [deleteBack, if_neg (by omega), hplace, Int.toNat_natCast, List.eraseIdx_eq_take_drop_succ,
      Nat.add_sub_cancel]

theorem deleteBack_iterate (hcursor : line.cursor = p) (hp : p ≤ line.length) (n : Nat) :
    deleteBack^[n] line =
      { line with
        text := line.text.take (p - n) ++ line.text.drop p
        cursor := (p - n : Nat) } := by
  induction n with
  | zero =>
    rw [Nat.sub_zero, List.take_append_drop, ← hcursor]
    rfl
  | succ n ih =>
    let left : Line :=
      { line with
        text := line.text.take (p - n) ++ line.text.drop p
        cursor := (p - n : Nat) }
    have hplace : left.cursor = (p - n : Nat) := rfl
    have hfront : (line.text.take (p - n)).length = p - n :=
      List.length_take_of_le (Nat.le_trans (Nat.sub_le p n) hp)
    have htake : left.text.take (p - n - 1) = line.text.take (p - (n + 1)) := by
      rw [List.take_append_of_le_length (by omega), List.take_take, Nat.min_eq_left (by omega),
        Nat.sub_sub]
    have hdrop : left.text.drop (p - n) = line.text.drop p := List.drop_left' hfront
    rw [Function.iterate_succ_apply', ih]
    show left.deleteBack = _
    rw [deleteBack_eq hplace, htake, hdrop, Nat.sub_sub]

/-- Where nothing is left to delete, the line ends at the cursor, as after killing what follows. -/
theorem delete_iterate_of_le (hcursor : line.cursor = p) (hp : p ≤ line.length) {n : Nat}
    (hn : line.length ≤ p + n) : delete^[n] line = line.removeAfter := by
  have hwithin : Span.Within ⟨line.cursor, line.length⟩ line.text.length :=
    ⟨by simp only; omega, by simp only; omega, Int.le_refl _⟩
  rw [delete_iterate hcursor hp, List.drop_of_length_le hn, removeAfter, remove,
    hwithin.replace_eq]
  dsimp only
  rw [hcursor, Int.toNat_natCast, Int.toNat_natCast, length, List.drop_length, List.nil_append]

/-! ## Inserting -/

/-- Inserting puts the text between what is before the cursor and what is after it. -/
theorem insert_eq (hcursor : line.cursor = p) (hp : p ≤ line.length) (s : List Char) :
    line.insert s =
      { line with
        text := line.text.take p ++ (s ++ line.text.drop p)
        cursor := (p + s.length : Nat) } := by
  have hfront : (line.text.take p).length = p := List.length_take_of_le hp
  rw [insert_of_pieces (List.take_append_drop p line.text).symm (hfront.symm ▸ hcursor),
    List.length_append, hfront]

/-- Texts inserted one after the other stand there as one. -/
theorem insert_insert (hcursor : line.cursor = p) (hp : p ≤ line.length) (s t : List Char) :
    (line.insert s).insert t = line.insert (s ++ t) := by
  have hfront : (line.text.take p).length = p := List.length_take_of_le hp
  have hpieces : (line.insert s).text = (line.text.take p ++ s) ++ line.text.drop p := by
    rw [insert_eq hcursor hp, List.append_assoc]
  have hplace : (line.insert s).cursor = (line.text.take p ++ s).length := by
    rw [insert_eq hcursor hp, List.length_append, hfront]
  rw [insert_of_pieces hpieces hplace, insert_eq hcursor hp, insert_eq hcursor hp]
  simp only [List.append_assoc, List.length_append, hfront]

theorem insert_iterate (hcursor : line.cursor = p) (hp : p ≤ line.length) (s : List Char)
    (n : Nat) : (insert s)^[n] line = line.insert (List.replicate n s).flatten := by
  induction n with
  | zero =>
    rw [List.replicate_zero, List.flatten_nil, insert_eq hcursor hp, List.nil_append,
      List.take_append_drop, List.length_nil, Nat.add_zero, ← hcursor]
    rfl
  | succ n ih =>
    rw [Function.iterate_succ_apply', ih, insert_insert hcursor hp, List.replicate_succ',
      List.flatten_append, List.flatten_singleton]

/-! ## Undoing an insertion -/

/-- What has been inserted stands between what was before the cursor and what was after it. -/
theorem take_drop_insert (hcursor : line.cursor = p) (hp : p ≤ line.length) (s : List Char) :
    p + s.length ≤ (line.insert s).length ∧ (line.insert s).text.take p = line.text.take p ∧
      (line.insert s).text.drop (p + s.length) = line.text.drop p := by
  have hfront : (line.text.take p).length = p := List.length_take_of_le hp
  have hback : (line.text.take p ++ s).length = p + s.length := by rw [List.length_append, hfront]
  have htext : (line.insert s).text = (line.text.take p ++ s) ++ line.text.drop p := by
    rw [insert_eq hcursor hp, List.append_assoc]
  refine ⟨?_, ?_, ?_⟩
  · rw [length, htext, List.length_append, hback]
    exact Nat.le_add_right _ _
  · rw [htext, List.append_assoc]
    exact List.take_left' hfront
  · rw [htext]
    exact List.drop_left' hback

/-- Deleting as many characters before the cursor takes back an insertion. -/
theorem deleteBack_iterate_insert (hcursor : line.cursor = p) (hp : p ≤ line.length)
    (s : List Char) : deleteBack^[s.length] (line.insert s) = line := by
  obtain ⟨hlength, htake, hdrop⟩ := take_drop_insert hcursor hp s
  have hplace : (line.insert s).cursor = (p + s.length : Nat) := by rw [insert_eq hcursor hp]
  rw [deleteBack_iterate hplace hlength, Nat.add_sub_cancel, htake, hdrop, List.take_append_drop,
    ← hcursor]
  rfl

/-- So does going back over what was inserted and deleting it from there. -/
theorem delete_iterate_back_iterate_insert (hcursor : line.cursor = p) (hp : p ≤ line.length)
    (s : List Char) : delete^[s.length] (back^[s.length] (line.insert s)) = line := by
  obtain ⟨hlength, htake, hdrop⟩ := take_drop_insert hcursor hp s
  have hplace : (line.insert s).cursor = (p + s.length : Nat) := by rw [insert_eq hcursor hp]
  let moved : Line := { line.insert s with cursor := p }
  have hmoved : back^[s.length] (line.insert s) = moved := by
    rw [back_iterate hplace, Nat.add_sub_cancel]
  have hin : p ≤ moved.length := Nat.le_trans (Nat.le_add_right _ _) hlength
  have htext : moved.text.take p ++ moved.text.drop (p + s.length) = line.text := by
    show (line.insert s).text.take p ++ (line.insert s).text.drop (p + s.length) = line.text
    rw [htake, hdrop, List.take_append_drop]
  rw [hmoved, delete_iterate rfl hin, htext]
  show { line with cursor := (p : Int) } = line
  rw [← hcursor]

end LineEditor.Line
