import LineEditor.Proofs.Line.Deleting
import LineEditor.Proofs.Line.RepeatedEdits
import LineEditor.Proofs.Text.Trimming

/-!
# Truncating and trimming a line

Truncating and trimming change the whole line and bring the cursor and the mark back onto it. Where
one such change follows another and the line gets no longer, bringing them back once, at the end, is
enough. So the amounts by which a line is truncated add up, and what holds of trimming a text holds
of trimming a line, with its cursor and its mark.
-/

namespace LineEditor.Line

/-- What is left of a line when the blanks at both ends are taken off: the same line with what lies
between them as its text, which begins and ends with no blank and is empty only if all the line is
blank, and with a cursor and a mark that are at most at its end. -/
structure TrimsTo (line trimmed : Line) : Prop where
  exists_blanks : ∃ front back, line.text = front ++ (trimmed.text ++ back) ∧
    (∀ c ∈ front, Text.isBlank c = true) ∧ ∀ c ∈ back, Text.isBlank c = true
  not_blank_head : ∀ c ∈ trimmed.text.head?, Text.isBlank c = false
  not_blank_last : ∀ c ∈ trimmed.text.getLast?, Text.isBlank c = false
  eq_nil_iff : trimmed.text = [] ↔ ∀ c ∈ line.text, Text.isBlank c = true
  eq_line : trimmed = { line with
    text := trimmed.text
    cursor := min line.cursor trimmed.length
    mark := line.mark.map fun m : Int => min m trimmed.length }

variable {line : Line} {f g : List Char → List Char}

/-! ## One change after another -/

theorem modifyText_congr (h : f line.text = g line.text) :
    line.modifyText f = line.modifyText g := by
  rw [modifyText, modifyText, h]

/-- A place brought onto the line and then onto a shorter one is brought onto that. -/
theorem modifyText_comp (h : (g (f line.text)).length ≤ (f line.text).length) :
    (line.modifyText f).modifyText g = line.modifyText (g ∘ f) := by
  have hplace : ∀ p : Int,
      max 0 (min (max 0 (min p (f line.text).length)) (g (f line.text)).length) =
        max 0 (min p (g (f line.text)).length) := by
    intro p
    omega
  simp only [modifyText, clamp, length, Option.map_map, Function.comp_def, hplace]

/-! ## Truncating -/

/-- The amounts by which a line is truncated add up, also beyond its length. -/
theorem truncateBy_truncateBy (a b : Nat) (line : Line) :
    (line.truncateBy a).truncateBy b = line.truncateBy (a + b) := by
  have hlength : (line.truncateBy a).length = line.length - a := by
    show (line.text.take (line.length - a)).length = line.length - a
    exact List.length_take_of_le (Nat.sub_le line.length a)
  have hamount : ((a : Int) + b).toNat = a + b := by omega
  rw [truncateBy, hlength, truncateBy, truncateBy, hamount,
    modifyText_comp (List.length_take_le' _ _)]
  refine modifyText_congr ?_
  show (line.text.take (line.length - a)).take (line.length - a - b) = _
  rw [List.take_take, Nat.min_eq_left (Nat.sub_le _ b), Nat.sub_sub]

/-- Truncating leaves the text that deleting as many characters at the end does. -/
theorem text_truncateBy (a : Nat) (line : Line) :
    (line.truncateBy a).text = (deleteBack^[a] line.toEnd).text := by
  have hend : line.toEnd.cursor = line.length := rfl
  rw [deleteBack_iterate hend (Nat.le_refl _)]
  show line.text.take (line.length - a) =
    line.text.take (line.length - a) ++ line.text.drop line.length
  rw [length, List.drop_length, List.append_nil]

/-! ## Trimming -/

theorem trim_eq_modifyText (line : Line) : line.trim = line.modifyText Text.trim :=
  modifyText_comp (Text.trimLeft_sublist _).length_le

/-- The two ends of a line can be trimmed in either order. -/
theorem trimRight_trimLeft (line : Line) : line.trimLeft.trimRight = line.trim := by
  rw [trim_eq_modifyText, trimRight, trimLeft,
    modifyText_comp (Text.trimRight_sublist _).length_le]
  exact modifyText_congr (Text.trim_eq line.text).symm

theorem trim_trim (line : Line) : line.trim.trim = line.trim := by
  rw [trim_eq_modifyText line.trim, trim_eq_modifyText line,
    modifyText_comp (Text.trim_sublist _).length_le]
  exact modifyText_congr (Text.trim_trim line.text)

/-- On a line in bounds only a cursor or a mark past the new end has to come back. -/
theorem InBounds.modifyText_eq (h : line.InBounds) (f : List Char → List Char) :
    line.modifyText f =
      { line with
        text := f line.text
        cursor := min line.cursor (f line.text).length
        mark := line.mark.map fun m : Int => min m (f line.text).length } := by
  have hcursor : max 0 (min line.cursor (f line.text).length) =
      min line.cursor (f line.text).length := by
    have h0 := h.cursor_nonneg
    omega
  have hmark : line.mark.map (fun m : Int => max 0 (min m (f line.text).length)) =
      line.mark.map fun m : Int => min m (f line.text).length := by
    refine Option.map_congr fun m hm => ?_
    have h0 := h.mark_nonneg m hm
    omega
  rw [modifyText, clamp]
  simp only [length, hcursor, hmark]

theorem InBounds.trimsTo_trim (h : line.InBounds) : line.TrimsTo line.trim := by
  have htrim : line.trim = _ := line.trim_eq_modifyText.trans (h.modifyText_eq Text.trim)
  rw [htrim]
  exact {
    exists_blanks := Text.exists_blanks_trim line.text
    not_blank_head := fun c hc => Text.not_blank_of_mem_head?_trim hc
    not_blank_last := fun c hc => Text.not_blank_of_mem_getLast?_trim hc
    eq_nil_iff := Text.trim_eq_nil_iff line.text
    eq_line := rfl }

end LineEditor.Line
