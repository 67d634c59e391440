import LineEditor.Text.Blank
import Mathlib.Data.List.DropRight

/-!
# Trimming a text

A text is blanks, what trimming leaves of it, and blanks; what is left begins and ends with no
blank, and nothing is left only of a text of blanks. The two ends are trimmed independently, so it
does not matter which is trimmed first, and trimming again changes nothing.
-/

namespace LineEditor.Text

variable {c : Char} {s : List Char}

theorem trimLeft_cons_of_blank (h : isBlank c = true) (s : List Char) :
    trimLeft (c :: s) = trimLeft s :=
  List.dropWhile_cons_of_pos h

theorem trimLeft_cons_of_not_blank (h : ¬ isBlank c = true) (s : List Char) :
    trimLeft (c :: s) = c :: s :=
  List.dropWhile_cons_of_neg h

/-- Trimmed at its end, a text loses its first character only if that is a blank before blanks. -/
theorem trimRight_cons (c : Char) (s : List Char) :
    trimRight (c :: s) = if trimRight s = [] ∧ isBlank c = true then [] else c :: trimRight s := by
  have hrest : (s.reverse.dropWhile isBlank).isEmpty = true ↔ trimRight s = [] := by
    rw [trimRight, List.reverse_eq_nil_iff, List.isEmpty_iff]
  rw [trimRight, List.reverse_cons, List.dropWhile_append]
  by_cases hnil : trimRight s = []
  · rw [if_pos (hrest.2 hnil), hnil]
    by_cases hc : isBlank c = true
    · rw [List.dropWhile_cons_of_pos hc, if_pos ⟨rfl, hc⟩]
      rfl
    · rw [List.dropWhile_cons_of_neg hc, if_neg fun h => hc h.2]
      rfl
  · rw [if_neg (mt hrest.1 hnil), if_neg fun h => hnil h.1, List.reverse_concat]
    rfl

/-- The two ends can be trimmed in either order. -/
theorem trimLeft_trimRight (s : List Char) : trimLeft (trimRight s) = trimRight (trimLeft s) := by
  induction s with
  | nil => rfl
  | cons c s ih =>
    by_cases hc : isBlank c = true
    · rw [trimLeft_cons_of_blank hc, ← ih, trimRight_cons]
      split
      · rename_i hblank
        rw [hblank.1]
      · exact trimLeft_cons_of_blank hc _
    · rw [trimLeft_cons_of_not_blank hc, trimRight_cons, if_neg fun h => hc h.2,
        trimLeft_cons_of_not_blank hc]

theorem trimLeft_trimLeft (s : List Char) : trimLeft (trimLeft s) = trimLeft s :=
  List.dropWhile_idempotent isBlank s

theorem trimRight_trimRight (s : List Char) : trimRight (trimRight s) = trimRight s :=
  List.rdropWhile_idempotent isBlank s

theorem trim_eq (s : List Char) : trim s = trimRight (trimLeft s) :=
  trimLeft_trimRight s

theorem trim_trim (s : List Char) : trim (trim s) = trim s := by
  rw [trim, trim, ← trimLeft_trimRight (trimRight s), trimLeft_trimLeft, trimRight_trimRight]

/-! ## What trimming takes off -/

/-- Only blanks are taken off, at the two ends. -/
theorem exists_blanks_trim (s : List Char) :
    ∃ front back, s = front ++ (trim s ++ back) ∧ (∀ c ∈ front, isBlank c = true) ∧
      ∀ c ∈ back, isBlank c = true := by
  refine ⟨(trimRight s).takeWhile isBlank, s.rtakeWhile isBlank, ?_,
    fun c hc => List.mem_takeWhile_imp hc, fun c hc => List.mem_rtakeWhile_imp hc⟩
  have hleft : (trimRight s).takeWhile isBlank ++ trim s = trimRight s :=
    List.takeWhile_append_dropWhile
  have hright : trimRight s ++ s.rtakeWhile isBlank = s := List.rdropWhile_append_rtakeWhile
  rw [← List.append_assoc, hleft, hright]

theorem not_blank_of_mem_head?_trim (h : c ∈ (trim s).head?) : isBlank c = false := by
  have hhead := List.head?_dropWhile_not isBlank (trimRight s)
  rw [show (trimRight s).dropWhile isBlank = trim s from rfl, h] at hhead
  exact hhead

theorem not_blank_of_mem_getLast?_trim (h : c ∈ (trim s).getLast?) : isBlank c = false := by
  rw [trim_eq] at h
  obtain ⟨hne, rfl⟩ := List.mem_getLast?_eq_getLast h
  exact Bool.eq_false_iff.2 (List.rdropWhile_last_not isBlank (trimLeft s) hne)

/-- Nothing is left of a text of blanks, and of no other text. -/
theorem trim_eq_nil_iff (s : List Char) : trim s = [] ↔ ∀ c ∈ s, isBlank c = true := by
  constructor
  · intro hnil c hc
    obtain ⟨front, back, htext, hfront, hback⟩ := exists_blanks_trim s
    rw [hnil, List.nil_append] at htext
    rw [htext, List.mem_append] at hc
    rcases hc with hc | hc
    · exact hfront c hc
    · exact hback c hc
  · intro hblank
    have hright : trimRight s = [] := List.rdropWhile_eq_nil_iff.2 hblank
    rw [trim, hright]
    rfl

end LineEditor.Text
