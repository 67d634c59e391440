import Mathlib.Data.List.Nodup

/-!
# Tables

A table is a row of entries, each under a key. What is found under a key is an entry of the table,
and if no two entries have the same key, every entry is found.
-/

namespace LineEditor.Text

variable {κ α : Type} [BEq κ] [LawfulBEq κ] {table : List (κ × α)} {key : κ} {a : α}

theorem mem_of_lookup (h : table.lookup key = some a) : (key, a) ∈ table := by
  obtain ⟨front, back, rfl, -⟩ := List.lookup_eq_some_iff.1 h
  simp

theorem lookup_of_mem (hnodup : (table.map Prod.fst).Nodup) (h : (key, a) ∈ table) :
    table.lookup key = some a := by
  induction table with
  | nil => cases h
  | cons p table ih =>
    obtain ⟨hfirst, hothers⟩ := List.nodup_cons.1 hnodup
    rcases List.mem_cons.1 h with rfl | h
    · rw [List.lookup_cons_self]
    · have hne : (key == p.1) = false := by
        rw [beq_eq_false_iff_ne]
        rintro rfl
        exact hfirst (List.mem_map.2 ⟨_, h, rfl⟩)
      rw [List.lookup_cons, hne]
      exact ih hothers h

end LineEditor.Text
