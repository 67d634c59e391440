import LineEditor.Command.Keyword
import LineEditor.Proofs.Text.Table

/-!
# Keywords are told apart

No two keywords are written alike. So every keyword is found under the way it is written, and a word
that is found is written as the keyword that it is found as.
-/

namespace LineEditor

open Text (mem_of_lookup lookup_of_mem)

variable {word : List Char}

theorem nodup_keywords : keywords.Nodup := by
  decide +kernel

theorem Verb.mem_all (v : Verb) : v ∈ Verb.all := by
  cases v <;> decide

theorem Keyword.mem_all (k : Keyword) : k ∈ Keyword.all := by
  cases k <;> decide

theorem Verb.mem_table (v : Verb) : (v.keyword.toList, v) ∈ Verb.table :=
  List.mem_map_of_mem v.mem_all

theorem Keyword.mem_table (k : Keyword) : (k.spelling.toList, k) ∈ Keyword.table :=
  List.mem_map_of_mem k.mem_all

theorem Verb.keyword_mem_keywords (v : Verb) : v.keyword.toList ∈ keywords :=
  List.mem_append_left _ (List.mem_map_of_mem (f := Prod.fst) v.mem_table)

theorem Keyword.spelling_mem_keywords (k : Keyword) : k.spelling.toList ∈ keywords :=
  List.mem_append_right _ (List.mem_map_of_mem (f := Prod.fst) k.mem_table)

theorem Verb.ofKeyword?_keyword (v : Verb) : Verb.ofKeyword? v.keyword.toList = some v :=
  lookup_of_mem (List.nodup_append.1 nodup_keywords).1 v.mem_table

theorem Keyword.ofWord?_spelling (k : Keyword) : Keyword.ofWord? k.spelling.toList = some k :=
  lookup_of_mem (List.nodup_append.1 nodup_keywords).2.1 k.mem_table

theorem Verb.eq_keyword_of_ofKeyword? {v : Verb} (h : Verb.ofKeyword? word = some v) :
    word = v.keyword.toList := by
  obtain ⟨w, -, hw⟩ := List.mem_map.1 (mem_of_lookup h)
  obtain ⟨hword, rfl⟩ := Prod.mk.inj hw
  exact hword.symm

theorem Keyword.eq_spelling_of_ofWord? {k : Keyword} (h : Keyword.ofWord? word = some k) :
    word = k.spelling.toList := by
  obtain ⟨j, -, hj⟩ := List.mem_map.1 (mem_of_lookup h)
  obtain ⟨hword, rfl⟩ := Prod.mk.inj hj
  exact hword.symm

/-- No keyword that takes arguments is a command by itself. -/
theorem Verb.ofKeyword?_spelling (k : Keyword) : Verb.ofKeyword? k.spelling.toList = none := by
  rcases hlookup : Verb.ofKeyword? k.spelling.toList with _ | v
  · rfl
  · have hverb := List.mem_map_of_mem (f := Prod.fst) v.mem_table
    have hkeyword := List.mem_map_of_mem (f := Prod.fst) k.mem_table
    have hne := (List.nodup_append.1 nodup_keywords).2.2 _ hverb _ hkeyword
    exact absurd (Verb.eq_keyword_of_ofKeyword? hlookup).symm hne

end LineEditor
