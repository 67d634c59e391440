import LineEditor.Line.Character
import LineEditor.Proofs.Command.Pairs

/-!
# Translating one string into another

What a character becomes by the pairs of two strings is what stands in the second one where the
character stands last in the first. Where the second string has the characters of the first in
another order, and none of them twice, translating back restores every character.
-/

namespace LineEditor.Line

variable {s t : List Char} {c d : Char} {j : Nat}

theorem translateChar_pairUp (s t : List Char) (c : Char) :
    translateChar (pairUp s t) c = ((s.zip t).reverse.lookup c).getD c := by
  rw [translateChar, lookup_reverse (nodup_keys_pairUp s t), lookup_pairUp]

theorem translateChar_of_not_mem (h : c ∉ s) (t : List Char) :
    translateChar (pairUp s t) c = c := by
  have hlookup : (s.zip t).reverse.lookup c = none := by
    refine List.lookup_eq_none_iff.2 fun p hp => ?_
    rw [bne_iff_ne]
    rintro rfl
    exact h (List.of_mem_zip (List.mem_reverse.1 hp)).1
  rw [translateChar_pairUp, hlookup, Option.getD_none]

/-- The last place where a character stands in the first string counts. -/
theorem translateChar_of_last (hs : s[j]? = some c) (ht : t[j]? = some d)
    (hlast : c ∉ s.drop (j + 1)) : translateChar (pairUp s t) c = d := by
  have hpair : (s.zip t)[j]? = some (c, d) := List.getElem?_zip_eq_some.2 ⟨hs, ht⟩
  obtain ⟨hj, hget⟩ := List.getElem?_eq_some_iff.1 hpair
  have hsplit : (s.zip t).reverse =
      ((s.zip t).drop (j + 1)).reverse ++ (c, d) :: ((s.zip t).take j).reverse := by
    rw [← hget, ← List.reverse_concat, ← List.reverse_append, List.append_assoc,
      List.singleton_append, List.getElem_cons_drop, List.take_append_drop]
  have hlookup : (s.zip t).reverse.lookup c = some d := by
    refine List.lookup_eq_some_iff.2 ⟨_, _, hsplit, fun p hp => ?_⟩
    rw [bne_iff_ne]
    rintro rfl
    rw [List.mem_reverse, List.zip_eq_zipWith, List.drop_zipWith, ← List.zip_eq_zipWith] at hp
    exact hlast (List.of_mem_zip hp).1
  rw [translateChar_pairUp, hlookup, Option.getD_some]

/-! ## Translating back -/

theorem not_mem_drop_of_nodup (h : s.Nodup) (hs : s[j]? = some c) : c ∉ s.drop (j + 1) := by
  obtain ⟨hj, rfl⟩ := List.getElem?_eq_some_iff.1 hs
  have hdrop : (s.drop j).Nodup := h.sublist (List.drop_sublist j s)
  rw [List.drop_eq_getElem_cons hj] at hdrop
  exact (List.nodup_cons.1 hdrop).1

/-- A character that is in the strings comes back from where it was sent, and no other one was sent
anywhere. -/
theorem translateChar_translateChar (h : s.Nodup) (hperm : s.Perm t) (c : Char) :
    translateChar (pairUp t s) (translateChar (pairUp s t) c) = c := by
  by_cases hc : c ∈ s
  · obtain ⟨j, hj, rfl⟩ := List.mem_iff_getElem.1 hc
    have hj' : j < t.length := hperm.length_eq ▸ hj
    have hs : s[j]? = some s[j] := List.getElem?_eq_getElem hj
    have ht : t[j]? = some t[j] := List.getElem?_eq_getElem hj'
    rw [translateChar_of_last hs ht (not_mem_drop_of_nodup h hs),
      translateChar_of_last ht hs (not_mem_drop_of_nodup (hperm.nodup h) ht)]
  · rw [translateChar_of_not_mem hc, translateChar_of_not_mem fun ht => hc (hperm.mem_iff.2 ht)]

theorem translate_translate (h : s.Nodup) (hperm : s.Perm t) (line : Line) :
    (line.translate (pairUp s t)).translate (pairUp t s) = line := by
  have hmap : (line.text.map (translateChar (pairUp s t))).map (translateChar (pairUp t s)) =
      line.text := by
    rw [List.map_map]
    exact List.map_id'' (translateChar_translateChar h hperm) line.text
  simp only [translate, hmap]

end LineEditor.Line
