import LineEditor.Command.Parser
import Mathlib.Data.List.Induction
import Mathlib.Data.List.Nodup

/-!
# Pairs of characters

Two strings of the same length are paired up by their characters, one pair for each character of the
first. So pairs that come from strings never have a character twice, and pairs that do not are what
their own characters are paired up to. Where the first string has a character twice, what it is
paired up with last counts.
-/

namespace LineEditor

/-- The characters that pairs replace. -/
def keys (pairs : List (Char × Char)) : List Char :=
  pairs.map Prod.fst

theorem setPair_of_not_mem {key : Char} {pairs : List (Char × Char)} (h : key ∉ keys pairs)
    (value : Char) : setPair key value pairs = pairs ++ [(key, value)] := by
  induction pairs with
  | nil => rfl
  | cons p pairs ih =>
    simp only [keys, List.map_cons, List.mem_cons, not_or] at h
    rw [setPair, if_neg (Ne.symm h.1), ih h.2]
    rfl

/-- A pair for a new character is the last, and no other pair changes the characters. -/
theorem keys_setPair (key value : Char) (pairs : List (Char × Char)) :
    keys (setPair key value pairs) =
      if key ∈ keys pairs then keys pairs else keys pairs ++ [key] := by
  by_cases h : key ∈ keys pairs
  · rw [if_pos h]
    induction pairs with
    | nil => cases h
    | cons p pairs ih =>
      rw [setPair]
      split
      · rfl
      · rename_i hne
        simp only [keys, List.map_cons, List.mem_cons] at h ih ⊢
        rw [ih (h.resolve_left (Ne.symm hne))]
  · rw [if_neg h, setPair_of_not_mem h]
    simp [keys]

theorem nodup_keys_setPair {pairs : List (Char × Char)} (h : (keys pairs).Nodup)
    (key value : Char) : (keys (setPair key value pairs)).Nodup := by
  rw [keys_setPair]
  split
  · exact h
  · rename_i hkey
    refine List.nodup_append.2 ⟨h, List.nodup_singleton key, ?_⟩
    rintro c hc d hd rfl
    rw [List.mem_singleton.1 hd] at hc
    exact hkey hc

theorem nodup_keys_foldl_setPair {pairs : List (Char × Char)} (h : (keys pairs).Nodup)
    (more : List (Char × Char)) :
    (keys (more.foldl (fun pairs p => setPair p.1 p.2 pairs) pairs)).Nodup := by
  induction more generalizing pairs with
  | nil => exact h
  | cons p more ih => exact ih (nodup_keys_setPair h p.1 p.2)

theorem foldl_setPair_of_nodup {pairs more : List (Char × Char)}
    (h : (keys (pairs ++ more)).Nodup) :
    more.foldl (fun pairs p => setPair p.1 p.2 pairs) pairs = pairs ++ more := by
  induction more generalizing pairs with
  | nil => simp
  | cons p more ih =>
    have hkey : p.1 ∉ keys pairs := by
      intro hmem
      simp only [keys, List.map_append, List.map_cons] at h hmem
      exact (List.nodup_append.1 h).2.2 p.1 hmem p.1 (by simp) rfl
    rw [List.foldl_cons, setPair_of_not_mem hkey, ih]
    · simp
    · simpa using h

/-- Pairs that strings are paired up to have no character twice. -/
theorem nodup_keys_pairUp (source target : List Char) : (keys (pairUp source target)).Nodup :=
  nodup_keys_foldl_setPair (show (keys []).Nodup from List.nodup_nil) _

/-- Pairs that have no character twice are what their characters are paired up to. -/
theorem pairUp_of_nodup {pairs : List (Char × Char)} (h : (keys pairs).Nodup) :
    pairUp (pairs.map Prod.fst) (pairs.map Prod.snd) = pairs := by
  have hzip : pairs = (pairs.map Prod.fst).zip (pairs.map Prod.snd) := List.zip_of_prod rfl rfl
  rw [pairUp, ← hzip]
  exact foldl_setPair_of_nodup h

/-! ## Looking up a character -/

theorem lookup_pair_cons (p : Char × Char) (pairs : List (Char × Char)) (c : Char) :
    (p :: pairs).lookup c = if c = p.1 then some p.2 else pairs.lookup c := by
  rw [List.lookup_cons]
  by_cases hc : c = p.1
  · rw [beq_iff_eq.2 hc, if_pos hc]
  · rw [beq_false_of_ne hc, if_neg hc]

/-- The pair that is set counts, wherever it stands. -/
theorem lookup_setPair (key value : Char) (pairs : List (Char × Char)) (c : Char) :
    (setPair key value pairs).lookup c = if c = key then some value else pairs.lookup c := by
  induction pairs with
  | nil => exact lookup_pair_cons (key, value) [] c
  | cons p pairs ih =>
    rw [setPair]
    split
    · rename_i hkey
      rw [lookup_pair_cons, lookup_pair_cons, hkey]
      split <;> rfl
    · rename_i hkey
      rw [lookup_pair_cons, lookup_pair_cons, ih]
      by_cases hc : c = p.1
      · have hne : c ≠ key := fun h => hkey (hc.symm.trans h)
        rw [if_pos hc, if_neg hne, if_pos hc]
      · rw [if_neg hc, if_neg hc]

/-- Of two pairs for one character the later one counts. -/
theorem lookup_pairUp (source target : List Char) (c : Char) :
    (pairUp source target).lookup c = (source.zip target).reverse.lookup c := by
  rw [pairUp]
  induction source.zip target using List.reverseRecOn with
  | nil => rfl
  | append_singleton pairs p ih =>
    rw [List.foldl_concat, lookup_setPair, ih, List.reverse_concat, lookup_pair_cons]

theorem lookup_eq_some_iff_mem {pairs : List (Char × Char)} (h : (keys pairs).Nodup) {c d : Char} :
    pairs.lookup c = some d ↔ (c, d) ∈ pairs := by
  induction pairs with
  | nil => simp
  | cons p pairs ih =>
    obtain ⟨hkey, hpairs⟩ := List.nodup_cons.1 h
    rw [lookup_pair_cons, List.mem_cons, Prod.ext_iff]
    by_cases hc : c = p.1
    · have hnot : (c, d) ∉ pairs := fun hmem => hkey (hc ▸ List.mem_map_of_mem hmem)
      simp [hc, hc ▸ hnot, eq_comm]
    · simp [hc, ih hpairs]

/-- Where no character has two pairs, it does not matter from which end they are looked up. -/
theorem lookup_reverse {pairs : List (Char × Char)} (h : (keys pairs).Nodup) (c : Char) :
    pairs.reverse.lookup c = pairs.lookup c := by
  have hreverse : (keys pairs.reverse).Nodup := by
    rw [keys, List.map_reverse]
    exact List.nodup_reverse.2 h
  refine Option.ext fun d => ?_
  rw [lookup_eq_some_iff_mem hreverse, lookup_eq_some_iff_mem h, List.mem_reverse]

end LineEditor
