import LineEditor.Proofs.Text.CodeSet

/-!
# Case mapping

No character vanishes in a case mapping, and no newline appears in one, since nothing but a newline
is mapped to it.
-/

namespace LineEditor.Text

/-- A mapping whose expansions are not empty makes no character vanish. -/
theorem mapCase_ne_nil {runs : List CaseRun} {expansions : List (Nat × List Nat)}
    (h : ∀ entry ∈ expansions, entry.2 ≠ []) (c : Char) : mapCase runs expansions c ≠ [] := by
  unfold mapCase
  cases hlookup : expansions.lookup c.toNat with
  | some codes =>
    have hcodes := h (c.toNat, codes) (mem_of_lookup hlookup)
    simpa using hcodes
  | none =>
    cases hrun : runs.find? (·.covers c.toNat) with
    | some run => simp
    | none => simp

theorem upcaseChar_ne_nil (c : Char) : upcaseChar c ≠ [] :=
  mapCase_ne_nil (by decide) c

theorem downcaseChar_ne_nil (c : Char) : downcaseChar c ≠ [] :=
  mapCase_ne_nil (by decide) c

theorem upcase_append (s t : List Char) : upcase (s ++ t) = upcase s ++ upcase t :=
  List.flatMap_append

/-! ## Newlines -/

theorem Settles.newline_notMem {runs : List CaseRun} {expansions : List (Nat × List Nat)}
    (h : Settles runs expansions) {c : Char} (hc : c ≠ '\n') :
    '\n' ∉ mapCase runs expansions c := by
  intro hmem
  rcases h.mem_mapCase hmem with heq | ⟨-, hgt⟩
  · exact hc heq.symm
  · exact absurd hgt (by decide)

theorem newline_notMem_upcaseChar {c : Char} (hc : c ≠ '\n') : '\n' ∉ upcaseChar c :=
  settles_upper.newline_notMem hc

theorem newline_notMem_downcaseChar {c : Char} (hc : c ≠ '\n') : '\n' ∉ downcaseChar c :=
  settles_lower.newline_notMem hc

theorem newline_notMem_upcase {s : List Char} (hs : '\n' ∉ s) : '\n' ∉ upcase s := by
  intro hmem
  obtain ⟨c, hc, hnewline⟩ := List.mem_flatMap.1 hmem
  have hne : c ≠ '\n' := by
    rintro rfl
    exact hs hc
  exact newline_notMem_upcaseChar hne hnewline

theorem newline_notMem_downcaseAfter (before : List Char) {s : List Char} (hs : '\n' ∉ s) :
    '\n' ∉ downcaseAfter before s := by
  induction s generalizing before with
  | nil => exact List.not_mem_nil
  | cons c rest ih =>
    have hc : c ≠ '\n' := (List.ne_of_not_mem_cons hs).symm
    have hrest : '\n' ∉ rest := List.not_mem_of_not_mem_cons hs
    intro hmem
    rcases List.mem_append.1 hmem with hfirst | hothers
    · split at hfirst
      · -- Either small sigma is another character.
        split at hfirst <;> exact absurd (List.mem_singleton.1 hfirst) (by decide)
      · exact newline_notMem_downcaseChar hc hfirst
    · exact ih (c :: before) hrest hothers

theorem newline_notMem_downcase {s : List Char} (hs : '\n' ∉ s) : '\n' ∉ downcase s :=
  newline_notMem_downcaseAfter [] hs

theorem newline_notMem_capitalize {s : List Char} (hs : '\n' ∉ s) : '\n' ∉ capitalize s := by
  cases s with
  | nil => exact hs
  | cons c rest =>
    have hc : c ≠ '\n' := (List.ne_of_not_mem_cons hs).symm
    have hrest : '\n' ∉ rest := List.not_mem_of_not_mem_cons hs
    intro hmem
    rcases List.mem_append.1 hmem with hfirst | hothers
    · exact newline_notMem_upcaseChar hc hfirst
    · exact hrest hothers

end LineEditor.Text
