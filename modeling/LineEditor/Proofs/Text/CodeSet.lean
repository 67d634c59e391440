import LineEditor.Proofs.Text.Table
import LineEditor.Text.Case

/-!
# The code points of a case mapping

A mapping changes the code points on its runs and those that have an expansion, and makes others
from them. Neither mapping makes a code point that it changes, nor a separator of words.

To compare tables of more than a thousand code points they are read as sets of bits: two of them
have a code point in common if and only if some bit is set in both numbers.
-/

namespace LineEditor.Text

variable {runs : List CaseRun} {expansions : List (Nat × List Nat)} {run : CaseRun} {n : Nat}
  {c d : Char}

/-! ## Runs -/

/-- The code points on a run. -/
def CaseRun.codes (run : CaseRun) : List Nat :=
  List.range' run.first ((run.last - run.first) / run.step + 1) run.step

/-- The code points that they are mapped to. -/
def CaseRun.images (run : CaseRun) : List Nat :=
  List.range' run.target ((run.last - run.first) / run.step + 1) run.step

theorem CaseRun.exists_index (h : run.covers n = true) :
    ∃ i < (run.last - run.first) / run.step + 1, n = run.first + run.step * i := by
  rw [covers, Bool.and_eq_true, Bool.and_eq_true, decide_eq_true_eq, decide_eq_true_eq,
    beq_iff_eq] at h
  obtain ⟨⟨hfirst, hlast⟩, hstep⟩ := h
  have hdiv := Nat.div_add_mod (n - run.first) run.step
  refine ⟨(n - run.first) / run.step, ?_, by omega⟩
  have hle : n - run.first ≤ run.last - run.first := by omega
  exact Nat.lt_succ_of_le (Nat.div_le_div_right hle)

theorem CaseRun.mem_codes (h : run.covers n = true) : n ∈ run.codes :=
  List.mem_range'.2 (exists_index h)

theorem CaseRun.map_mem_images (h : run.covers n = true) : run.map n ∈ run.images := by
  obtain ⟨i, hi, rfl⟩ := exists_index h
  rw [map, Nat.add_sub_cancel_left]
  exact List.mem_range'.2 ⟨i, hi, rfl⟩

/-! ## Mappings -/

/-- The code points that a mapping changes. -/
def changedCodes (runs : List CaseRun) (expansions : List (Nat × List Nat)) : List Nat :=
  runs.flatMap CaseRun.codes ++ expansions.map Prod.fst

/-- The code points that it makes of them. -/
def imageCodes (runs : List CaseRun) (expansions : List (Nat × List Nat)) : List Nat :=
  runs.flatMap CaseRun.images ++ expansions.flatMap Prod.snd

theorem mapCase_of_notMem (h : c.toNat ∉ changedCodes runs expansions) :
    mapCase runs expansions c = [c] := by
  rw [changedCodes, List.mem_append, not_or, List.mem_map, List.mem_flatMap] at h
  obtain ⟨hruns, hexpansions⟩ := h
  unfold mapCase
  cases hlookup : expansions.lookup c.toNat with
  | some codes => exact absurd ⟨_, mem_of_lookup hlookup, rfl⟩ hexpansions
  | none =>
    cases hrun : runs.find? (·.covers c.toNat) with
    | some run =>
      have hcovers := List.find?_some hrun
      exact absurd ⟨run, List.mem_of_find?_eq_some hrun, CaseRun.mem_codes hcovers⟩ hruns
    | none => rfl

/-- A mapping either leaves a character as it is or makes others of it. -/
theorem mem_mapCase (h : d ∈ mapCase runs expansions c) :
    (mapCase runs expansions c = [c] ∧ d = c) ∨
      c.toNat ∈ changedCodes runs expansions ∧
        ∃ n ∈ imageCodes runs expansions, d = Char.ofNat n := by
  unfold changedCodes imageCodes
  unfold mapCase at h ⊢
  cases hlookup : expansions.lookup c.toNat with
  | some codes =>
    rw [hlookup] at h
    obtain ⟨n, hn, rfl⟩ := List.mem_map.1 h
    have hentry := mem_of_lookup hlookup
    refine Or.inr ⟨List.mem_append_right _ (List.mem_map.2 ⟨_, hentry, rfl⟩), n, ?_, rfl⟩
    exact List.mem_append_right _ (List.mem_flatMap.2 ⟨_, hentry, hn⟩)
  | none =>
    rw [hlookup] at h
    cases hrun : runs.find? (·.covers c.toNat) with
    | some run =>
      rw [hrun] at h
      have hmem := List.mem_of_find?_eq_some hrun
      have hcovers := List.find?_some hrun
      refine Or.inr ⟨List.mem_append_left _ (List.mem_flatMap.2 ⟨run, hmem, ?_⟩), _, ?_,
        List.mem_singleton.1 h⟩
      · exact CaseRun.mem_codes hcovers
      · refine List.mem_append_left _ (List.mem_flatMap.2 ⟨run, hmem, ?_⟩)
        exact CaseRun.map_mem_images hcovers
    | none =>
      rw [hrun] at h
      exact Or.inl ⟨rfl, List.mem_singleton.1 h⟩

theorem forall_mem_changedCodes {p : Nat → Prop} (hruns : ∀ run ∈ runs, ∀ n ∈ run.codes, p n)
    (hexpansions : ∀ entry ∈ expansions, p entry.1) :
    ∀ n ∈ changedCodes runs expansions, p n := by
  intro n hn
  rcases List.mem_append.1 hn with hn | hn
  · obtain ⟨run, hrun, hcode⟩ := List.mem_flatMap.1 hn
    exact hruns run hrun n hcode
  · obtain ⟨entry, hentry, rfl⟩ := List.mem_map.1 hn
    exact hexpansions entry hentry

theorem forall_mem_imageCodes {p : Nat → Prop} (hruns : ∀ run ∈ runs, ∀ n ∈ run.images, p n)
    (hexpansions : ∀ entry ∈ expansions, ∀ n ∈ entry.2, p n) :
    ∀ n ∈ imageCodes runs expansions, p n := by
  intro n hn
  rcases List.mem_append.1 hn with hn | hn
  · obtain ⟨run, hrun, hcode⟩ := List.mem_flatMap.1 hn
    exact hruns run hrun n hcode
  · obtain ⟨entry, hentry, hcode⟩ := List.mem_flatMap.1 hn
    exact hexpansions entry hentry n hcode

/-! ## Sets of bits -/

/-- The number with a bit for each of the code points. -/
def bitsOf : List Nat → Nat
  | [] => 0
  | n :: codes => 1 <<< n ||| bitsOf codes

theorem testBit_bitsOf {codes : List Nat} : (bitsOf codes).testBit n = true ↔ n ∈ codes := by
  induction codes with
  | nil => simp [bitsOf]
  | cons m codes ih =>
    rw [bitsOf, Nat.one_shiftLeft, Nat.testBit_or, Nat.testBit_two_pow, Bool.or_eq_true,
      decide_eq_true_eq, ih, List.mem_cons, eq_comm]

theorem notMem_of_bitsOf {codes others : List Nat} (h : bitsOf codes &&& bitsOf others = 0)
    (hn : n ∈ codes) : n ∉ others := by
  intro hother
  have hbit := congrArg (Nat.testBit · n) h
  rw [Nat.testBit_and, testBit_bitsOf.2 hn, testBit_bitsOf.2 hother, Nat.zero_testBit] at hbit
  cases hbit

theorem bitsOf_append (codes others : List Nat) :
    bitsOf (codes ++ others) = bitsOf codes ||| bitsOf others := by
  induction codes with
  | nil => exact (Nat.zero_or _).symm
  | cons n codes ih => rw [List.cons_append, bitsOf, bitsOf, ih, Nat.or_assoc]

/-- The numbers of the runs are put together one by one, so that none is computed in many steps. -/
theorem bitsOf_flatMap_append (codes : CaseRun → List Nat) (runs : List CaseRun)
    (others : List Nat) : bitsOf (runs.flatMap codes ++ others) =
      runs.foldr (fun run bits => bitsOf (codes run) ||| bits) (bitsOf others) := by
  induction runs with
  | nil => rfl
  | cons run runs ih =>
    rw [List.flatMap_cons, List.append_assoc, bitsOf_append, ih, List.foldr_cons]

/-! ## Mappings that settle -/

/-- A mapping that leaves what it makes as it is. It does not change the first code points, nor make
any of them; past the semicolon there are no separators of words. -/
structure Settles (runs : List CaseRun) (expansions : List (Nat × List Nat)) : Prop where
  image_notMem : ∀ n ∈ imageCodes runs expansions, n ∉ changedCodes runs expansions
  image_valid : ∀ n ∈ imageCodes runs expansions, ';'.toNat < n ∧ n.isValidChar
  changed_gt : ∀ n ∈ changedCodes runs expansions, ';'.toNat < n

theorem settles_upper : Settles upperRuns upperExpansions := by
  refine ⟨fun _ => notMem_of_bitsOf ?_, forall_mem_imageCodes ?_ ?_, forall_mem_changedCodes ?_ ?_⟩
  · rw [imageCodes, changedCodes, bitsOf_flatMap_append, bitsOf_flatMap_append]
    decide +kernel
  all_goals decide +kernel

theorem settles_lower : Settles lowerRuns lowerExpansions := by
  refine ⟨fun _ => notMem_of_bitsOf ?_, forall_mem_imageCodes ?_ ?_, forall_mem_changedCodes ?_ ?_⟩
  · rw [imageCodes, changedCodes, bitsOf_flatMap_append, bitsOf_flatMap_append]
    decide +kernel
  all_goals decide +kernel

/-- The small sigmas are not among the code points that mapping to lower case changes. -/
theorem sigma_notMem :
    ∀ n ∈ ['ς'.toNat, 'σ'.toNat], n ∉ changedCodes lowerRuns lowerExpansions := by
  intro n hn
  refine notMem_of_bitsOf ?_ hn
  rw [changedCodes, bitsOf_flatMap_append]
  decide +kernel

theorem toNat_ofNat (h : n.isValidChar) : (Char.ofNat n).toNat = n := by
  rw [Char.ofNat, dif_pos h]
  rfl

namespace Settles

theorem mapCase_of_mem (h : Settles runs expansions) (hd : d ∈ mapCase runs expansions c) :
    mapCase runs expansions d = [d] := by
  rcases mem_mapCase hd with ⟨hc, rfl⟩ | ⟨-, n, hn, rfl⟩
  · exact hc
  · refine mapCase_of_notMem ?_
    rw [toNat_ofNat (h.image_valid n hn).2]
    exact h.image_notMem n hn

theorem mapCase_of_le (h : Settles runs expansions) (hc : c.toNat ≤ ';'.toNat) :
    mapCase runs expansions c = [c] :=
  mapCase_of_notMem fun hchanged => absurd (h.changed_gt _ hchanged) (Nat.not_lt.2 hc)

/-- A separator is left as it is, and none is made. -/
theorem mem_mapCase (h : Settles runs expansions) (hd : d ∈ mapCase runs expansions c) :
    d = c ∨ ';'.toNat < c.toNat ∧ ';'.toNat < d.toNat := by
  rcases Text.mem_mapCase hd with ⟨-, rfl⟩ | ⟨hc, n, hn, rfl⟩
  · exact Or.inl rfl
  · obtain ⟨hgt, hvalid⟩ := h.image_valid n hn
    rw [toNat_ofNat hvalid]
    exact Or.inr ⟨h.changed_gt _ hc, hgt⟩

end Settles

end LineEditor.Text
