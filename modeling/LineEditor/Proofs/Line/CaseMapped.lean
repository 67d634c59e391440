import LineEditor.Line.Word
import LineEditor.Proofs.Text.Case

/-!
# Texts whose case has been set

Setting the case of a text puts one or more characters in the place of each, all of which are
settled: setting the case again leaves them alone. They are characters of words if the character in
whose place they stand is one, so the words of the text stay, though they may become longer.
-/

namespace LineEditor

variable {settled : Char → Prop} {f : List Char → List Char} {runs : List Text.CaseRun}
  {expansions : List (Nat × List Nat)} {front front' s t : List Char} {c d : Char}

/-- A text with settled characters in the place of each character of another text. -/
inductive CaseMapped (settled : Char → Prop) : List Char → List Char → Prop where
  | nil : CaseMapped settled [] []
  | cons {c : Char} {image s t : List Char} (hne : image ≠ [])
      (himage : ∀ d ∈ image, settled d ∧ isWordChar d = isWordChar c)
      (hrest : CaseMapped settled s t) : CaseMapped settled (c :: s) (image ++ t)

namespace CaseMapped

theorem length_le (h : CaseMapped settled s t) : s.length ≤ t.length := by
  induction h with
  | nil => exact Nat.le_refl _
  | cons hne himage hrest ih =>
    have hpos := List.length_pos_iff.2 hne
    rw [List.length_cons, List.length_append]
    omega

theorem settled_of_mem (h : CaseMapped settled s t) (hd : d ∈ t) : settled d := by
  induction h with
  | nil => cases hd
  | cons hne himage hrest ih =>
    rcases List.mem_append.1 hd with hd | hd
    · exact (himage d hd).1
    · exact ih hd

theorem isWordChar_of_mem (h : CaseMapped settled [c] t) (hd : d ∈ t) :
    isWordChar d = isWordChar c := by
  cases h with
  | @cons c image s t hne himage hrest =>
    cases hrest with
    | nil =>
      rw [List.append_nil] at hd
      exact (himage d hd).2

/-- A word begins with the text if it did before. -/
theorem any_head? (h : CaseMapped settled s t) (back : List Char) :
    (t ++ back).head?.any isWordChar = (s ++ back).head?.any isWordChar := by
  cases h with
  | nil => rfl
  | @cons c image s t hne himage hrest =>
    obtain ⟨d, rest, rfl⟩ := List.exists_cons_of_ne_nil hne
    exact (himage d List.mem_cons_self).2

/-- A word ends with the text if it did before. -/
theorem any_getLast? (h : CaseMapped settled s t)
    (hfront : front.getLast?.any isWordChar = front'.getLast?.any isWordChar) :
    (front ++ t).getLast?.any isWordChar = (front' ++ s).getLast?.any isWordChar := by
  induction h generalizing front front' with
  | nil => rwa [List.append_nil, List.append_nil]
  | @cons c image s t hne himage hrest ih =>
    rw [← List.append_assoc, ← List.singleton_append, ← List.append_assoc]
    apply ih
    obtain ⟨rest, d, rfl⟩ := (List.eq_nil_or_concat' image).resolve_left hne
    rw [← List.append_assoc, List.getLast?_concat, List.getLast?_concat]
    exact (himage d (by simp)).2

end CaseMapped

/-- A function on texts that sets their case: it settles every character, and leaves a settled text
as it is. -/
structure SetsCase (f : List Char → List Char) (settled : Char → Prop) : Prop where
  maps : ∀ s, CaseMapped settled s (f s)
  keeps : ∀ s, (∀ c ∈ s, settled c) → f s = s

theorem SetsCase.idempotent (hf : SetsCase f settled) (s : List Char) : f (f s) = f s :=
  hf.keeps (f s) fun _ => (hf.maps s).settled_of_mem

/-! ## Upper and lower case -/

theorem isWordChar_of_gt (h : ';'.toNat < c.toNat) : isWordChar c = true := by
  have hne : ∀ d : Char, d.toNat ≤ ';'.toNat → c ≠ d := by
    rintro d hd rfl
    omega
  rw [isWordChar, isWordSeparator]
  simp [hne]

theorem isWordChar_of_mem_mapCase (h : Text.Settles runs expansions)
    (hd : d ∈ Text.mapCase runs expansions c) : isWordChar d = isWordChar c := by
  rcases h.mem_mapCase hd with rfl | ⟨hc, hd⟩
  · rfl
  · rw [isWordChar_of_gt hc, isWordChar_of_gt hd]

theorem setsCase_upcase : SetsCase Text.upcase fun c => Text.upcaseChar c = [c] := by
  refine ⟨fun s => ?_, fun s hs => ?_⟩
  · induction s with
    | nil => exact .nil
    | cons c s ih =>
      refine .cons (Text.upcaseChar_ne_nil c) (fun d hd => ?_) ih
      exact ⟨Text.settles_upper.mapCase_of_mem hd, isWordChar_of_mem_mapCase Text.settles_upper hd⟩
  · rw [Text.upcase, List.flatMap_congr hs, List.flatMap_singleton']

/-- Each small sigma is settled. -/
theorem settled_sigma (final : Bool) : ∀ d ∈ [if final then 'ς' else 'σ'],
    Text.downcaseChar d = [d] ∧ isWordChar d = isWordChar 'Σ' := by
  intro d hd
  rw [List.mem_singleton] at hd
  subst hd
  cases final with
  | true => exact ⟨Text.mapCase_of_notMem (Text.sigma_notMem _ (by simp)), rfl⟩
  | false => exact ⟨Text.mapCase_of_notMem (Text.sigma_notMem _ (by simp)), rfl⟩

theorem ne_sigma_of_settled (h : Text.downcaseChar c = [c]) : c ≠ 'Σ' := by
  rintro rfl
  revert h
  decide +kernel

/-- What a piece of a text becomes in lower case depends on the text on both sides of it. It is that
piece with its case set all the same, and what follows is mapped with the piece behind it. -/
theorem downcaseAfter_append (before s t : List Char) :
    ∃ lowered, CaseMapped (fun c => Text.downcaseChar c = [c]) s lowered ∧
      Text.downcaseAfter before (s ++ t) =
        lowered ++ Text.downcaseAfter (s.reverse ++ before) t := by
  induction s generalizing before with
  | nil => exact ⟨[], .nil, rfl⟩
  | cons c s ih =>
    obtain ⟨lowered, hlowered, hrest⟩ := ih (c :: before)
    rw [List.cons_append, Text.downcaseAfter, hrest, List.reverse_cons, List.append_assoc s.reverse,
      List.singleton_append, ← List.append_assoc]
    refine ⟨_, ?_, rfl⟩
    by_cases hc : c = 'Σ'
    · subst hc
      exact .cons (List.cons_ne_nil _ _) (settled_sigma _) hlowered
    · rw [if_neg hc]
      refine .cons (Text.downcaseChar_ne_nil c) (fun d hd => ?_) hlowered
      exact ⟨Text.settles_lower.mapCase_of_mem hd, isWordChar_of_mem_mapCase Text.settles_lower hd⟩

theorem caseMapped_downcaseAfter (before s : List Char) :
    CaseMapped (fun c => Text.downcaseChar c = [c]) s (Text.downcaseAfter before s) := by
  obtain ⟨lowered, hlowered, heq⟩ := downcaseAfter_append before s []
  rw [List.append_nil] at heq
  rw [heq, Text.downcaseAfter, List.append_nil]
  exact hlowered

theorem downcaseAfter_append_settled (before : List Char) (h : ∀ c ∈ s, Text.downcaseChar c = [c])
    (t : List Char) :
    Text.downcaseAfter before (s ++ t) = s ++ Text.downcaseAfter (s.reverse ++ before) t := by
  induction s generalizing before with
  | nil => rfl
  | cons c s ih =>
    obtain ⟨hc, hs⟩ := List.forall_mem_cons.1 h
    rw [List.cons_append, Text.downcaseAfter, if_neg (ne_sigma_of_settled hc), hc, ih _ hs,
      List.reverse_cons, List.append_assoc s.reverse, List.singleton_append, List.cons_append,
      List.singleton_append]

theorem downcaseAfter_of_settled (before : List Char) (h : ∀ c ∈ s, Text.downcaseChar c = [c]) :
    Text.downcaseAfter before s = s := by
  have hkept := downcaseAfter_append_settled before h []
  rwa [List.append_nil, Text.downcaseAfter, List.append_nil] at hkept

theorem setsCase_downcase : SetsCase Text.downcase fun c => Text.downcaseChar c = [c] :=
  ⟨caseMapped_downcaseAfter [], fun _ => downcaseAfter_of_settled []⟩

/-! ## Separators -/

/-- Separators have no case: all that is cased or changed comes later than the semicolon. -/
theorem caseless_of_separator (h : isWordChar c = false) :
    Text.upcaseChar c = [c] ∧ Text.downcaseChar c = [c] ∧ c.within Text.casedRanges = false := by
  have hle : c.toNat ≤ ';'.toNat := by
    by_contra hgt
    rw [isWordChar_of_gt (Nat.not_le.1 hgt)] at h
    cases h
  have hcased : ∀ range ∈ Text.casedRanges, ';'.toNat < range.1 := by decide +kernel
  refine ⟨Text.settles_upper.mapCase_of_le hle, Text.settles_lower.mapCase_of_le hle, ?_⟩
  refine List.any_eq_false.2 fun range hrange => ?_
  have hlt := hcased range hrange
  simp only [Bool.and_eq_true, decide_eq_true_eq]
  omega

/-- Whether a cased character comes first does not depend on separators at the end. -/
theorem meetsCased_append_gap {gap : List Char} (hgap : ∀ c ∈ gap, isWordChar c = false)
    (s : List Char) : Text.meetsCased (s ++ gap) = Text.meetsCased s := by
  unfold Text.meetsCased
  rw [List.dropWhile_append]
  cases hdrop : s.dropWhile (·.within Text.caseIgnorableRanges) with
  | cons c rest => rfl
  | nil =>
    -- Only separators are left, and a separator is not cased.
    rw [List.isEmpty_nil, if_pos rfl]
    cases hrest : gap.dropWhile (·.within Text.caseIgnorableRanges) with
    | nil => rfl
    | cons c rest =>
      have hc : c ∈ gap := (List.dropWhile_suffix _).subset (hrest ▸ List.mem_cons_self)
      exact (caseless_of_separator (hgap c hc)).2.2

theorem downcaseAfter_append_gap {gap : List Char} (hgap : ∀ c ∈ gap, isWordChar c = false)
    (before s : List Char) :
    Text.downcaseAfter before (s ++ gap) = Text.downcaseAfter before s ++ gap := by
  induction s generalizing before with
  | nil =>
    exact downcaseAfter_of_settled before fun c hc => (caseless_of_separator (hgap c hc)).2.1
  | cons c s ih =>
    rw [List.cons_append, Text.downcaseAfter, Text.downcaseAfter, ih,
      meetsCased_append_gap hgap, List.append_assoc]

theorem downcaseAfter_gap {gap : List Char} (hgap : ∀ c ∈ gap, isWordChar c = false)
    (before s : List Char) :
    Text.downcaseAfter (before ++ gap) s = Text.downcaseAfter before s := by
  induction s generalizing before with
  | nil => rfl
  | cons c s ih =>
    rw [Text.downcaseAfter, Text.downcaseAfter, meetsCased_append_gap hgap, ← List.cons_append, ih]

/-- Separators around a text are the same after setting its case, and make no difference to it. -/
structure KeepsGaps (f : List Char → List Char) : Prop where
  append_gap : ∀ s gap, (∀ c ∈ gap, isWordChar c = false) → f (s ++ gap) = f s ++ gap
  gap_append : ∀ s gap, (∀ c ∈ gap, isWordChar c = false) → f (gap ++ s) = gap ++ f s

theorem KeepsGaps.append {left word right : List Char} (hf : KeepsGaps f)
    (hleft : ∀ c ∈ left, isWordChar c = false) (hright : ∀ c ∈ right, isWordChar c = false) :
    f (left ++ (word ++ right)) = left ++ (f word ++ right) := by
  rw [hf.gap_append _ left hleft, hf.append_gap _ right hright]

theorem keepsGaps_upcase : KeepsGaps Text.upcase := by
  have hkept : ∀ gap : List Char, (∀ c ∈ gap, isWordChar c = false) → Text.upcase gap = gap :=
    fun gap hgap => setsCase_upcase.keeps gap fun c hc => (caseless_of_separator (hgap c hc)).1
  refine ⟨fun s gap hgap => ?_, fun s gap hgap => ?_⟩
  · rw [Text.upcase_append, hkept gap hgap]
  · rw [Text.upcase_append, hkept gap hgap]

theorem keepsGaps_downcase : KeepsGaps Text.downcase := by
  refine ⟨fun s gap hgap => downcaseAfter_append_gap hgap [] s, fun s gap hgap => ?_⟩
  have hback : ∀ c ∈ gap.reverse, isWordChar c = false := fun c hc => hgap c (List.mem_reverse.1 hc)
  have hkept : ∀ c ∈ gap, Text.downcaseChar c = [c] :=
    fun c hc => (caseless_of_separator (hgap c hc)).2.1
  calc Text.downcase (gap ++ s)
      = gap ++ Text.downcaseAfter (gap.reverse ++ []) s := downcaseAfter_append_settled [] hkept s
    _ = gap ++ Text.downcaseAfter ([] ++ gap.reverse) s := by rw [List.append_nil, List.nil_append]
    _ = gap ++ Text.downcase s := by rw [downcaseAfter_gap hback, Text.downcase]

/-- Two words in lower case are not what each of them is by itself, since a sigma at the end of the
first may have a letter of the second behind it. Each has its case set, though. -/
theorem exists_downcase_words (first second : List Char) {gap : List Char}
    (hgap : ∀ c ∈ gap, isWordChar c = false) :
    ∃ x y, Text.downcase (first ++ (gap ++ second)) = x ++ (gap ++ y) ∧
      CaseMapped (fun c => Text.downcaseChar c = [c]) first x ∧
      CaseMapped (fun c => Text.downcaseChar c = [c]) second y := by
  have hkept : ∀ c ∈ gap, Text.downcaseChar c = [c] :=
    fun c hc => (caseless_of_separator (hgap c hc)).2.1
  obtain ⟨x, hx, hfirst⟩ := downcaseAfter_append [] first (gap ++ second)
  rw [downcaseAfter_append_settled _ hkept] at hfirst
  exact ⟨x, _, hfirst, hx, caseMapped_downcaseAfter _ second⟩

/-- The first character of a text in upper case is settled. -/
theorem Text.capitalize_capitalize (s : List Char) : capitalize (capitalize s) = capitalize s := by
  cases s with
  | nil => rfl
  | cons c rest =>
    obtain ⟨d, image, hc⟩ := List.exists_cons_of_ne_nil (upcaseChar_ne_nil c)
    have hd : upcaseChar d = [d] :=
      settles_upper.mapCase_of_mem (show d ∈ upcaseChar c from hc ▸ List.mem_cons_self)
    rw [capitalize, hc, List.cons_append, capitalize, hd, List.singleton_append]

end LineEditor
