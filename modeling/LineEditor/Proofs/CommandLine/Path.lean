import LineEditor.CommandLine.Path

/-!
# The names of a path

The slashes of a path come back when its names are put together again, and names without slashes are
told apart by the slashes between them. A tidied path has the names of the path that say something,
after the slashes that say where it begins, and is never longer.
-/

namespace LineEditor

variable {path name : List Char} {names : List (List Char)}

/-! ## Splitting at slashes -/

theorem splitSlashes_ne_nil (path : List Char) : splitSlashes path ≠ [] := by
  unfold splitSlashes
  split
  · exact List.cons_ne_nil _ _
  · split
    · exact List.cons_ne_nil _ _
    · split <;> exact List.cons_ne_nil _ _

theorem splitSlashes_eq_splitOn (path : List Char) : splitSlashes path = path.splitOn '/' := by
  induction path with
  | nil => exact (List.splitOn_nil '/').symm
  | cons c path ih =>
    rw [List.splitOn_cons_eq_if_modifyHead, ← ih, splitSlashes]
    cases hnames : splitSlashes path with
    | nil => exact absurd hnames (splitSlashes_ne_nil path)
    | cons name names => simp only [beq_iff_eq, List.modifyHead_cons]

theorem intercalate_splitSlashes (path : List Char) :
    ['/'].intercalate (splitSlashes path) = path := by
  rw [splitSlashes_eq_splitOn, List.intercalate_splitOn]

theorem splitSlashes_intercalate (h : ∀ name ∈ names, '/' ∉ name) (hne : names ≠ []) :
    splitSlashes (['/'].intercalate names) = names := by
  rw [splitSlashes_eq_splitOn, List.splitOn_intercalate '/' h hne]

theorem slash_notMem_of_mem_splitSlashes (h : name ∈ splitSlashes path) : '/' ∉ name := by
  induction path generalizing name with
  | nil =>
    rw [List.mem_singleton.1 h]
    exact List.not_mem_nil
  | cons c path ih =>
    unfold splitSlashes at h
    by_cases hc : c = '/'
    · rw [if_pos hc] at h
      rcases List.mem_cons.1 h with rfl | h
      · exact List.not_mem_nil
      · exact ih h
    · rw [if_neg hc] at h
      cases hnames : splitSlashes path with
      | nil => exact absurd hnames (splitSlashes_ne_nil path)
      | cons first others =>
        rw [hnames] at h ih
        rcases List.mem_cons.1 h with rfl | h
        · exact List.not_mem_cons_of_ne_of_not_mem (Ne.symm hc) (ih List.mem_cons_self)
        · exact ih (List.mem_cons_of_mem first h)

/-- Slashes in front of a path are as many empty names in front of its names. -/
theorem splitSlashes_replicate_append (count : Nat) (path : List Char) :
    splitSlashes (List.replicate count '/' ++ path) =
      List.replicate count [] ++ splitSlashes path := by
  induction count with
  | zero => rfl
  | succ count ih =>
    rw [List.replicate_succ, List.cons_append, splitSlashes, if_pos rfl, ih]
    rfl

theorem getLast?_splitSlashes_of_slash (h : path.getLast? = some '/') :
    (splitSlashes path).getLast? = some [] := by
  obtain ⟨front, rfl⟩ := List.getLast?_eq_some_iff.1 h
  rw [splitSlashes_eq_splitOn, List.splitOn_append_cons_self, List.splitOn_nil,
    List.getLast?_concat]

/-- A path that begins with no slash begins at the working folder. -/
theorem startOf_of_head?_ne (working : Place) (h : path.head? ≠ some '/') :
    startOf working path = working := by
  unfold startOf
  split
  · exact absurd rfl h
  · rfl

/-! ## Tidied paths -/

/-- A path begins with the slashes of its anchor. Without these it begins with no slash. -/
theorem exists_anchor (path : List Char) :
    ∃ count rest, anchorOf path = List.replicate count '/' ∧
      path = List.replicate count '/' ++ rest ∧ (count = 0 → rest.head? ≠ some '/') := by
  unfold anchorOf
  split
  · exact ⟨1, _, rfl, rfl, nofun⟩
  · exact ⟨2, _, rfl, rfl, nofun⟩
  · exact ⟨1, _, rfl, rfl, nofun⟩
  · rename_i hslash
    refine ⟨0, path, rfl, rfl, fun _ hhead => ?_⟩
    obtain ⟨rest, rfl⟩ := List.head?_eq_some_iff.1 hhead
    exact hslash rest rfl

/-- Telling names without slashes make a path that begins with no slash. -/
theorem head?_intercalate (h : ∀ name ∈ names, '/' ∉ name ∧ isTelling name = true)
    (hne : names ≠ []) : ∃ c ≠ '/', (['/'].intercalate names).head? = some c := by
  cases names with
  | nil => exact absurd rfl hne
  | cons name names =>
    obtain ⟨hslash, htelling⟩ := h name List.mem_cons_self
    cases name with
    | nil => cases htelling
    | cons c name =>
      have hc : c ≠ '/' := (List.ne_of_not_mem_cons hslash).symm
      refine ⟨c, hc, ?_⟩
      cases names with
      | nil => rfl
      | cons other others => rw [List.intercalate_cons_cons]; rfl

theorem intercalate_sublist (separator : List Char) {first second : List (List Char)}
    (h : first.Sublist second) :
    (separator.intercalate first).Sublist (separator.intercalate second) := by
  induction h with
  | slnil => exact List.Sublist.refl _
  | @cons first second name h ih =>
    cases second with
    | nil =>
      rw [List.sublist_nil.1 h]
      exact List.nil_sublist _
    | cons other others =>
      rw [List.intercalate_cons_cons]
      exact ih.trans (List.sublist_append_right _ _)
  | @cons_cons first second name h ih =>
    cases second with
    | nil =>
      obtain rfl : first = [] := List.sublist_nil.1 h
      exact List.Sublist.refl _
    | cons other others =>
      rw [List.intercalate_cons_cons]
      cases first with
      | nil =>
        rw [List.intercalate_singleton, List.append_assoc]
        exact List.sublist_append_left name _
      | cons first firsts =>
        rw [List.intercalate_cons_cons]
        exact ih.append_left _

theorem of_mem_filter_isTelling (h : name ∈ (splitSlashes path).filter isTelling) :
    '/' ∉ name ∧ isTelling name = true :=
  ⟨slash_notMem_of_mem_splitSlashes (List.mem_filter.1 h).1, (List.mem_filter.1 h).2⟩

/-- A path with a telling name is tidied to its anchor and its telling names. -/
theorem exists_tidy_eq (htelling : (splitSlashes path).filter isTelling ≠ []) :
    ∃ count rest, path = List.replicate count '/' ++ rest ∧
      tidy path =
        List.replicate count '/' ++ ['/'].intercalate ((splitSlashes rest).filter isTelling) ∧
      (splitSlashes rest).filter isTelling ≠ [] ∧ (count = 0 → rest.head? ≠ some '/') := by
  obtain ⟨count, rest, hanchor, hpath, hhead⟩ := exists_anchor path
  have hnames : (splitSlashes path).filter isTelling =
      (splitSlashes rest).filter isTelling := by
    rw [hpath, splitSlashes_replicate_append, List.filter_append,
      List.filter_replicate_of_neg (by decide), List.nil_append]
  rw [hnames] at htelling
  refine ⟨count, rest, hpath, ?_, htelling, hhead⟩
  unfold tidy
  dsimp only
  rw [hanchor, hnames]
  split
  · rename_i hnil
    obtain ⟨c, -, hc⟩ := head?_intercalate (fun _ => of_mem_filter_isTelling) htelling
    rw [(List.append_eq_nil_iff.1 hnil).2] at hc
    cases hc
  · rfl

/-- Tidying leaves characters out. -/
theorem tidy_sublist (htelling : (splitSlashes path).filter isTelling ≠ []) :
    (tidy path).Sublist path := by
  obtain ⟨count, rest, hpath, htidy, -, -⟩ := exists_tidy_eq htelling
  have hnames : ((splitSlashes rest).filter isTelling).Sublist (splitSlashes rest) :=
    List.filter_sublist
  have hrest := intercalate_sublist ['/'] hnames
  rw [intercalate_splitSlashes] at hrest
  rw [htidy, hpath]
  exact hrest.append_left _

theorem startOf_tidy (working : Place) (htelling : (splitSlashes path).filter isTelling ≠ []) :
    startOf working (tidy path) = startOf working path := by
  obtain ⟨count, rest, hpath, htidy, hnames, hhead⟩ := exists_tidy_eq htelling
  rw [htidy, hpath]
  cases count with
  | zero =>
    obtain ⟨c, hc, hfirst⟩ := head?_intercalate (fun _ => of_mem_filter_isTelling) hnames
    have htidied : (['/'].intercalate ((splitSlashes rest).filter isTelling)).head? ≠ some '/' := by
      rw [hfirst]
      exact fun h => hc (Option.some.inj h)
    exact (startOf_of_head?_ne working htidied).trans (startOf_of_head?_ne working (hhead rfl)).symm
  | succ count => rfl

/-- The names of a path that ends in a telling name, and those of the tidied path: after the anchor,
what is not telling is missing. -/
theorem exists_splitSlashes_tidy_eq (hlast : (splitSlashes path).getLast? = some name)
    (htelling : isTelling name = true) :
    ∃ count names, splitSlashes path = List.replicate count [] ++ (names ++ [name]) ∧
      splitSlashes (tidy path) =
        List.replicate count [] ++ (names.filter isTelling ++ [name]) := by
  have hsome : (splitSlashes path).filter isTelling ≠ [] :=
    List.ne_nil_of_mem (List.mem_filter.2 ⟨List.mem_of_getLast? hlast, htelling⟩)
  obtain ⟨count, rest, hpath, htidy, hnames, -⟩ := exists_tidy_eq hsome
  have hsplit := splitSlashes_replicate_append count rest
  rw [← hpath] at hsplit
  have hrest : (splitSlashes rest).getLast? = some name := by
    have hlastRest := List.getLast?_eq_some_getLast (splitSlashes_ne_nil rest)
    rwa [hsplit, List.getLast?_append, hlastRest, Option.some_or, ← hlastRest] at hlast
  obtain ⟨names, hrest⟩ := List.getLast?_eq_some_iff.1 hrest
  refine ⟨count, names, by rw [hsplit, hrest], ?_⟩
  rw [htidy, splitSlashes_replicate_append,
    splitSlashes_intercalate (fun _ h => (of_mem_filter_isTelling h).1) hnames, hrest,
    List.filter_append, List.filter_cons_of_pos htelling, List.filter_nil]

end LineEditor
