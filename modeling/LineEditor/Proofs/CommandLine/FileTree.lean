import LineEditor.CommandLine.FileTree
import LineEditor.Proofs.CommandLine.Path
import LineEditor.Proofs.Text.Utf8

/-!
# Files and where paths lead

Replacing the bytes of a file changes nothing at any other place. A path that can be opened, for
reading or for writing, is opened at the place where it leads: the walk along it takes the same
turns, and only adds to them the checks that may end it.
-/

namespace LineEditor

/-! ## Replacing bytes -/

namespace FileTree

variable {tree : FileTree} {place other : Place} {bytes : List UInt8}

theorem lookup_putFile_self (place : Place) (bytes : List UInt8)
    (files : List (Place × List UInt8)) :
    (putFile place bytes files).lookup place = some bytes := by
  induction files with
  | nil => simp [putFile]
  | cons file files ih =>
    unfold putFile
    split
    · simp
    · rename_i hne
      rw [List.lookup_cons, beq_false_of_ne (Ne.symm hne)]
      exact ih

theorem lookup_putFile_of_ne (h : other ≠ place) (bytes : List UInt8)
    (files : List (Place × List UInt8)) :
    (putFile place bytes files).lookup other = files.lookup other := by
  induction files with
  | nil => simp [putFile, List.lookup_cons, beq_false_of_ne h]
  | cons file files ih =>
    unfold putFile
    split
    · rename_i heq
      rw [List.lookup_cons, List.lookup_cons, heq, beq_false_of_ne h]
    · rw [List.lookup_cons, List.lookup_cons, ih]

@[simp] theorem bytes?_put_self (tree : FileTree) (place : Place) (bytes : List UInt8) :
    (tree.put place bytes).bytes? place = some bytes :=
  lookup_putFile_self place bytes tree.files

theorem bytes?_put_of_ne (tree : FileTree) (h : other ≠ place) (bytes : List UInt8) :
    (tree.put place bytes).bytes? other = tree.bytes? other :=
  lookup_putFile_of_ne h bytes tree.files

/-- What two file trees have in common if they differ in nothing but the bytes of files. -/
def SameShape (tree other : FileTree) : Prop :=
  { other with files := tree.files } = tree

theorem SameShape.refl (tree : FileTree) : tree.SameShape tree :=
  rfl

theorem sameShape_put (tree : FileTree) (place : Place) (bytes : List UInt8) :
    tree.SameShape (tree.put place bytes) :=
  rfl

/-! ## Walking along paths -/

variable {path : List Char} {name : List Char} {names : List (List Char)} {t : Target}

theorem eq_enter_of_step {next : Place} (h : tree.step place name = .ok next) :
    next = tree.enter place name := by
  unfold step at h
  dsimp only at h
  split at h
  · cases h
  split at h
  · cases h
  split at h
  · cases h
    rfl
  · cases h

theorem eq_foldl_of_walk {folder : Place} (h : tree.walk place names = .ok folder) :
    folder = names.foldl tree.enter place := by
  induction names generalizing place with
  | nil =>
    cases h
    rfl
  | cons name names ih =>
    unfold walk at h
    split at h
    · cases h
    · rename_i next hstep
      rw [ih h, eq_enter_of_step hstep]
      rfl

/-- A path that does not end in a slash is all there is to walk along. -/
theorem reverse_dropWhile_slash (h : path.getLast? ≠ some '/') :
    (path.reverse.dropWhile (· = '/')).reverse = path := by
  rcases List.eq_nil_or_concat path with rfl | ⟨init, c, rfl⟩
  · rfl
  · have hc : c ≠ '/' := by simpa using h
    simp [hc]

theorem target_eq_ok_iff (hlast : path.getLast? ≠ some '/') : tree.target path = .ok t ↔
    path ≠ [] ∧ exceeds pathLimit path = false ∧
      tree.walk (startOf tree.working path) (splitSlashes path).dropLast = .ok t.folder ∧
      t.name = (splitSlashes path).getLastD [] ∧ t.slashed = false := by
  have hslashed : decide (path.getLast? = some '/') = false := decide_eq_false hlast
  unfold target
  rw [reverse_dropWhile_slash hlast, hslashed]
  by_cases hnil : path = []
  · simp [hnil]
  by_cases hlong : exceeds pathLimit path = true
  · simp [hnil, hlong]
  rw [if_neg hnil, if_neg hlong]
  dsimp only
  cases tree.walk (startOf tree.working path) (splitSlashes path).dropLast with
  | error fault => simp
  | ok folder =>
    cases t
    simp [hnil, hlong, eq_comm]

theorem slashed_of_target (h : tree.target path = .ok t) :
    t.slashed = decide (path.getLast? = some '/') := by
  unfold target at h
  split at h
  · cases h
  split at h
  · cases h
  dsimp only at h
  split at h <;> cases h
  rfl

/-- The target of a path that does not end in a slash is where the path leads. -/
theorem place_of_target (h : tree.target path = .ok t) (hslashed : t.slashed = false) :
    t.place tree = tree.locate path := by
  have hlast : path.getLast? ≠ some '/' :=
    of_decide_eq_false ((slashed_of_target h).symm.trans hslashed)
  obtain ⟨-, -, hwalk, hname, -⟩ := (target_eq_ok_iff hlast).1 h
  have hne := splitSlashes_ne_nil path
  rw [List.getLastD_eq_getLast?, List.getLast?_eq_some_getLast hne, Option.getD_some] at hname
  calc t.place tree
    _ = tree.enter ((splitSlashes path).dropLast.foldl tree.enter (startOf tree.working path))
        ((splitSlashes path).getLast hne) := by
      rw [Target.place, eq_foldl_of_walk hwalk, hname]
    _ = ((splitSlashes path).dropLast ++ [(splitSlashes path).getLast hne]).foldl tree.enter
        (startOf tree.working path) := by rw [List.foldl_append, List.foldl_cons, List.foldl_nil]
    _ = tree.locate path := by rw [List.dropLast_concat_getLast hne, locate]

/-- A path is read if it has a target that is a file and nothing else, and may be read. -/
theorem read_eq_ok_iff : tree.read path = .ok bytes ↔
    ∃ t, tree.target path = .ok t ∧ isDots t.name = false ∧ exceeds nameLimit t.name = false ∧
      tree.hasCircle (t.place tree) = false ∧ tree.isFolder (t.place tree) = false ∧
      tree.bytes? (t.place tree) = some bytes ∧ t.slashed = false ∧
      tree.unreadable.contains (t.place tree) = false := by
  unfold read
  cases tree.target path with
  | error fault => simp
  | ok t =>
    simp only [Except.ok.injEq, exists_eq_left']
    repeat' split
    all_goals simp_all

/-- A path is written if it has a target that is no folder and may be written. -/
theorem writable_eq_ok_iff : tree.writable path = .ok place ↔
    ∃ t, tree.target path = .ok t ∧ isDots t.name = false ∧ t.slashed = false ∧
      exceeds nameLimit t.name = false ∧ tree.hasCircle (t.place tree) = false ∧
      tree.isFolder (t.place tree) = false ∧ tree.unwritable.contains (t.place tree) = false ∧
      tree.folderFault? (t.place tree).parent = none ∧ t.place tree = place := by
  unfold writable
  cases tree.target path with
  | error fault => simp
  | ok t =>
    simp only [Except.ok.injEq, exists_eq_left']
    repeat' split
    all_goals grind

/-- A file is written at the place where its path leads. -/
theorem eq_locate_of_writable (h : tree.writable path = .ok place) :
    place = tree.locate path := by
  obtain ⟨t, ht, -, hslashed, -, -, -, -, -, rfl⟩ := writable_eq_ok_iff.1 h
  exact place_of_target ht hslashed

/-! ## Tidied paths -/

theorem walk_append (place : Place) (first second : List (List Char)) :
    tree.walk place (first ++ second) =
      match tree.walk place first with
      | .error fault => .error fault
      | .ok next => tree.walk next second := by
  induction first generalizing place with
  | nil => rfl
  | cons name first ih =>
    rw [List.cons_append, walk, walk]
    cases tree.step place name with
    | error fault => rfl
    | ok next => exact ih next

theorem enter_of_not_isTelling (tree : FileTree) (place : Place) (h : isTelling name = false) :
    tree.enter place name = place := by
  have hname : name = [] ∨ name = ['.'] := by
    simpa [isTelling, Decidable.or_iff_not_imp_left] using h
  rcases hname with rfl | rfl <;> rfl

/-- A walk that succeeds does so without the names that lead nowhere. -/
theorem walk_filter {folder : Place} (h : tree.walk place names = .ok folder) :
    tree.walk place (names.filter isTelling) = .ok folder := by
  induction names generalizing place with
  | nil => exact h
  | cons name names ih =>
    cases hstep : tree.step place name with
    | error fault => rw [walk, hstep] at h; cases h
    | ok next =>
      rw [walk, hstep] at h
      by_cases htelling : isTelling name = true
      · rw [List.filter_cons_of_pos htelling, walk, hstep]
        exact ih h
      · rw [List.filter_cons_of_neg htelling]
        have hnext : next = place := by
          rw [eq_enter_of_step hstep,
            enter_of_not_isTelling tree place (Bool.eq_false_iff.2 htelling)]
        rw [← hnext]
        exact ih h

/-- A path with a target that has a name of its own has the same target when it is tidied. -/
theorem target_tidy (h : tree.target path = .ok t) (hslashed : t.slashed = false)
    (hname : isDots t.name = false) : tree.target (tidy path) = .ok t := by
  have hlast : path.getLast? ≠ some '/' :=
    of_decide_eq_false ((slashed_of_target h).symm.trans hslashed)
  obtain ⟨hne, hshort, hwalk, hlastName, -⟩ := (target_eq_ok_iff hlast).1 h
  have hlastName : (splitSlashes path).getLast? = some t.name := by
    rw [List.getLastD_eq_getLast?] at hlastName
    rw [hlastName, List.getLast?_eq_some_getLast (splitSlashes_ne_nil path), Option.getD_some]
  have htelling : isTelling t.name = true := by
    simp only [isDots, Bool.or_eq_false_iff, decide_eq_false_iff_not] at hname
    simp [isTelling, hname]
  have hsome : (splitSlashes path).filter isTelling ≠ [] :=
    List.ne_nil_of_mem (List.mem_filter.2 ⟨List.mem_of_getLast? hlastName, htelling⟩)
  obtain ⟨count, names, hsplit, htidied⟩ := exists_splitSlashes_tidy_eq hlastName htelling
  rw [← List.append_assoc] at hsplit htidied
  have hlastTidied : (splitSlashes (tidy path)).getLast? = some t.name := by
    rw [htidied, List.getLast?_concat]
  have hunslashed : (tidy path).getLast? ≠ some '/' := by
    intro hslash
    rw [getLast?_splitSlashes_of_slash hslash] at hlastTidied
    rw [← Option.some.inj hlastTidied] at htelling
    cases htelling
  have hnonempty : tidy path ≠ [] := by
    intro hnil
    rw [hnil] at hlastTidied
    rw [← Option.some.inj hlastTidied] at htelling
    cases htelling
  have hlength := Text.Utf8.length_encode_le (tidy_sublist hsome)
  refine (target_eq_ok_iff hunslashed).2 ⟨hnonempty, ?_, ?_, ?_, hslashed⟩
  · simp only [exceeds, decide_eq_false_iff_not] at hshort ⊢
    omega
  · rw [hsplit, List.dropLast_concat, walk_append] at hwalk
    rw [htidied, List.dropLast_concat, walk_append, startOf_tidy tree.working hsome]
    split at hwalk
    · cases hwalk
    · exact walk_filter hwalk
  · rw [List.getLastD_eq_getLast?, hlastTidied, Option.getD_some]

/-- A file that can be read by a path can be read by the tidied path. -/
theorem read_tidy (h : tree.read path = .ok bytes) : tree.read (tidy path) = .ok bytes := by
  obtain ⟨t, ht, hname, hexceeds, hcircle, hfolder, hbytes, hslashed, hreadable⟩ :=
    read_eq_ok_iff.1 h
  exact read_eq_ok_iff.2 ⟨t, target_tidy ht hslashed hname, hname, hexceeds, hcircle, hfolder,
    hbytes, hslashed, hreadable⟩

end FileTree

end LineEditor
