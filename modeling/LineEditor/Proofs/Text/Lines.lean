import LineEditor.Text.Lines

/-!
# The lines of a text

The lines of a text are the pieces after each newline, and the last piece if it is not empty: they
put together the text again, and a newline stands in them only at their ends. A line without its
ending has no newline in it, and does not show in which way it was ended. When the line endings are
unified first, a carriage return that is left in a line becomes an ending too, and no other one
matters.
-/

namespace LineEditor.Text

/-- A text comes in the given lines. -/
inductive HasLines : List Char → List (List Char) → Prop where
  /-- The empty text has no lines. -/
  | nil : HasLines [] []
  /-- What is left without a newline is a line if it is not empty. -/
  | unended {line : List Char} (hne : line ≠ []) (hline : '\n' ∉ line) : HasLines line [line]
  /-- What precedes a newline is a line together with it. -/
  | ended {line rest : List Char} {lines : List (List Char)} (hline : '\n' ∉ line)
      (hrest : HasLines rest lines) : HasLines (line ++ '\n' :: rest) ((line ++ ['\n']) :: lines)

variable {text : List Char} {lines : List (List Char)}

/-- A character before the first line belongs to it, unless it is a newline. -/
theorem HasLines.cons_of_ne {c : Char} {line : List Char} (hc : c ≠ '\n')
    (h : HasLines text (line :: lines)) : HasLines (c :: text) ((c :: line) :: lines) := by
  cases h with
  | unended _ hline =>
    exact .unended (List.cons_ne_nil _ _) (List.not_mem_cons_of_ne_of_not_mem hc.symm hline)
  | ended hline hrest =>
    exact .ended (List.not_mem_cons_of_ne_of_not_mem hc.symm hline) hrest

theorem HasLines.eq_nil (h : HasLines text []) : text = [] := by
  cases h with
  | nil => rfl

theorem hasLines_splitLines (text : List Char) : HasLines text (splitLines text) := by
  induction text with
  | nil => exact .nil
  | cons c rest ih =>
    unfold splitLines
    by_cases hc : c = '\n'
    · rw [if_pos hc, hc]
      have hempty : '\n' ∉ ([] : List Char) := List.not_mem_nil
      exact .ended hempty ih
    · rw [if_neg hc]
      cases hlines : splitLines rest with
      | nil =>
        rw [hlines] at ih
        rw [ih.eq_nil]
        exact .unended (List.cons_ne_nil _ _) (by simpa using Ne.symm hc)
      | cons line lines =>
        rw [hlines] at ih
        exact ih.cons_of_ne hc

theorem splitLines_append_newline {line : List Char} (hline : '\n' ∉ line) (rest : List Char) :
    splitLines (line ++ '\n' :: rest) = (line ++ ['\n']) :: splitLines rest := by
  induction line with
  | nil => exact if_pos rfl
  | cons c line ih =>
    have hc : c ≠ '\n' := (List.ne_of_not_mem_cons hline).symm
    rw [List.cons_append, splitLines, if_neg hc, ih (List.not_mem_of_not_mem_cons hline)]
    rfl

theorem splitLines_of_notMem {line : List Char} (hne : line ≠ []) (hline : '\n' ∉ line) :
    splitLines line = [line] := by
  induction line with
  | nil => exact absurd rfl hne
  | cons c line ih =>
    have hc : c ≠ '\n' := (List.ne_of_not_mem_cons hline).symm
    rw [splitLines, if_neg hc]
    by_cases hnil : line = []
    · rw [hnil, splitLines]
    · rw [ih hnil (List.not_mem_of_not_mem_cons hline)]

/-- A text comes in one way in lines. -/
theorem hasLines_iff : HasLines text lines ↔ lines = splitLines text := by
  constructor
  · intro h
    induction h with
    | nil => rfl
    | unended hne hline => rw [splitLines_of_notMem hne hline]
    | ended hline _ ih => rw [splitLines_append_newline hline, ih]
  · rintro rfl
    exact hasLines_splitLines text

/-- A text has a line for each newline and one more if it goes on after the last newline. -/
theorem HasLines.length_eq (h : HasLines text lines) :
    lines.length =
      text.count '\n' + if text ≠ [] ∧ text.getLast? ≠ some '\n' then 1 else 0 := by
  induction h with
  | nil => rfl
  | unended hne hline =>
    have hlast : List.getLast? _ ≠ some '\n' := fun h => hline (List.mem_of_getLast? h)
    rw [List.count_eq_zero_of_not_mem hline, if_pos ⟨hne, hlast⟩]
    rfl
  | @ended line rest lines hline hrest ih =>
    have hcount : (line ++ '\n' :: rest).count '\n' = rest.count '\n' + 1 := by
      rw [List.count_append, List.count_eq_zero_of_not_mem hline, List.count_cons_self,
        Nat.zero_add]
    have hlast : (line ++ '\n' :: rest ≠ [] ∧ (line ++ '\n' :: rest).getLast? ≠ some '\n') ↔
        (rest ≠ [] ∧ rest.getLast? ≠ some '\n') := by
      cases rest with
      | nil => simp
      | cons => simp
    rw [List.length_cons, ih, hcount]
    simp only [hlast]
    omega

/-- Nothing but the end of a line is a newline. -/
theorem HasLines.eq_of_mem (h : HasLines text lines) {line : List Char} (hline : line ∈ lines) :
    ∃ body, '\n' ∉ body ∧ (line = body ∨ line = body ++ ['\n']) := by
  induction h with
  | nil => cases hline
  | @unended body _ hbody => exact ⟨body, hbody, .inl (List.mem_singleton.1 hline)⟩
  | @ended body _ _ hbody _ ih =>
    rcases List.mem_cons.1 hline with rfl | hothers
    · exact ⟨body, hbody, .inr rfl⟩
    · exact ih hothers

theorem HasLines.subset (h : HasLines text lines) {line : List Char} (hline : line ∈ lines) :
    line ⊆ text := by
  induction h with
  | nil => cases hline
  | unended =>
    rw [List.mem_singleton.1 hline]
    exact List.Subset.refl _
  | @ended body rest lines _ _ ih =>
    rcases List.mem_cons.1 hline with rfl | hothers
    · exact List.append_subset.2 ⟨List.subset_append_left _ _, by simp⟩
    · exact List.Subset.trans (ih hothers) (by simp)

/-! ## Endings -/

theorem unifyNewlines_cons {c : Char} (hc : c ≠ '\r') (rest : List Char) :
    unifyNewlines (c :: rest) = c :: unifyNewlines rest := by
  rw [unifyNewlines, if_neg hc]
  exact fun _ heq => absurd heq hc

/-- Unifying the line endings of a text leaves what precedes the first carriage return. -/
theorem unifyNewlines_append {body : List Char} (h : '\r' ∉ body) (rest : List Char) :
    unifyNewlines (body ++ rest) = body ++ unifyNewlines rest := by
  induction body with
  | nil => rfl
  | cons c body ih =>
    have hc : c ≠ '\r' := (List.ne_of_not_mem_cons h).symm
    rw [List.cons_append, unifyNewlines_cons hc, ih (List.not_mem_of_not_mem_cons h),
      List.cons_append]

/-- A text without carriage returns has no other line endings than newlines. -/
theorem unifyNewlines_of_notMem {text : List Char} (h : '\r' ∉ text) :
    unifyNewlines text = text := by
  have happend := unifyNewlines_append h []
  rwa [unifyNewlines, List.append_nil] at happend

theorem return_notMem_unifyNewlines (text : List Char) : '\r' ∉ unifyNewlines text := by
  fun_induction unifyNewlines text with
  | case1 => exact List.not_mem_nil
  | case2 rest ih => exact List.not_mem_cons_of_ne_of_not_mem (by decide) ih
  | case3 c rest _ ih =>
    refine List.not_mem_cons_of_ne_of_not_mem ?_ ih
    by_cases hc : c = '\r'
    · rw [if_pos hc]
      decide
    · rw [if_neg hc]
      exact Ne.symm hc

theorem dropLast?_subset (last : Char) (s : List Char) : dropLast? last s ⊆ s := by
  unfold dropLast?
  split
  · exact List.dropLast_subset s
  · exact List.Subset.refl s

theorem dropLast?_of_ne {last : Char} {s : List Char} (h : s.getLast? ≠ some last) :
    dropLast? last s = s :=
  if_neg h

@[simp] theorem dropLast?_concat (last : Char) (s : List Char) :
    dropLast? last (s ++ [last]) = s := by
  rw [dropLast?, if_pos List.getLast?_concat, List.dropLast_concat]

theorem dropLast?_of_notMem {last : Char} {s : List Char} (h : last ∉ s) : dropLast? last s = s :=
  dropLast?_of_ne fun hlast => h (List.mem_of_getLast? hlast)

theorem eq_dropLast?_or (last : Char) (s : List Char) :
    s = dropLast? last s ∨ s = dropLast? last s ++ [last] := by
  by_cases h : s.getLast? = some last
  · obtain ⟨front, rfl⟩ := List.getLast?_eq_some_iff.1 h
    rw [dropLast?_concat]
    exact .inr rfl
  · exact .inl (dropLast?_of_ne h).symm

theorem stripEnding_of_notMem {line : List Char} (h : '\n' ∉ line) :
    stripEnding line = dropLast? '\r' line := by
  rw [stripEnding, dropLast?_of_notMem h]

theorem stripEnding_concat (line : List Char) :
    stripEnding (line ++ ['\n']) = dropLast? '\r' line := by
  rw [stripEnding, dropLast?_concat]

theorem stripEnding_subset (line : List Char) : stripEnding line ⊆ line :=
  List.Subset.trans (dropLast?_subset _ _) (dropLast?_subset _ _)

theorem newline_notMem_stripEnding (h : HasLines text lines) {line : List Char}
    (hline : line ∈ lines) : '\n' ∉ stripEnding line := by
  obtain ⟨body, hbody, rfl | rfl⟩ := h.eq_of_mem hline
  · rw [stripEnding_of_notMem hbody]
    exact fun hmem => hbody (dropLast?_subset '\r' _ hmem)
  · rw [stripEnding_concat]
    exact fun hmem => hbody (dropLast?_subset '\r' _ hmem)

/-! ## Lines whose endings are unified -/

/-- Unifying the endings takes a carriage return from the end of a line. -/
theorem unifyNewlines_line {line : List Char} (h : '\r' ∉ dropLast? '\r' line)
    (rest : List Char) :
    unifyNewlines (line ++ '\n' :: rest) = dropLast? '\r' line ++ '\n' :: unifyNewlines rest := by
  have hline := eq_dropLast?_or '\r' line
  generalize dropLast? '\r' line = body at h hline ⊢
  rcases hline with rfl | rfl
  · exact unifyNewlines_append h ('\n' :: rest)
  · rw [List.append_assoc]
    exact unifyNewlines_append h ('\r' :: '\n' :: rest)

/-- If there is no carriage return in a line but at its end, the lines are the same whether their
endings are unified or not. -/
theorem HasLines.map_stripEnding_unifyNewlines (h : HasLines text lines)
    (hreturn : ∀ line ∈ lines, '\r' ∉ stripEnding line) :
    (splitLines (unifyNewlines text)).map stripEnding = lines.map stripEnding := by
  induction h with
  | nil => rfl
  | @unended line hne hline =>
    have hstrip := stripEnding_of_notMem hline
    have hbody : '\r' ∉ dropLast? '\r' line := by
      rw [← hstrip]
      exact hreturn line List.mem_cons_self
    rw [List.map_singleton, hstrip]
    rcases eq_dropLast?_or '\r' line with hsame | hended
    · have hnone : '\r' ∉ line := by
        rw [hsame]
        exact hbody
      rw [unifyNewlines_of_notMem hnone, splitLines_of_notMem hne hline, List.map_singleton, hstrip]
    · have hnewline : '\n' ∉ dropLast? '\r' line :=
        fun hmem => hline (dropLast?_subset _ _ hmem)
      have hunified : unifyNewlines line = dropLast? '\r' line ++ ['\n'] :=
        (congrArg unifyNewlines hended).trans (unifyNewlines_append hbody ['\r'])
      rw [hunified, splitLines_append_newline hnewline, splitLines, List.map_singleton,
        stripEnding_concat, dropLast?_of_notMem hbody]
  | @ended line rest lines hline _ ih =>
    have hbody := hreturn _ List.mem_cons_self
    rw [stripEnding_concat] at hbody
    have hnewline : '\n' ∉ dropLast? '\r' line := fun hmem => hline (dropLast?_subset _ _ hmem)
    have hrest := ih fun other hother => hreturn other (List.mem_cons_of_mem _ hother)
    rw [unifyNewlines_line hbody, splitLines_append_newline hnewline, List.map_cons, hrest,
      List.map_cons, stripEnding_concat, stripEnding_concat, dropLast?_of_notMem hbody]

/-! ## Lines with endings of both kinds -/

/-- A text is made of the given lines. Each is ended in either way, except that nothing need follow
the last one if it is not empty. -/
inductive IsMadeOf : List Char → List (List Char) → Prop where
  /-- The empty text is made of no lines. -/
  | nil : IsMadeOf [] []
  /-- Nothing follows the last line. -/
  | unended {line : List Char} (hne : line ≠ []) (hline : '\n' ∉ line)
      (hreturn : line.getLast? ≠ some '\r') : IsMadeOf line [line]
  /-- A newline ends a line. -/
  | newline {line rest : List Char} {lines : List (List Char)} (hline : '\n' ∉ line)
      (hreturn : line.getLast? ≠ some '\r') (hrest : IsMadeOf rest lines) :
      IsMadeOf (line ++ '\n' :: rest) (line :: lines)
  /-- A carriage return and a newline end a line. -/
  | both {line rest : List Char} {lines : List (List Char)} (hline : '\n' ∉ line)
      (hreturn : line.getLast? ≠ some '\r') (hrest : IsMadeOf rest lines) :
      IsMadeOf (line ++ '\r' :: '\n' :: rest) (line :: lines)

/-- Without their endings, the lines of a text are those of which it is made. -/
theorem map_stripEnding_splitLines (h : IsMadeOf text lines) :
    (splitLines text).map stripEnding = lines := by
  induction h with
  | nil => rfl
  | @unended line hne hline hreturn =>
    rw [splitLines_of_notMem hne hline, List.map_singleton, stripEnding_of_notMem hline,
      dropLast?_of_ne hreturn]
  | newline hline hreturn _ ih =>
    rw [splitLines_append_newline hline, List.map_cons, ih, stripEnding_concat,
      dropLast?_of_ne hreturn]
  | @both line rest lines hline _ _ ih =>
    have hending : '\n' ∉ line ++ ['\r'] := by
      intro hmem
      rcases List.mem_append.1 hmem with hmem | hmem
      · exact hline hmem
      · cases List.mem_singleton.1 hmem
    have hsplit : line ++ '\r' :: '\n' :: rest = (line ++ ['\r']) ++ '\n' :: rest := by
      rw [List.append_assoc, List.singleton_append]
    rw [hsplit, splitLines_append_newline hending, List.map_cons, ih, stripEnding_concat,
      dropLast?_concat]

end LineEditor.Text
