import LineEditor.Proofs.Program.Done
import LineEditor.Proofs.Program.FlatExecuted

/-!
# Stopping when the line is done

A run that stops when the line is done is the first part of one that does not stop: it executes the
leaves up to the first one that makes the line done. Whether the line is done in the end is decided
by the last leaf executed if the run stops, and by the last search, or command to be done with the
line, if it does not.
-/

namespace LineEditor

variable {leaves first : List Leaf} {line : Line}

/-! ## Leaves of supported commands -/

theorem mem_leavesAll {leaf : Leaf} {commands : List Command}
    (h : leaf ∈ Command.leavesAll commands) : ∃ c ∈ commands, leaf ∈ c.leaves := by
  induction commands with
  | nil => exact absurd h (by simp [Command.leavesAll])
  | cons c commands ih =>
    rw [Command.leavesAll] at h
    rcases List.mem_append.1 h with h | h
    · exact ⟨c, by simp, h⟩
    · obtain ⟨d, hd, hleaf⟩ := ih h
      exact ⟨d, List.mem_cons_of_mem _ hd, hleaf⟩

/-- The leaves of a command are basic commands of it. -/
theorem satisfies_of_mem_leaves {p : Edit → Prop} {c : Command} (hc : c.BuiltFrom p) {leaf : Leaf}
    (h : leaf ∈ c.leaves) : leaf.Satisfies p := by
  induction hc with
  | edit he =>
    rw [Command.leaves, List.mem_singleton] at h
    rw [h]
    exact he
  | times hbody ih =>
    rw [Command.leaves, List.mem_flatten] at h
    obtain ⟨copy, hcopy, hleaf⟩ := h
    rw [List.eq_of_mem_replicate hcopy] at hleaf
    exact ih hleaf
  | block hcommands ih =>
    rw [Command.leaves] at h
    obtain ⟨c, hc, hleaf⟩ := mem_leavesAll h
    exact ih c hc hleaf

/-! ## The line after some leaves -/

/-- The line after some leaves have run without stopping. -/
def lineAfter (leaves : List Leaf) (line : Line) : Line :=
  (runLeaves false leaves line).line

@[simp] theorem lineAfter_nil : lineAfter [] line = line := rfl

/-- Leaves that are basic commands run to the end, if nothing stops them, and leave a line in
bounds. -/
theorem runLeaves_eq_lineAfter (hleaves : ∀ leaf ∈ leaves, leaf.Satisfies fun _ => True)
    (h : line.InBounds) :
    runLeaves false leaves line = .ran (lineAfter leaves line) ∧
      (lineAfter leaves line).InBounds := by
  obtain ⟨last, hlast, hin⟩ := runLeaves_inBounds false hleaves h
  have hline : lineAfter leaves line = last := by rw [lineAfter, hlast]; rfl
  rw [hline]
  exact ⟨hlast, hin⟩

theorem lineAfter_append (hfirst : ∀ leaf ∈ first, leaf.Satisfies fun _ => True)
    (h : line.InBounds) (second : List Leaf) :
    lineAfter (first ++ second) line = lineAfter second (lineAfter first line) := by
  rw [lineAfter, runLeaves_append, (runLeaves_eq_lineAfter hfirst h).1]
  rfl

theorem lineAfter_cons (h : line.InBounds) (e : Edit) (leaves : List Leaf) :
    lineAfter (.edit e :: leaves) line = lineAfter leaves (e.run line) := by
  rw [lineAfter, runLeaves_cons (by simp), Leaf.run, (e.attempt_inBounds h).1]
  rfl

/-! ## How many leaves a run executes -/

/-- The number of leaves up to the first one after which the line is done, if nothing stops them;
all of them if there is none. -/
def leavesUntilDone (leaves : List Leaf) (line : Line) : Nat :=
  ((List.range' 1 leaves.length).find? fun k => (lineAfter (leaves.take k) line).done).getD
    leaves.length

theorem leavesUntilDone_cons (h : line.InBounds) (e : Edit) (leaves : List Leaf) :
    leavesUntilDone (.edit e :: leaves) line =
      if (e.run line).done then 1 else leavesUntilDone leaves (e.run line) + 1 := by
  have htake : ∀ k, lineAfter ((Leaf.edit e :: leaves).take (1 + k)) line =
      lineAfter (leaves.take k) (e.run line) := by
    intro k
    rw [Nat.add_comm, List.take_succ_cons, lineAfter_cons h]
  have hone : lineAfter ((Leaf.edit e :: leaves).take 1) line = e.run line := htake 0
  unfold leavesUntilDone
  rw [List.length_cons, List.range'_succ, List.find?_cons, hone]
  by_cases hdone : (e.run line).done = true
  · simp [hdone]
  · have hmap : List.range' (1 + 1) leaves.length = (List.range' 1 leaves.length).map (1 + ·) :=
      (List.map_add_range' 1 leaves.length 1).symm
    simp only [hdone, hmap, List.find?_map, Function.comp_def, htake, Bool.false_eq_true, if_false]
    cases (List.range' 1 leaves.length).find? fun k =>
      (lineAfter (leaves.take k) (e.run line)).done with
    | none => rfl
    | some k => exact Nat.add_comm 1 k

theorem leavesUntilDone_le (leaves : List Leaf) (line : Line) :
    leavesUntilDone leaves line ≤ leaves.length := by
  unfold leavesUntilDone
  cases hfind : (List.range' 1 leaves.length).find? fun k =>
      (lineAfter (leaves.take k) line).done with
  | none => exact Nat.le_refl _
  | some k =>
    have hk := (List.find?_range'_eq_some.1 hfind).2.1
    rw [List.mem_range'_1] at hk
    show k ≤ leaves.length
    omega

/-- Before so many leaves the line is not done. -/
theorem not_done_of_lt (hdone : line.done = false) {k : Nat}
    (hk : k < leavesUntilDone leaves line) : (lineAfter (leaves.take k) line).done = false := by
  rcases Nat.eq_zero_or_pos k with rfl | hpos
  · exact hdone
  have hlength := Nat.lt_of_lt_of_le hk (leavesUntilDone_le leaves line)
  unfold leavesUntilDone at hk
  cases hfind : (List.range' 1 leaves.length).find? fun k =>
      (lineAfter (leaves.take k) line).done with
  | none =>
    have hmem : k ∈ List.range' 1 leaves.length := by
      rw [List.mem_range'_1]
      omega
    simpa using List.find?_eq_none.1 hfind k hmem
  | some n =>
    rw [hfind] at hk
    simpa using (List.find?_range'_eq_some.1 hfind).2.2 k hpos hk

/-- A run that stops when the line is done executes the leaves up to the first one after which it
is. -/
theorem executedLeaves_eq_take (hleaves : ∀ leaf ∈ leaves, leaf.Satisfies fun _ => True)
    (h : line.InBounds) (hdone : line.done = false) :
    executedLeaves true leaves line = leaves.take (leavesUntilDone leaves line) := by
  induction leaves generalizing line with
  | nil => rfl
  | cons leaf leaves ih =>
    cases leaf with
    | program => exact absurd (hleaves .program (by simp)) id
    | edit e =>
      obtain ⟨hattempt, hin⟩ := e.attempt_inBounds h
      have hothers : ∀ leaf ∈ leaves, leaf.Satisfies fun _ => True :=
        fun leaf hleaf => hleaves leaf (List.mem_cons_of_mem _ hleaf)
      have hstep : executedLeaves true (.edit e :: leaves) line =
          .edit e :: executedLeaves true leaves (e.run line) := by
        rw [executedLeaves_cons (by simp [hdone]), Leaf.run, hattempt]
        rfl
      rw [hstep, leavesUntilDone_cons h]
      by_cases hnext : (e.run line).done = true
      · rw [if_pos hnext, executedLeaves_of_done (by simp [hnext])]
        rfl
      · rw [if_neg hnext, ih hothers hin (by simpa using hnext)]
        rfl

/-- If the line never gets done, a run that stops executes all leaves. -/
theorem leavesUntilDone_eq_length (h : ∀ k, (lineAfter (leaves.take k) line).done = false) :
    leavesUntilDone leaves line = leaves.length := by
  have hnone : ((List.range' 1 leaves.length).find? fun k =>
      (lineAfter (leaves.take k) line).done) = none := by
    refine List.find?_eq_none.2 fun k _ => ?_
    rw [h k]
    decide
  rw [leavesUntilDone, hnone]
  rfl

/-! ## What decides whether the line is done in the end -/

theorem done_lineAfter_concat_iff (hfirst : ∀ leaf ∈ first, leaf.Satisfies fun _ => True)
    (h : line.InBounds) {leaf : Leaf} (hleaf : leaf.Satisfies fun _ => True)
    (hdecides : leaf.Satisfies Edit.Decides ∨ (lineAfter first line).done = false) :
    (lineAfter (first ++ [leaf]) line).done = true ↔
      leaf.Satisfies (Edit.Finishes (lineAfter first line)) := by
  have hin := (runLeaves_eq_lineAfter hfirst h).2
  cases leaf with
  | program => exact absurd hleaf id
  | edit e =>
    rw [lineAfter_append hfirst h, lineAfter_cons hin, lineAfter_nil]
    rcases hdecides with he | hdone
    · exact e.done_run_of_decides hin he
    · exact e.done_run_iff hin hdone

/-- Leaves that do not decide it leave the line as done as it was. -/
theorem done_lineAfter_of_not_decides (hleaves : ∀ leaf ∈ leaves, leaf.Satisfies fun _ => True)
    (h : line.InBounds) (hdecides : ∀ leaf ∈ leaves, ¬ leaf.Satisfies Edit.Decides) :
    (lineAfter leaves line).done = line.done := by
  induction leaves generalizing line with
  | nil => rfl
  | cons leaf leaves ih =>
    cases leaf with
    | program => exact absurd (hleaves .program (by simp)) id
    | edit e =>
      have he : ¬ e.Decides := hdecides (.edit e) (by simp)
      rw [lineAfter_cons h,
        ih (fun leaf hleaf => hleaves leaf (List.mem_cons_of_mem _ hleaf)) (e.run_inBounds h)
          fun leaf hleaf => hdecides leaf (List.mem_cons_of_mem _ hleaf)]
      exact e.done_run_of_not_decides he line

/-- While a run that stops goes on, the line is not done. -/
theorem not_done_of_take_eq_append (hdone : line.done = false) {second : List Leaf}
    (hsplit : leaves.take (leavesUntilDone leaves line) = first ++ second) (hne : second ≠ []) :
    (lineAfter first line).done = false := by
  have hle := leavesUntilDone_le leaves line
  have hlength := congrArg List.length hsplit
  rw [List.length_take, List.length_append] at hlength
  have hpos := List.length_pos_of_ne_nil hne
  have hlt : first.length < leavesUntilDone leaves line := by omega
  have hfirst := congrArg (List.take first.length) hsplit
  rw [List.take_take, Nat.min_eq_left (Nat.le_of_lt hlt), List.take_left] at hfirst
  rw [← hfirst]
  exact not_done_of_lt hdone hlt

/-- A run that stops leaves the line done if the last leaf executed makes it done, and no leaf
before did. -/
theorem done_of_stopping_iff (hleaves : ∀ leaf ∈ leaves, leaf.Satisfies fun _ => True)
    (h : line.InBounds) (hdone : line.done = false) :
    (lineAfter (leaves.take (leavesUntilDone leaves line)) line).done = true ↔
      ∃ before leaf, leaves.take (leavesUntilDone leaves line) = before ++ [leaf] ∧
        leaf.Satisfies (Edit.Finishes (lineAfter before line)) ∧
        ∀ front earlier back, before = front ++ earlier :: back →
          ¬ earlier.Satisfies (Edit.Finishes (lineAfter front line)) := by
  have htaken : ∀ leaf ∈ leaves.take (leavesUntilDone leaves line),
      leaf.Satisfies fun _ => True := fun leaf hleaf => hleaves leaf (List.mem_of_mem_take hleaf)
  constructor
  · intro hlast
    rcases List.eq_nil_or_concat (leaves.take (leavesUntilDone leaves line)) with
      hnil | ⟨before, leaf, hsplit⟩
    · rw [hnil, lineAfter_nil, hdone] at hlast
      cases hlast
    rw [List.concat_eq_append] at hsplit
    rw [hsplit] at htaken
    have hbefore : ∀ leaf ∈ before, leaf.Satisfies fun _ => True :=
      fun leaf hleaf => htaken leaf (List.mem_append_left _ hleaf)
    have hgoing := not_done_of_take_eq_append hdone hsplit (by simp)
    refine ⟨before, leaf, hsplit, ?_, ?_⟩
    · rw [hsplit] at hlast
      exact (done_lineAfter_concat_iff hbefore h (htaken leaf (by simp)) (.inr hgoing)).1 hlast
    · rintro front earlier back rfl hearlier
      have hbefore_earlier : leaves.take (leavesUntilDone leaves line) =
          front ++ (earlier :: back ++ [leaf]) := by simpa using hsplit
      have hfront := not_done_of_take_eq_append hdone hbefore_earlier (by simp)
      have hafter_earlier : leaves.take (leavesUntilDone leaves line) =
          (front ++ [earlier]) ++ (back ++ [leaf]) := by simpa using hsplit
      have hnext := not_done_of_take_eq_append hdone hafter_earlier (by simp)
      have hfinished := (done_lineAfter_concat_iff
        (fun leaf hleaf => hbefore leaf (List.mem_append_left _ hleaf)) h
        (hbefore earlier (by simp)) (.inr hfront)).2 hearlier
      rw [hnext] at hfinished
      cases hfinished
  · rintro ⟨before, leaf, hsplit, hfinishes, -⟩
    rw [hsplit] at htaken ⊢
    have hgoing := not_done_of_take_eq_append hdone hsplit (by simp)
    exact (done_lineAfter_concat_iff (fun leaf hleaf => htaken leaf (List.mem_append_left _ hleaf))
      h (htaken leaf (by simp)) (.inr hgoing)).2 hfinishes

/-- A run that does not stop leaves the line as done as the last leaf that decides it makes it. -/
theorem done_of_last_decides {before after : List Leaf} {leaf : Leaf}
    (hleaves : ∀ l ∈ before ++ leaf :: after, l.Satisfies fun _ => True) (h : line.InBounds)
    (hleaf : leaf.Satisfies Edit.Decides)
    (hafter : ∀ l ∈ after, ¬ l.Satisfies Edit.Decides) :
    (lineAfter (before ++ leaf :: after) line).done = true ↔
      leaf.Satisfies (Edit.Finishes (lineAfter before line)) := by
  have hbefore : ∀ l ∈ before, l.Satisfies fun _ => True := fun l hl => hleaves l (by simp [hl])
  have hboth : ∀ l ∈ before ++ [leaf], l.Satisfies fun _ => True := by
    intro l hl
    refine hleaves l ?_
    rcases List.mem_append.1 hl with hl | hl
    · exact List.mem_append_left _ hl
    · rw [List.mem_singleton.1 hl]
      simp
  have hin := (runLeaves_eq_lineAfter hboth h).2
  have hsplit : before ++ leaf :: after = before ++ [leaf] ++ after := by simp
  rw [hsplit, lineAfter_append hboth h,
    done_lineAfter_of_not_decides (fun l hl => hleaves l (by simp [hl])) hin hafter]
  exact done_lineAfter_concat_iff hbefore h (hleaves leaf (by simp)) (.inl hleaf)

/-! ## Programs -/

/-- Run on a text, a program without negative counts executes, if it stops when the line is done,
the first leaves of the run that does not stop, up to the first one after which the line is done.
So the two runs differ only if the line gets done. Whether it is in the end, a run that stops leaves
to the last leaf that it executes, and one that does not stop to the last leaf that decides it. -/
theorem stopping_run_executes_until_done {program : Program} (hcounted : ∀ c ∈ program, c.Counted)
    (hsupported : ∀ c ∈ program, c.Supported) (text : List Char) :
    let leaves := Command.leavesAll program
    let executed := leaves.take (leavesUntilDone leaves { text })
    Command.executedAll true program { text } = executed ∧
    (∃ last, runLeaves false executed { text } = .ran last ∧
      Program.run true program text = .ran last) ∧
    Program.run false program text = .ran (lineAfter leaves { text }) ∧
    ((∀ k, (lineAfter (leaves.take k) { text }).done = false) →
      Program.run true program text = Program.run false program text) ∧
    ((Program.run true program text).line.done = true ↔
      ∃ before leaf, executed = before ++ [leaf] ∧
        leaf.Satisfies (Edit.Finishes (lineAfter before { text })) ∧
        ∀ front earlier back, before = front ++ earlier :: back →
          ¬ earlier.Satisfies (Edit.Finishes (lineAfter front { text }))) ∧
    (∀ before leaf after, leaves = before ++ leaf :: after → leaf.Satisfies Edit.Decides →
      (∀ l ∈ after, ¬ l.Satisfies Edit.Decides) →
      ((Program.run false program text).line.done = true ↔
        leaf.Satisfies (Edit.Finishes (lineAfter before { text })))) ∧
    ((∀ l ∈ leaves, ¬ l.Satisfies Edit.Decides) →
      (Program.run false program text).line.done = false) := by
  intro leaves executed
  have hstart : ({ text } : Line).InBounds := Line.inBounds_ofText text
  have hleaves : ∀ leaf ∈ leaves, leaf.Satisfies fun _ => True := by
    intro leaf hleaf
    obtain ⟨c, hc, hleaf⟩ := mem_leavesAll hleaf
    exact satisfies_of_mem_leaves (hsupported c hc) hleaf
  have hexecuted : Command.executedAll true program { text } = executed := by
    rw [executedAll_eq_executedLeaves hcounted]
    exact executedLeaves_eq_take hleaves hstart rfl
  have hstopping : Program.run true program text = .ran (lineAfter executed { text }) := by
    rw [Program.run, runAll_eq_executed, hexecuted]
    exact (runLeaves_eq_lineAfter (fun leaf hleaf => hleaves leaf (List.mem_of_mem_take hleaf))
      hstart).1
  have hwhole : Program.run false program text = .ran (lineAfter leaves { text }) := by
    rw [Program.run, runAll_eq_runLeaves hcounted]
    exact (runLeaves_eq_lineAfter hleaves hstart).1
  refine ⟨hexecuted, ⟨_, ?_, hstopping⟩, hwhole, fun hnever => ?_, ?_, ?_, fun hdecides => ?_⟩
  · exact (runLeaves_eq_lineAfter (fun leaf hleaf => hleaves leaf (List.mem_of_mem_take hleaf))
      hstart).1
  · have hall : executed = leaves := by
      show leaves.take _ = leaves
      rw [leavesUntilDone_eq_length hnever, List.take_length]
    rw [hstopping, hwhole, hall]
  · rw [hstopping]
    exact done_of_stopping_iff hleaves hstart rfl
  · intro before leaf after hsplit hleaf hafter
    rw [hwhole, hsplit]
    rw [hsplit] at hleaves
    exact done_of_last_decides hleaves hstart hleaf hafter
  · rw [hwhole]
    exact done_lineAfter_of_not_decides hleaves hstart hdecides

/-- Twice three times a search and a deletion: the third search fails, and the run that stops
executes no more. -/
theorem stopping_run_executes_until_done_nested :
    (∀ c ∈ [Command.times 2 (.times 3 (.block [.edit (.find ['b']), .edit (.plain .delete)]))],
      c.Counted) ∧
    (∀ c ∈ [Command.times 2 (.times 3 (.block [.edit (.find ['b']), .edit (.plain .delete)]))],
      c.Supported) ∧
    Command.executedAll true
        [.times 2 (.times 3 (.block [.edit (.find ['b']), .edit (.plain .delete)]))]
        { text := ['a', 'b', 'x', 'b'] } =
      [.edit (.find ['b']), .edit (.plain .delete), .edit (.find ['b']), .edit (.plain .delete),
        .edit (.find ['b'])] := by
  have hcounted : ∀ c ∈ [Command.times 2 (.times 3
      (.block [.edit (.find ['b']), .edit (.plain .delete)]))], c.Counted := by
    intro c hc
    rw [List.mem_singleton.1 hc]
    refine .times (by decide) (.times (by decide) (.block ?_))
    intro c hc
    simp only [List.mem_cons, List.not_mem_nil, or_false] at hc
    rcases hc with rfl | rfl
    · exact .edit
    · exact .edit
  have hsupported : ∀ c ∈ [Command.times 2 (.times 3
      (.block [.edit (.find ['b']), .edit (.plain .delete)]))], c.Supported := by
    intro c hc
    rw [List.mem_singleton.1 hc]
    refine .times (.times (.block ?_))
    intro c hc
    simp only [List.mem_cons, List.not_mem_nil, or_false] at hc
    rcases hc with rfl | rfl
    · exact .edit trivial
    · exact .edit trivial
  refine ⟨hcounted, hsupported, ?_⟩
  rw [(stopping_run_executes_until_done hcounted hsupported ['a', 'b', 'x', 'b']).1]
  decide +kernel

end LineEditor
