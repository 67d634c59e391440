import LineEditor.Proofs.Line.InBounds
import LineEditor.Proofs.Program.Executed

/-!
# Running on a line in bounds

On a line in bounds no basic command is refused, and each of them leaves a line in bounds. So a
command without programs among its nodes runs to the end, whatever its counts, and after every leaf
that it executes the cursor stands on the line and the region lies within it.
-/

namespace LineEditor

variable {line : Line}

/-! ## One basic command -/

theorem Line.InBounds.isBefore_eq_false (h : line.InBounds) : line.isBefore = false := by
  have h0 := h.cursor_nonneg
  simp only [isBefore, decide_eq_false_iff_not]
  omega

theorem Line.InBounds.isPast_eq_false (h : line.InBounds) : line.isPast = false := by
  have h1 := h.cursor_le
  simp only [isPast, decide_eq_false_iff_not]
  omega

/-- On a line in bounds every character that a command looks at or deletes is there. -/
theorem Verb.fault?_eq_none (h : line.InBounds) (verb : Verb) : verb.fault? line = none := by
  have hbefore := h.isBefore_eq_false
  have hpast := h.isPast_eq_false
  have htranspose : (1 < line.length && (line.cursor ≤ -line.length || line.isPast)) = false := by
    have h0 := h.cursor_nonneg
    rw [hpast]
    simp
    omega
  unfold Verb.fault?
  split <;> simp [hbefore, hpast]
  simpa [hpast] using htranspose

theorem Edit.fault?_eq_none (h : line.InBounds) (edit : Edit) : edit.fault? line = none := by
  unfold Edit.fault?
  split
  · exact Verb.fault?_eq_none h _
  · rw [h.isBefore_eq_false]
    rfl
  · rfl

theorem Verb.run_inBounds (h : line.InBounds) (verb : Verb) : (verb.run line).InBounds := by
  cases verb with
  | forward => exact h.forward
  | back => exact h.back
  | forwardWord => exact h.forwardWord
  | backWord => exact h.backWord
  | home => exact h.home
  | lineEnd => exact h.toEnd
  | last => exact h.last
  | delete => exact h.delete
  | deleteBack => exact h.deleteBack
  | transposeChars => exact h.transposeChars
  | upcaseChar | downcaseChar => exact h.modifyChar _
  | copyLine | copy => exact h.withClips _
  | killWord => exact h.killWord
  | killWordBack => exact h.killWordBack
  | killFullWord => exact h.killFullWord
  | transposeWords => exact h.transposeWords
  | upcaseWord | downcaseWord | upcaseRegion | downcaseRegion => exact Line.inBounds_modify _ _ line
  | capitalizeWord => exact h.capitalizeWord
  | mark => exact h.setMark
  | transpose => exact h.transpose
  | paste => exact h.paste
  | cut => exact h.cut
  | upcaseClip | downcaseClip | capitalizeClip | trimClipLeft | trimClipRight | trimClip =>
    exact h.modifyClip _
  | kill => exact h.removeAfter
  | killLine => exact h.killAfter
  | killLineBack => exact h.killBefore
  | trimLine | trimLineLeft | trimLineRight | upcaseLine | downcaseLine =>
    exact Line.inBounds_modifyText _ _
  | nextLine => exact h.withDone true

theorem Edit.run_inBounds (h : line.InBounds) (edit : Edit) : (edit.run line).InBounds := by
  cases edit with
  | plain verb => exact verb.run_inBounds h
  | goto column => exact h.goto column
  | insert s => exact h.insert s
  | truncateBy amount => exact Line.inBounds_modifyText _ line
  | find target => exact (h.find target).withDone _
  | findBack target => exact (h.findBack target).withDone _
  | translate pairs => exact h.translate pairs

/-- A basic command can be run on a line in bounds and leaves one. -/
theorem Edit.attempt_inBounds (h : line.InBounds) (edit : Edit) :
    edit.attempt line = .ran (edit.run line) ∧ (edit.run line).InBounds := by
  refine ⟨?_, edit.run_inBounds h⟩
  unfold Edit.attempt
  rw [edit.fault?_eq_none h]

theorem run_edit {stop : Bool} (h : line.InBounds) (edit : Edit) :
    Command.run stop (.edit edit) line = .ran (edit.run line) := by
  rw [Command.run]
  exact (edit.attempt_inBounds h).1

theorem runAll_edit_cons {stop : Bool} (h : line.InBounds) (hgo : ¬ (stop && line.done) = true)
    (edit : Edit) (commands : List Command) :
    Command.runAll stop (.edit edit :: commands) line =
      Command.runAll stop commands (edit.run line) := by
  rw [runAll_cons hgo, run_edit h, ran_andThen]

/-! ## A whole run -/

/-- Leaves that are basic commands run to the end on a line in bounds. -/
theorem runLeaves_inBounds (stop : Bool) {leaves : List Leaf}
    (hleaves : ∀ leaf ∈ leaves, leaf.Satisfies fun _ => True) (h : line.InBounds) :
    ∃ reached, runLeaves stop leaves line = .ran reached ∧ reached.InBounds :=
  runLeaves_keeps
    (fun edit _ line h => ⟨edit.run line, (edit.attempt_inBounds h).1, (edit.attempt_inBounds h).2⟩)
    hleaves h

/-- Leaves leave a line in bounds, also if one of them is refused. -/
theorem runLeaves_line_inBounds (stop : Bool) (leaves : List Leaf) (h : line.InBounds) :
    (runLeaves stop leaves line).line.InBounds := by
  induction leaves generalizing line with
  | nil => exact h
  | cons leaf leaves ih =>
    by_cases hdone : (stop && line.done) = true
    · rw [runLeaves_of_done hdone]
      exact h
    · rw [runLeaves_cons hdone]
      cases leaf with
      | edit e =>
        obtain ⟨hran, hnext⟩ := e.attempt_inBounds h
        rw [Leaf.run, hran, ran_andThen]
        exact ih hnext
      | program => exact h

/-- Whatever program has run on whatever text, the line that it has left is in bounds. -/
theorem Program.run_line_inBounds (stop : Bool) (program : Program) (text : List Char) :
    (Program.run stop program text).line.InBounds := by
  rw [Program.run, runAll_eq_executed]
  exact runLeaves_line_inBounds false _ (Line.inBounds_ofText text)

/-- A supported command runs to the end on a line in bounds, and what it does is what the leaves do
that it executes. After each of these the line is in bounds and the region within it. -/
theorem inBounds_throughout_run (stop : Bool) {c : Command} (hc : c.Supported)
    (h : line.InBounds) :
    ∃ last, c.run stop line = .ran last ∧ last.InBounds ∧ last.region.Within last.length ∧
      runLeaves false (c.executed stop line) line = .ran last ∧
      ∀ before after, c.executed stop line = before ++ after →
        ∃ reached, runLeaves false before line = .ran reached ∧ reached.InBounds ∧
          reached.region.Within reached.length := by
  have hleaves : ∀ leaf ∈ c.executed stop line, leaf.Satisfies fun _ => True :=
    fun leaf hleaf => (satisfies_of_mem_executed hc).1 line hleaf
  have hrun : c.run stop line = _ := run_eq_executed c line
  obtain ⟨last, hlast, hin⟩ := runLeaves_inBounds false hleaves h
  refine ⟨last, hrun.trans hlast, hin, hin.region_within, hlast, ?_⟩
  intro before after hsplit
  have hbefore : ∀ leaf ∈ before, leaf.Satisfies fun _ => True := by
    intro leaf hleaf
    exact hleaves leaf (hsplit ▸ List.mem_append_left after hleaf)
  obtain ⟨reached, hreached, hkept⟩ := runLeaves_inBounds false hbefore h
  exact ⟨reached, hreached, hkept, hkept.region_within⟩

/-- Two negative counts make three rounds of cutting the region and inserting it in front, where the
mark is past the end. -/
theorem inBounds_throughout_run_negative :
    Command.Supported
      (.times (-1) (.times (-3) (.block [.edit (.plain .cut), .edit (.plain .paste)]))) ∧
    Line.InBounds { text := ['a', 'b', 'c'], cursor := 1, mark := some 9 } ∧
    ∃ last, Command.run true
        (.times (-1) (.times (-3) (.block [.edit (.plain .cut), .edit (.plain .paste)])))
        { text := ['a', 'b', 'c'], cursor := 1, mark := some 9 } = .ran last ∧
      last.InBounds ∧ last.region.Within last.length := by
  have hc : Command.Supported
      (.times (-1) (.times (-3) (.block [.edit (.plain .cut), .edit (.plain .paste)]))) := by
    refine .times (.times (.block ?_))
    intro c hc
    simp only [List.mem_cons, List.not_mem_nil, or_false] at hc
    rcases hc with rfl | rfl
    · exact .edit trivial
    · exact .edit trivial
  have h : Line.InBounds { text := ['a', 'b', 'c'], cursor := 1, mark := some 9 } :=
    ⟨by decide, by decide, by simp⟩
  obtain ⟨last, hlast, hin, hregion, -⟩ := inBounds_throughout_run true hc h
  exact ⟨hc, h, last, hlast, hin, hregion⟩

end LineEditor
