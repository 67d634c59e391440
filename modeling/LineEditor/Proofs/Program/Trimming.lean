import LineEditor.Proofs.Line.Trimming
import LineEditor.Proofs.Program.RepeatedEdits

/-!
# Truncating and trimming

Truncations of a line add up, and its two ends can be trimmed in either order. A command that
changes the whole line has another that goes with it and changes the text copied last in the
same way.
-/

namespace LineEditor

/-- The command that does to the text copied last what a command does to the whole line. -/
def Verb.onClip? : Verb → Option Verb
  | .trimLine => some .trimClip
  | .trimLineLeft => some .trimClipLeft
  | .trimLineRight => some .trimClipRight
  | .upcaseLine => some .upcaseClip
  | .downcaseLine => some .downcaseClip
  | _ => none

variable {stop : Bool} {line : Line} {v w : Verb}

/-! ## Truncating -/

/-- A line that is truncated and a line with as many characters deleted at its end have one text. -/
theorem exists_text_truncateBy (h : line.InBounds) (stop : Bool) (a : Nat) :
    ∃ truncated deleted,
      Command.runAll stop [.edit (.truncateBy a)] line = .ran truncated ∧
      Command.runAll stop [.edit (.plain .lineEnd), .times a (.edit (.plain .deleteBack))] line =
        .ran deleted ∧ truncated.text = deleted.text := by
  by_cases hgo : (stop && line.done) = true
  · exact ⟨line, line, runAll_of_done hgo _, runAll_of_done hgo _, rfl⟩
  · refine ⟨line.truncateBy a, Line.deleteBack^[a] line.toEnd, ?_, ?_, line.text_truncateBy a⟩
    · rw [runAll_edit_cons h hgo, runAll_nil]
      rfl
    · have hend := (Edit.plain .lineEnd).run_inBounds h
      rw [runAll_edit_cons h hgo, runAll_times_cons id hend hgo, runAll_nil]
      rfl

/-! ## The whole line and the text copied last -/

/-- The two commands apply one function, to the line and to the text copied last. -/
theorem Verb.exists_of_onClip?_eq_some (h : v.onClip? = some w) :
    ∃ f : List Char → List Char, v.run = Line.modifyText f ∧ w.run = Line.modifyClip f := by
  unfold onClip? at h
  split at h <;> cases h
  · exact ⟨Text.trim, funext Line.trim_eq_modifyText, rfl⟩
  · exact ⟨Text.trimLeft, rfl, rfl⟩
  · exact ⟨Text.trimRight, rfl, rfl⟩
  · exact ⟨Text.upcase, rfl, rfl⟩
  · exact ⟨Text.downcase, rfl, rfl⟩

/-- A copy of the line that is changed is the text that the line would have if it were changed. -/
theorem Verb.run_copyLine (h : v.onClip? = some w) (line : Line) :
    w.run line.copyLine = { line with clips := (v.run line).text :: line.clips } := by
  obtain ⟨f, hv, hw⟩ := exists_of_onClip?_eq_some h
  rw [hv, hw]
  rfl

theorem exists_clips_copyLine (h : line.InBounds) (hgo : ¬ (stop && line.done) = true)
    (hvw : v.onClip? = some w) :
    ∃ copied changed,
      Command.runAll stop [.edit (.plain .copyLine), .edit (.plain w)] line = .ran copied ∧
      Command.runAll stop [.edit (.plain v)] line = .ran changed ∧
      copied = { line with clips := changed.text :: line.clips } := by
  refine ⟨w.run line.copyLine, v.run line, ?_, ?_, Verb.run_copyLine hvw line⟩
  · have hcopied := (Edit.plain .copyLine).run_inBounds h
    rw [runAll_edit_cons h hgo, runAll_edit_cons hcopied hgo, runAll_nil]
    rfl
  · rw [runAll_edit_cons h hgo, runAll_nil]
    rfl

/-! ## The laws -/

/-- On a line in bounds, whether or not the run has stopped: the amounts of two truncations add up,
and truncating leaves the text that deleting as many characters at the end leaves. The two ends can
be trimmed in either order, which is trimming the line, and trimming it again changes nothing.
Trimming takes the blanks off both ends and nothing else. A copy of the line that is trimmed, or put
in upper or lower case, is the text that the line itself would then have. -/
theorem truncations_add_up_and_trims_agree (h : line.InBounds) (stop : Bool) (a b : Nat) :
    let run (edits : List Edit) := Command.runAll stop (edits.map .edit) line
    run [.truncateBy a, .truncateBy b] = run [.truncateBy (a + b)] ∧
      (∃ truncated deleted,
        run [.truncateBy a] = .ran truncated ∧
        Command.runAll stop [.edit (.plain .lineEnd), .times a (.edit (.plain .deleteBack))] line =
          .ran deleted ∧ truncated.text = deleted.text) ∧
      run [.plain .trimLineLeft, .plain .trimLineRight] = run [.plain .trimLine] ∧
      run [.plain .trimLineRight, .plain .trimLineLeft] = run [.plain .trimLine] ∧
      run [.plain .trimLine, .plain .trimLine] = run [.plain .trimLine] ∧
      (∃ trimmed, Command.run stop (.edit (.plain .trimLine)) line = .ran trimmed ∧
        line.TrimsTo trimmed) ∧
      ∀ v w, Verb.onClip? v = some w → (stop && line.done) = false →
        ∃ copied changed,
          run [.plain .copyLine, .plain w] = .ran copied ∧ run [.plain v] = .ran changed ∧
          copied = { line with clips := changed.text :: line.clips } := by
  intro run
  have htrim : ∀ e ∈ [Edit.plain .trimLine], ¬ e.Decides := by simp [Edit.Decides]
  refine ⟨?_, exists_text_truncateBy h stop a, ?_, ?_, ?_,
    ⟨line.trim, run_edit h (.plain .trimLine), h.trimsTo_trim⟩,
    fun v w hvw hgo => exists_clips_copyLine h (Bool.eq_false_iff.1 hgo) hvw⟩
  · exact runAll_edits_congr h stop (by simp [Edit.Decides]) (by simp [Edit.Decides])
      (line.truncateBy_truncateBy a b)
  · exact runAll_edits_congr h stop (by simp [Edit.Decides]) htrim line.trimRight_trimLeft
  · exact runAll_edits_congr h stop (by simp [Edit.Decides]) htrim rfl
  · exact runAll_edits_congr h stop (by simp [Edit.Decides]) htrim line.trim_trim

/-- Blanks at both ends and inside, a cursor among those at the end, a mark past the end, and
amounts that are more than the line has characters. -/
theorem truncations_add_up_and_trims_agree_stale :
    let line : Line :=
      { text := "\u3000 a b \u001c".toList, cursor := 6, mark := some 9, clips := ["x".toList] }
    line.InBounds ∧
      Command.runAll true [.edit (.truncateBy (5 : Nat)), .edit (.truncateBy (4 : Nat))] line =
        Command.runAll true [.edit (.truncateBy (9 : Nat))] line ∧
      (∃ trimmed, Command.run true (.edit (.plain .trimLine)) line = .ran trimmed ∧
        line.TrimsTo trimmed ∧
        trimmed = { line with text := "a b".toList, cursor := 3, mark := some 3 }) ∧
      Verb.onClip? .trimLineLeft = some .trimClipLeft ∧ (true && line.done) = false ∧
      ∃ copied changed,
        Command.runAll true [.edit (.plain .copyLine), .edit (.plain .trimClipLeft)] line =
          .ran copied ∧
        Command.runAll true [.edit (.plain .trimLineLeft)] line = .ran changed ∧
        copied = { line with clips := changed.text :: line.clips } := by
  intro line
  have h : line.InBounds := ⟨by decide, by decide, by simp [line]⟩
  obtain ⟨hcut, -, -, -, -, ⟨trimmed, hrun, htrimmed⟩, hclip⟩ :=
    truncations_add_up_and_trims_agree h true 5 4
  refine ⟨h, hcut, ⟨trimmed, hrun, htrimmed, ?_⟩, rfl, rfl,
    hclip .trimLineLeft .trimClipLeft rfl rfl⟩
  have hline : Command.run true (.edit (.plain .trimLine)) line = .ran line.trim := run_edit h _
  cases hline.symm.trans hrun
  decide

end LineEditor
