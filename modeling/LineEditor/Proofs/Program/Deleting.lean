import LineEditor.Proofs.Line.Deleting
import LineEditor.Proofs.Program.Kept

/-!
# Programs that only delete

Moving, searching, marking and copying leave the text alone, and a deletion takes characters out of
it. A program of nothing else leaves some characters of the line in their order: none of them is
doubled, altered or made up.
-/

namespace LineEditor

/-- A basic command leaves the text alone: it moves, searches, is done with the line, sets the mark,
copies, or changes the text copied last. -/
def Edit.LeavesText : Edit → Prop
  | .plain .back | .plain .forward | .plain .home | .plain .lineEnd | .plain .last
  | .plain .forwardWord | .plain .backWord | .goto _ | .find _ | .findBack _
  | .plain .nextLine | .plain .mark | .plain .copy | .plain .copyLine
  | .plain .upcaseClip | .plain .downcaseClip | .plain .capitalizeClip
  | .plain .trimClipLeft | .plain .trimClipRight | .plain .trimClip => True
  | _ => False

/-- A basic command deletes: a character, a word or part of one, the region, an end of the line, or
the blanks there. -/
def Edit.Deletes : Edit → Prop
  | .plain .delete | .plain .deleteBack | .plain .killWord | .plain .killWordBack
  | .plain .killFullWord | .plain .kill | .plain .killLine | .plain .killLineBack | .plain .cut
  | .truncateBy _ | .plain .trimLine | .plain .trimLineLeft | .plain .trimLineRight => True
  | _ => False

/-- Changing the text copied last leaves the text of the line alone. -/
theorem Line.text_modifyClip (f : List Char → List Char) (line : Line) :
    (line.modifyClip f).text = line.text := by
  unfold modifyClip
  split <;> rfl

theorem Edit.text_run_of_leavesText {e : Edit} (he : e.LeavesText) (line : Line) :
    (e.run line).text = line.text := by
  cases e with
  | goto | find | findBack => rfl
  | insert | truncateBy | translate => exact absurd he id
  | plain v => cases v with
    | upcaseClip | downcaseClip | capitalizeClip | trimClipLeft | trimClipRight | trimClip =>
      exact line.text_modifyClip _
    | forward | back | forwardWord | backWord | home | lineEnd | last => rfl
    | mark | copy | copyLine | nextLine => rfl
    | _ => exact absurd he id

/-- A deletion leaves characters of the text in their order. -/
theorem Edit.run_sublist_of_deletes {e : Edit} (he : e.Deletes) (line : Line) :
    (e.run line).text.Sublist line.text := by
  cases e with
  | truncateBy amount => exact line.truncateBy_sublist amount
  | goto | insert | find | findBack | translate => exact absurd he id
  | plain v => cases v with
    | delete => exact line.delete_sublist
    | deleteBack => exact line.deleteBack_sublist
    | killWord | killWordBack | killFullWord | killLine | killLineBack =>
      exact Line.kill_sublist _ line
    | kill => exact line.removeAfter_sublist
    | cut => exact line.cut_sublist
    | trimLine => exact line.trim_sublist
    | trimLineLeft => exact Text.trimLeft_sublist line.text
    | trimLineRight => exact Text.trimRight_sublist line.text
    | _ => exact absurd he id

/-- A program of commands that leave the text alone or delete runs to the end on any text, and what
it leaves are characters of the text in their order. -/
theorem deleting_program_leaves_sublist {program : Program}
    (hprogram : ∀ c ∈ program, c.BuiltFrom fun e => e.LeavesText ∨ e.Deletes) (stop : Bool)
    (text : List Char) :
    ∃ last, Program.run stop program text = .ran last ∧ last.text.Sublist text := by
  have hstep : ∀ e : Edit, e.LeavesText ∨ e.Deletes → ∀ line : Line, line.InBounds →
      line.text.Sublist text → (e.run line).text.Sublist text := by
    intro e he line _ hline
    rcases he with he | he
    · rw [e.text_run_of_leavesText he line]
      exact hline
    · exact (e.run_sublist_of_deletes he line).trans hline
  obtain ⟨last, hlast, -, hsublist⟩ :=
    Program.run_keeps hstep hprogram (List.Sublist.refl text)
  exact ⟨last, hlast, hsublist⟩

/-- The mark is set at the end and stays behind when the line is cut short. Two negative counts make
one round, in which the region up to that mark is cut. -/
theorem deleting_program_leaves_sublist_stale :
    let program : Program := [.edit (.truncateBy (-1)), .edit (.plain .lineEnd),
      .edit (.plain .mark), .edit (.goto 3), .edit (.plain .kill),
      .times (-1) (.times (-1) (.block [.edit (.plain .back), .edit (.plain .cut)]))]
    (∀ c ∈ program, c.BuiltFrom fun e => e.LeavesText ∨ e.Deletes) ∧
      ∃ last, Program.run false program ['a', 'b', 'c', 'd', 'e'] = .ran last ∧
        last.text.Sublist ['a', 'b', 'c', 'd', 'e'] := by
  intro program
  have hprogram : ∀ c ∈ program, c.BuiltFrom fun e => e.LeavesText ∨ e.Deletes := by
    intro c hc
    simp only [program, List.mem_cons, List.not_mem_nil, or_false] at hc
    rcases hc with rfl | rfl | rfl | rfl | rfl | rfl
    · exact .edit (.inr trivial)
    · exact .edit (.inl trivial)
    · exact .edit (.inl trivial)
    · exact .edit (.inl trivial)
    · exact .edit (.inr trivial)
    · refine .times (.times (.block ?_))
      intro c hc
      simp only [List.mem_cons, List.not_mem_nil, or_false] at hc
      rcases hc with rfl | rfl
      · exact .edit (.inl trivial)
      · exact .edit (.inr trivial)
  exact ⟨hprogram, deleting_program_leaves_sublist hprogram false ['a', 'b', 'c', 'd', 'e']⟩

end LineEditor
