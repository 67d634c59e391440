import LineEditor.Proofs.Line.Transposing
import LineEditor.Proofs.Program.Deleting

/-!
# Programs that only transpose

A program of the three transpositions and of commands that leave the text alone rearranges the line:
at its end the characters are those of the text it began with, each of them as many times.
-/

namespace LineEditor

/-- A basic command transposes: two characters, two words, or the start of the line and the rest. -/
def Edit.Transposes : Edit → Prop
  | .plain .transposeChars | .plain .transposeWords | .plain .transpose => True
  | _ => False

/-- A transposition puts the characters of the text in another order. -/
theorem Edit.run_perm_of_transposes {e : Edit} (he : e.Transposes) (line : Line) :
    (e.run line).text.Perm line.text := by
  cases e with
  | goto | insert | truncateBy | find | findBack | translate => exact absurd he id
  | plain v => cases v with
    | transposeChars => exact line.transposeChars_perm
    | transposeWords => exact line.transposeWords_perm
    | transpose => exact line.transpose_perm
    | _ => exact absurd he id

/-- A program of commands that leave the text alone or transpose runs to the end on any text, and
what it leaves is a permutation of the text: as long, with every character as many times. -/
theorem transposing_program_permutes {program : Program}
    (hprogram : ∀ c ∈ program, c.BuiltFrom fun e => e.LeavesText ∨ e.Transposes) (stop : Bool)
    (text : List Char) :
    ∃ last, Program.run stop program text = .ran last ∧ last.text.Perm text ∧
      last.text.length = text.length ∧ ∀ c, last.text.count c = text.count c := by
  have hstep : ∀ e : Edit, e.LeavesText ∨ e.Transposes → ∀ line : Line, line.InBounds →
      line.text.Perm text → (e.run line).text.Perm text := by
    intro e he line _ hline
    rcases he with he | he
    · rw [e.text_run_of_leavesText he line]
      exact hline
    · exact (e.run_perm_of_transposes he line).trans hline
  obtain ⟨last, hlast, -, hperm⟩ := Program.run_keeps hstep hprogram (List.Perm.refl text)
  exact ⟨last, hlast, hperm, hperm.length_eq, fun c => hperm.count_eq c⟩

/-- Past the last word the final two words are swapped. At the start of the line the transpositions
meet a prefix of one character, and a failed search ends the run in the middle of a round. -/
theorem transposing_program_permutes_ends :
    let program : Program := [.edit (.plain .lineEnd), .edit (.plain .transposeWords),
      .edit (.plain .copyLine), .edit (.plain .upcaseClip), .edit (.goto (-1)),
      .times 3 (.block [.edit (.plain .transpose), .edit (.plain .transposeChars),
        .edit (.find ['d']), .edit (.plain .transpose)])]
    (∀ c ∈ program, c.BuiltFrom fun e => e.LeavesText ∨ e.Transposes) ∧
      ∃ last, Program.run true program "ab, c d.".toList = .ran last ∧
        last.text.Perm "ab, c d.".toList ∧ last.text.length = 8 := by
  intro program
  have hprogram : ∀ c ∈ program, c.BuiltFrom fun e => e.LeavesText ∨ e.Transposes := by
    intro c hc
    simp only [program, List.mem_cons, List.not_mem_nil, or_false] at hc
    rcases hc with rfl | rfl | rfl | rfl | rfl | rfl
    · exact .edit (.inl trivial)
    · exact .edit (.inr trivial)
    · exact .edit (.inl trivial)
    · exact .edit (.inl trivial)
    · exact .edit (.inl trivial)
    · refine .times (.block ?_)
      intro c hc
      simp only [List.mem_cons, List.not_mem_nil, or_false] at hc
      rcases hc with rfl | rfl | rfl | rfl
      · exact .edit (.inr trivial)
      · exact .edit (.inr trivial)
      · exact .edit (.inl trivial)
      · exact .edit (.inr trivial)
  obtain ⟨last, hlast, hperm, hlength, -⟩ :=
    transposing_program_permutes hprogram true "ab, c d.".toList
  exact ⟨hprogram, last, hlast, hperm, hlength⟩

end LineEditor
