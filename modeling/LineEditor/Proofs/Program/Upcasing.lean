import LineEditor.Proofs.Program.Deleting

/-!
# Programs that only put parts of the line in upper case

Whether a part of a line is put in upper case before the whole line is, makes no difference at the
end: mapping to upper case looks at one character at a time and leaves upper case alone. A program
of nothing else, apart from commands that leave the text alone, therefore keeps the upper case of
the line throughout, although the line may become longer and later commands look for words and the
region in what earlier ones have left.
-/

namespace LineEditor

/-- A basic command puts text in upper case: a character, a word or its first character, the region,
or the line. -/
def Edit.Upcases : Edit → Prop
  | .plain .upcaseChar | .plain .upcaseWord | .plain .capitalizeWord | .plain .upcaseRegion
  | .plain .upcaseLine => True
  | _ => False

variable {line : Line} {s : Span} {e : Edit}

namespace Line

/-! ## Part of a line -/

/-- The characters of a span are put in upper case twice, and the others once. -/
theorem upcase_text_modify (hs : s.Within line.length) :
    Text.upcase (line.modify s Text.upcase).text = Text.upcase line.text := by
  obtain ⟨front, piece, back, htext, -, -, htext'⟩ := modify_pieces hs Text.upcase
  have hpiece : Text.upcase (Text.upcase piece) = Text.upcase piece :=
    setsCase_upcase.idempotent piece
  calc Text.upcase (line.modify s Text.upcase).text
      = Text.upcase front ++ (Text.upcase (Text.upcase piece) ++ Text.upcase back) := by
        rw [htext', Text.upcase_append, Text.upcase_append]
    _ = Text.upcase line.text := by
        rw [hpiece, htext, Text.upcase_append, Text.upcase_append]

theorem InBounds.upcase_text_upcaseChar (h : line.InBounds) :
    Text.upcase line.upcaseChar.text = Text.upcase line.text := by
  unfold Line.upcaseChar Line.modifyChar
  split
  · rename_i hat
    have hlt : line.cursor < line.length := of_decide_eq_true hat
    exact upcase_text_modify (h.ahead_within (by omega) hlt)
  · rfl

/-- The cursor is at the start of the word while its first character is put in upper case. -/
theorem InBounds.upcase_text_capitalizeWord (h : line.InBounds) :
    Text.upcase line.capitalizeWord.text = Text.upcase line.text := by
  obtain ⟨h0, h1⟩ := wordStart_bounds h.cursor_nonneg
  exact (h.withCursor h0 (Int.le_trans h1 h.cursor_le)).upcase_text_upcaseChar

end Line

/-! ## A whole run -/

theorem Edit.upcase_text_run (he : e.LeavesText ∨ e.Upcases) (h : line.InBounds) :
    Text.upcase (e.run line).text = Text.upcase line.text := by
  rcases he with he | he
  · rw [e.text_run_of_leavesText he line]
  · cases e with
    | goto | insert | truncateBy | find | findBack | translate => exact absurd he id
    | plain v => cases v with
      | upcaseChar => exact h.upcase_text_upcaseChar
      | upcaseWord => exact Line.upcase_text_modify h.wordSpan_within
      | capitalizeWord => exact h.upcase_text_capitalizeWord
      | upcaseRegion => exact Line.upcase_text_modify h.region_within
      | upcaseLine => exact setsCase_upcase.idempotent line.text
      | _ => exact absurd he id

/-- A program of commands that leave the text alone or put parts of it in upper case runs to the end
on any text. Putting the line that it leaves in upper case gives the text in upper case, the same
as putting the line in upper case at once. -/
theorem upcasing_program_is_absorbed {program : Program}
    (hprogram : ∀ c ∈ program, c.BuiltFrom fun e => e.LeavesText ∨ e.Upcases) (stop : Bool)
    (text : List Char) :
    ∃ last, Program.run stop program text = .ran last ∧ last.upcase.text = Text.upcase text ∧
      last.upcase.text = ({ text } : Line).upcase.text := by
  have hstep : ∀ e : Edit, e.LeavesText ∨ e.Upcases → ∀ line : Line, line.InBounds →
      Text.upcase line.text = Text.upcase text →
      Text.upcase (e.run line).text = Text.upcase text := by
    intro e he line hin hline
    exact (e.upcase_text_run he hin).trans hline
  obtain ⟨last, hlast, -, hupcase⟩ := Program.run_keeps hstep hprogram rfl
  exact ⟨last, hlast, hupcase, hupcase⟩

/-- The sharp s and the ligature become two characters each. Two negative counts make three rounds;
the third search fails, so some of the letters are still small. -/
theorem upcasing_program_is_absorbed_grown :
    let program : Program := [.edit (.goto 1), .edit (.plain .upcaseWord), .edit (.plain .mark),
      .times (-1) (.times (-3) (.block [.edit (.plain .forwardWord),
        .edit (.plain .capitalizeWord), .edit (.plain .copy), .edit (.plain .upcaseClip),
        .edit (.find ['ö']), .edit (.plain .upcaseChar)])),
      .edit (.plain .upcaseRegion)]
    (∀ c ∈ program, c.BuiltFrom fun e => e.LeavesText ∨ e.Upcases) ∧
      ∃ last, Program.run true program "maß öl, ﬁxö".toList = .ran last ∧
        last.upcase.text = "MASS ÖL, FIXÖ".toList := by
  intro program
  have hprogram : ∀ c ∈ program, c.BuiltFrom fun e => e.LeavesText ∨ e.Upcases := by
    simp [program, Edit.LeavesText, Edit.Upcases]
  obtain ⟨last, hlast, hupcase, -⟩ :=
    upcasing_program_is_absorbed hprogram true "maß öl, ﬁxö".toList
  exact ⟨hprogram, last, hlast, hupcase.trans (by decide +kernel)⟩

end LineEditor
