import LineEditor.Proofs.Line.SettingCase
import LineEditor.Proofs.Program.InBounds

/-!
# Setting the case twice

The second time, a command that sets the case of a character, a word, the region, the line or the
text copied last has no effect at all.
-/

namespace LineEditor

/-- A command of one word sets the case of a text. -/
def Verb.SetsCase : Verb → Prop
  | .upcaseChar | .downcaseChar | .upcaseWord | .downcaseWord | .capitalizeWord
  | .upcaseRegion | .downcaseRegion | .upcaseLine | .downcaseLine
  | .upcaseClip | .downcaseClip | .capitalizeClip => True
  | _ => False

variable {line : Line} {v : Verb}

theorem Verb.run_run_of_setsCase (h : line.InBounds) (hv : v.SetsCase) :
    v.run (v.run line) = v.run line := by
  cases v with
  | upcaseChar => exact h.modifyChar_modifyChar setsCase_upcase
  | downcaseChar => exact h.modifyChar_modifyChar setsCase_downcase
  | upcaseWord => exact h.modify_wordSpan_modify_wordSpan setsCase_upcase
  | downcaseWord => exact h.modify_wordSpan_modify_wordSpan setsCase_downcase
  | capitalizeWord => exact h.capitalizeWord_capitalizeWord
  | upcaseRegion => exact h.modify_region_modify_region setsCase_upcase
  | downcaseRegion => exact h.modify_region_modify_region setsCase_downcase
  | upcaseLine => exact Line.modifyText_modifyText setsCase_upcase line
  | downcaseLine => exact Line.modifyText_modifyText setsCase_downcase line
  | upcaseClip => exact Line.modifyClip_modifyClip setsCase_upcase.idempotent line
  | downcaseClip => exact Line.modifyClip_modifyClip setsCase_downcase.idempotent line
  | capitalizeClip => exact Line.modifyClip_modifyClip Text.capitalize_capitalize line
  | _ => exact absurd hv id

/-- On a line in bounds, a command that sets the case of a text runs, and run again on the line it
has left it leaves that line as it is: its text, cursor, mark and clips, and whether it is done. -/
theorem setting_case_again_changes_nothing (h : line.InBounds) (hv : v.SetsCase) :
    (Edit.plain v).attempt line = .ran (v.run line) ∧
      (Edit.plain v).attempt (v.run line) = .ran (v.run line) := by
  obtain ⟨hattempt, hnext⟩ := (Edit.plain v).attempt_inBounds h
  obtain ⟨hagain, -⟩ := (Edit.plain v).attempt_inBounds hnext
  exact ⟨hattempt, hagain.trans (congrArg Outcome.ran (Verb.run_run_of_setsCase h hv))⟩

/-- A sharp s becomes two characters, which pushes the rest of its word past the place of the
cursor, and a mark past the end comes back to the new end. -/
theorem setting_case_again_changes_nothing_grown :
    let line : Line := { text := "ab ßßc,d".toList, cursor := 6, mark := some 20 }
    let once : Line := { text := "ab SSSSC,D".toList, cursor := 6, mark := some 10 }
    line.InBounds ∧ Verb.SetsCase .upcaseWord ∧ Verb.run .upcaseWord line = once ∧
      (Edit.plain .upcaseWord).attempt once = .ran once := by
  intro line once
  have h : line.InBounds := ⟨by decide, by decide, by simp [line]⟩
  have honce : Verb.run .upcaseWord line = once := by decide +kernel
  obtain ⟨-, hagain⟩ := setting_case_again_changes_nothing (v := .upcaseWord) h trivial
  rw [honce] at hagain
  exact ⟨h, trivial, honce, hagain⟩

end LineEditor
