import LineEditor.Proofs.Line.Sides
import LineEditor.Proofs.Program.Deleting

/-!
# Programs that edit on one side of the cursor

Inserting, pasting and killing backwards change what is before the cursor and move it along. A
program of nothing else, apart from marking and copying, keeps the text from the cursor to the end
of the line. Deleting and killing forwards, and changing the case of the character at the cursor,
change what follows it; a program of nothing else keeps the cursor and the text before it.
-/

namespace LineEditor

/-- A basic command changes neither the text nor the cursor: it sets the mark, copies, or changes
the text copied last. -/
def Edit.StaysPut : Edit → Prop
  | .plain .mark | .plain .copy | .plain .copyLine
  | .plain .upcaseClip | .plain .downcaseClip | .plain .capitalizeClip
  | .plain .trimClipLeft | .plain .trimClipRight | .plain .trimClip => True
  | _ => False

/-- A basic command edits behind the cursor: it inserts there, or deletes from there back. -/
def Edit.EditsBehind : Edit → Prop
  | .insert _ | .plain .paste | .plain .deleteBack | .plain .killWordBack
  | .plain .killLineBack => True
  | _ => False

/-- A basic command edits ahead of the cursor: it deletes from there on, or changes the case of the
character there. -/
def Edit.EditsAhead : Edit → Prop
  | .plain .delete | .plain .killWord | .plain .killLine | .plain .kill
  | .plain .upcaseChar | .plain .downcaseChar => True
  | _ => False

variable {line : Line} {e : Edit} {v : Verb} {s : Span}

/-! ## One basic command -/

theorem Edit.run_of_staysPut (he : e.StaysPut) (line : Line) :
    (e.run line).text = line.text ∧ (e.run line).cursor = line.cursor := by
  have hclip : ∀ f, (line.modifyClip f).text = line.text ∧
      (line.modifyClip f).cursor = line.cursor := by
    intro f
    unfold Line.modifyClip
    split <;> exact ⟨rfl, rfl⟩
  cases e with
  | goto | insert | truncateBy | find | findBack | translate => exact absurd he id
  | plain v => cases v with
    | mark | copy | copyLine => exact ⟨rfl, rfl⟩
    | upcaseClip | downcaseClip | capitalizeClip | trimClipLeft | trimClipRight | trimClip =>
      exact hclip _
    | _ => exact absurd he id

theorem Verb.drop_run_of_killed? (h : line.InBounds) (hs : v.killed? line = some s)
    (hstop : s.stop = line.cursor) :
    (v.run line).text.drop (v.run line).cursor.toNat = line.text.drop line.cursor.toNat := by
  obtain ⟨hwithin, hrun⟩ := run_of_killed? h hs
  rw [hrun]
  exact Line.drop_of_replace [] hwithin hstop rfl (Int.add_zero _).symm

theorem Verb.take_run_of_killed? (h : line.InBounds) (hs : v.killed? line = some s)
    (hstart : s.start = line.cursor) :
    (v.run line).cursor = line.cursor ∧
      (v.run line).text.take line.cursor.toNat = line.text.take line.cursor.toNat := by
  obtain ⟨hwithin, hrun⟩ := run_of_killed? h hs
  rw [hrun]
  exact ⟨hstart, Line.take_of_replace [] hwithin hstart rfl⟩

theorem Edit.drop_run_of_editsBehind (he : e.EditsBehind) (h : line.InBounds) :
    (e.run line).text.drop (e.run line).cursor.toNat = line.text.drop line.cursor.toNat := by
  cases e with
  | insert t => exact h.drop_insert t
  | goto | truncateBy | find | findBack | translate => exact absurd he id
  | plain v => cases v with
    | paste => exact h.drop_paste
    | deleteBack => exact h.drop_deleteBack
    | killWordBack | killLineBack => exact Verb.drop_run_of_killed? h rfl rfl
    | _ => exact absurd he id

theorem Edit.take_run_of_editsAhead (he : e.EditsAhead) (h : line.InBounds) :
    (e.run line).cursor = line.cursor ∧
      (e.run line).text.take line.cursor.toNat = line.text.take line.cursor.toNat := by
  cases e with
  | goto | insert | truncateBy | find | findBack | translate => exact absurd he id
  | plain v => cases v with
    | delete => exact ⟨rfl, h.take_delete⟩
    | killWord | killLine => exact Verb.take_run_of_killed? h rfl rfl
    | kill =>
      have hwithin := h.ahead_within h.cursor_le (Int.le_refl _)
      exact ⟨rfl, Line.take_of_replace [] hwithin rfl rfl⟩
    | upcaseChar | downcaseChar => exact h.take_modifyChar _
    | _ => exact absurd he id

/-! ## A whole run -/

/-- From any line in bounds, commands that edit behind the cursor, set the mark, copy, or change the
text copied last run to the end and keep the text from the cursor on, wherever the cursor comes to.
Commands that edit ahead of the cursor keep the cursor and the text before it. -/
theorem edits_stay_on_their_side (h : line.InBounds) (stop : Bool) {commands : List Command} :
    ((∀ c ∈ commands, c.BuiltFrom fun e => e.StaysPut ∨ e.EditsBehind) →
      ∃ last, Command.runAll stop commands line = .ran last ∧ last.InBounds ∧
        last.text.drop last.cursor.toNat = line.text.drop line.cursor.toNat) ∧
    ((∀ c ∈ commands, c.BuiltFrom fun e => e.StaysPut ∨ e.EditsAhead) →
      ∃ last, Command.runAll stop commands line = .ran last ∧ last.InBounds ∧
        last.cursor = line.cursor ∧
        last.text.take line.cursor.toNat = line.text.take line.cursor.toNat) := by
  constructor
  · intro hcommands
    have hstep : ∀ e : Edit, e.StaysPut ∨ e.EditsBehind → ∀ reached : Line, reached.InBounds →
        reached.text.drop reached.cursor.toNat = line.text.drop line.cursor.toNat →
        (e.run reached).text.drop (e.run reached).cursor.toNat =
          line.text.drop line.cursor.toNat := by
      intro e he reached hin hkept
      rcases he with he | he
      · obtain ⟨htext, hcursor⟩ := e.run_of_staysPut he reached
        rw [htext, hcursor]
        exact hkept
      · exact (e.drop_run_of_editsBehind he hin).trans hkept
    exact runAll_keeps hstep hcommands h rfl
  · intro hcommands
    have hstep : ∀ e : Edit, e.StaysPut ∨ e.EditsAhead → ∀ reached : Line, reached.InBounds →
        reached.cursor = line.cursor ∧
          reached.text.take line.cursor.toNat = line.text.take line.cursor.toNat →
        (e.run reached).cursor = line.cursor ∧
          (e.run reached).text.take line.cursor.toNat = line.text.take line.cursor.toNat := by
      rintro e he reached hin ⟨hstays, hkept⟩
      rcases he with he | he
      · obtain ⟨htext, hcursor⟩ := e.run_of_staysPut he reached
        rw [htext, hcursor]
        exact ⟨hstays, hkept⟩
      · obtain ⟨hcursor, htake⟩ := e.take_run_of_editsAhead he hin
        rw [hstays] at hcursor htake
        exact ⟨hcursor, htake.trans hkept⟩
    exact runAll_keeps hstep hcommands h ⟨rfl, rfl⟩

/-- Before a sharp s, which becomes two characters in upper case; the mark is past the end. -/
theorem edits_stay_on_their_side_grown :
    let line : Line :=
      { text := "ab, ßd ef".toList, cursor := 4, mark := some 12, clips := [['z', ' ']] }
    let behind : List Command := [.edit (.insert ['x']), .times 3 (.block
      [.edit (.plain .killWordBack), .edit (.plain .paste), .edit (.plain .upcaseClip)]),
      .edit (.plain .deleteBack)]
    let ahead : List Command := [.edit (.plain .upcaseChar), .edit (.plain .delete),
      .times 2 (.block [.edit (.plain .mark), .edit (.plain .killWord)])]
    line.InBounds ∧
      (∀ c ∈ behind, c.BuiltFrom fun e => e.StaysPut ∨ e.EditsBehind) ∧
      (∀ c ∈ ahead, c.BuiltFrom fun e => e.StaysPut ∨ e.EditsAhead) ∧
      (∃ last, Command.runAll true behind line = .ran last ∧
        last.text.drop last.cursor.toNat = "ßd ef".toList) ∧
      ∃ last, Command.runAll true ahead line = .ran last ∧ last.cursor = 4 ∧
        last.text.take 4 = "ab, ".toList := by
  intro line behind ahead
  have h : line.InBounds := ⟨by decide, by decide, by simp [line]⟩
  have hbehind : ∀ c ∈ behind, c.BuiltFrom fun e => e.StaysPut ∨ e.EditsBehind := by
    simp [behind, Edit.StaysPut, Edit.EditsBehind]
  have hahead : ∀ c ∈ ahead, c.BuiltFrom fun e => e.StaysPut ∨ e.EditsAhead := by
    simp [ahead, Edit.StaysPut, Edit.EditsAhead]
  obtain ⟨moved, hmoved, -, hkept⟩ := (edits_stay_on_their_side h true).1 hbehind
  obtain ⟨stayed, hstayed, -, hcursor, htake⟩ := (edits_stay_on_their_side h true).2 hahead
  exact ⟨h, hbehind, hahead, ⟨moved, hmoved, hkept⟩, stayed, hstayed, hcursor, htake⟩

end LineEditor
