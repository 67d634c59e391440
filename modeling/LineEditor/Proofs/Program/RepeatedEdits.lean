import LineEditor.Proofs.Line.RepeatedEdits
import LineEditor.Proofs.Program.Done

/-!
# Repeating basic commands

A basic command that does not decide whether the line is done runs in every round of a repetition,
so what the repetition does is what applying the command so many times does. For a local command
that is so wherever the mark is. For the motions by characters, the deletions of one character and
insertions it has a closed form, also for counts beyond either end of the line, and an insertion can
be taken back by them.
-/

namespace LineEditor

variable {stop : Bool} {line : Line} {e : Edit}

/-! ## Rounds of a basic command -/

/-- The line is as done after a round as before it, so no round is left out, as long as what a round
keeps sees to it that the next one is run. -/
theorem runTimes_of_keeps {inv : Line → Prop} (he : ¬ e.Decides)
    (hround : ∀ line, inv line → e.attempt line = .ran (e.run line) ∧ inv (e.run line))
    (h : inv line) (hgo : ¬ (stop && line.done) = true) (n : Nat) :
    runTimes stop e.attempt n line = .ran (e.run^[n] line) := by
  induction n generalizing line with
  | zero => rfl
  | succ n ih =>
    obtain ⟨hran, hnext⟩ := hround line h
    have hdone : (e.run line).done = line.done := e.done_run_of_not_decides he line
    rw [runTimes_succ hgo, hran, ran_andThen, Function.iterate_succ_apply]
    exact ih hnext (by rwa [hdone])

theorem runTimes_of_not_decides (he : ¬ e.Decides) (h : line.InBounds)
    (hgo : ¬ (stop && line.done) = true) (n : Nat) :
    runTimes stop e.attempt n line = .ran (e.run^[n] line) :=
  runTimes_of_keeps he (fun _ h => e.attempt_inBounds h) h hgo n

theorem run_times_of_not_decides (he : ¬ e.Decides) (h : line.InBounds)
    (hgo : ¬ (stop && line.done) = true) (n : Nat) :
    Command.run stop (.times n (.edit e)) line = .ran (e.run^[n] line) :=
  (run_times_edit e n line).trans (runTimes_of_not_decides he h hgo n)

theorem iterate_run_inBounds (h : line.InBounds) (e : Edit) (n : Nat) :
    (e.run^[n] line).InBounds := by
  induction n generalizing line with
  | zero => exact h
  | succ n ih =>
    rw [Function.iterate_succ_apply]
    exact ih (e.run_inBounds h)

theorem iterate_done_run_of_not_decides (he : ¬ e.Decides) (n : Nat) (line : Line) :
    (e.run^[n] line).done = line.done := by
  induction n generalizing line with
  | zero => rfl
  | succ n ih => rw [Function.iterate_succ_apply, ih, e.done_run_of_not_decides he]

theorem runAll_times_cons (he : ¬ e.Decides) (h : line.InBounds)
    (hgo : ¬ (stop && line.done) = true) (n : Nat) (commands : List Command) :
    Command.runAll stop (.times n (.edit e) :: commands) line =
      Command.runAll stop commands (e.run^[n] line) := by
  rw [runAll_cons hgo, run_times_of_not_decides he h hgo, ran_andThen]

/-! ## Rounds of a local command -/

theorem Line.bare_inBounds (h0 : 0 ≤ line.cursor) (h1 : line.cursor ≤ line.length) :
    line.bare.InBounds :=
  ⟨h0, h1, by simp [bare]⟩

theorem Verb.fault?_bare (v : Verb) (line : Line) : v.fault? line.bare = v.fault? line := by
  cases v <;> rfl

/-- A local command can be run wherever the mark is, if only the cursor stands on the line. -/
theorem Verb.attempt_of_isLocal {v : Verb} (hv : v.IsLocal) (h : line.bare.InBounds) :
    (Edit.plain v).attempt line = .ran (v.run line) ∧ (v.run line).bare.InBounds := by
  have hfault : (Edit.plain v).fault? line = none :=
    (v.fault?_bare line).symm.trans (v.fault?_eq_none h)
  refine ⟨?_, ?_⟩
  · rw [Edit.attempt, hfault]
    rfl
  · have hbare := v.run_inBounds h
    rw [local_run hv line]
    exact Line.bare_inBounds hbare.cursor_nonneg hbare.cursor_le

theorem run_times_of_isLocal {v : Verb} (hv : v.IsLocal) (h : line.bare.InBounds)
    (hgo : ¬ (stop && line.done) = true) (n : Nat) :
    Command.run stop (.times n (.edit (.plain v))) line = .ran (v.run^[n] line) := by
  have hdecides : ¬ (Edit.plain v).Decides := by
    refine Edit.not_decides_plain ?_
    rintro rfl
    exact hv
  rw [run_times_edit]
  exact runTimes_of_keeps hdecides (fun _ h => Verb.attempt_of_isLocal hv h) h hgo n

/-! ## Undoing an insertion -/

theorem Line.InBounds.cursor_toNat (h : line.InBounds) :
    line.cursor = line.cursor.toNat ∧ line.cursor.toNat ≤ line.length := by
  have h0 := h.cursor_nonneg
  have h1 := h.cursor_le
  omega

theorem runAll_insert_deleteBack (h : line.InBounds) (hgo : ¬ (stop && line.done) = true)
    (t : List Char) :
    Command.runAll stop
      [.edit (.insert t), .times t.length (.edit (.plain .deleteBack))] line = .ran line := by
  obtain ⟨hcursor, hc⟩ := h.cursor_toNat
  have hinserted := (Edit.insert t).run_inBounds h
  rw [runAll_edit_cons h hgo, runAll_times_cons id hinserted hgo, runAll_nil]
  exact congrArg Outcome.ran (Line.deleteBack_iterate_insert hcursor hc t)

theorem runAll_insert_back_delete (h : line.InBounds) (hgo : ¬ (stop && line.done) = true)
    (t : List Char) :
    Command.runAll stop
      [.edit (.insert t), .times t.length (.edit (.plain .back)),
        .times t.length (.edit (.plain .delete))] line = .ran line := by
  obtain ⟨hcursor, hc⟩ := h.cursor_toNat
  have hinserted := (Edit.insert t).run_inBounds h
  have hmoved := iterate_run_inBounds hinserted (.plain .back) t.length
  have hgo' : ¬ (stop && ((Edit.plain .back).run^[t.length] (line.insert t)).done) = true := by
    rwa [iterate_done_run_of_not_decides id]
  rw [runAll_edit_cons h hgo, runAll_times_cons id hinserted hgo,
    runAll_times_cons id hmoved hgo', runAll_nil]
  exact congrArg Outcome.ran (Line.delete_iterate_back_iterate_insert hcursor hc t)

/-! ## Closed forms -/

/-- Repeated `n` times on a line in bounds where the run has not stopped: the motions by characters
move `n` characters on, as far as the line goes. The deletions delete `n` characters on their side
of the cursor, or all that are there if these are fewer, and `delete` then does what `kill` does.
Inserting a text inserts it `n` times over, as one text. Nothing else changes. As many deletions as
an inserted text has characters take it back, before the cursor, or at the cursor after as many
motions. -/
theorem repeated_edits_have_closed_forms (h : line.InBounds) (hgo : (stop && line.done) = false)
    (n : Nat) (t : List Char) :
    let c := line.cursor.toNat
    let k := min n c
    let repeated (e : Edit) := Command.run stop (.times n (.edit e)) line
    repeated (.plain .forward) =
        .ran { line with cursor := min (line.cursor + n) line.length } ∧
      repeated (.plain .back) = .ran { line with cursor := max 0 (line.cursor - n) } ∧
      repeated (.plain .delete) =
        .ran { line with text := line.text.take c ++ line.text.drop (c + n) } ∧
      (line.length - line.cursor ≤ n →
        repeated (.plain .delete) = Command.run stop (.edit (.plain .kill)) line) ∧
      repeated (.plain .deleteBack) =
        .ran { line with
          text := line.text.take (c - k) ++ line.text.drop c
          cursor := line.cursor - k } ∧
      repeated (.insert t) =
        .ran { line with
          text := line.text.take c ++ ((List.replicate n t).flatten ++ line.text.drop c)
          cursor := line.cursor + (List.replicate n t).flatten.length } ∧
      repeated (.insert t) =
        Command.run stop (.edit (.insert (List.replicate n t).flatten)) line ∧
      Command.runAll stop
        [.edit (.insert t), .times t.length (.edit (.plain .deleteBack))] line = .ran line ∧
      Command.runAll stop
        [.edit (.insert t), .times t.length (.edit (.plain .back)),
          .times t.length (.edit (.plain .delete))] line = .ran line := by
  intro c k repeated
  have hgo : ¬ (stop && line.done) = true := Bool.eq_false_iff.1 hgo
  obtain ⟨hcursor, hc⟩ : line.cursor = c ∧ c ≤ line.length := h.cursor_toNat
  have hrepeated : ∀ e : Edit, ¬ e.Decides → repeated e = .ran (e.run^[n] line) :=
    fun e he => run_times_of_not_decides he h hgo n
  have hdelete : repeated (.plain .delete) = .ran (Line.delete^[n] line) :=
    hrepeated (.plain .delete) id
  have hinsert : repeated (.insert t) = .ran (line.insert (List.replicate n t).flatten) :=
    (hrepeated (.insert t) id).trans (congrArg Outcome.ran (Line.insert_iterate hcursor hc t n))
  refine ⟨?_, ?_, ?_, fun hn => ?_, ?_, ?_, ?_, runAll_insert_deleteBack h hgo t,
    runAll_insert_back_delete h hgo t⟩
  · have hmin : ((min (c + n) line.length : Nat) : Int) = min (line.cursor + n) line.length := by
      omega
    rw [hrepeated (.plain .forward) id, ← hmin]
    exact congrArg Outcome.ran (Line.forward_iterate hcursor hc n)
  · have hmax : ((c - n : Nat) : Int) = max 0 (line.cursor - n) := by omega
    rw [hrepeated (.plain .back) id, ← hmax]
    exact congrArg Outcome.ran (Line.back_iterate hcursor n)
  · rw [hdelete, Line.delete_iterate hcursor hc]
  · rw [hdelete, Line.delete_iterate_of_le hcursor hc (by omega), run_edit h]
    rfl
  · have hk : c - k = c - n := by omega
    have hplace : line.cursor - k = (c - n : Nat) := by omega
    rw [hrepeated (.plain .deleteBack) id, hk, hplace]
    exact congrArg Outcome.ran (Line.deleteBack_iterate hcursor hc n)
  · rw [hinsert, Line.insert_eq hcursor hc, hcursor, Int.natCast_add]
  · rw [hinsert, run_edit h]
    rfl

/-- Counts beyond both ends of the line, and a mark past the end that stays there. -/
theorem repeated_edits_have_closed_forms_beyond :
    let line : Line := { text := "abc".toList, cursor := 1, mark := some 9 }
    line.InBounds ∧ (true && line.done) = false ∧ line.length - line.cursor ≤ (5 : Nat) ∧
      Command.run true (.times (5 : Nat) (.edit (.plain .forward))) line =
        .ran { line with cursor := 3 } ∧
      Command.run true (.times (5 : Nat) (.edit (.plain .delete))) line =
        Command.run true (.edit (.plain .kill)) line ∧
      Command.run true (.times (5 : Nat) (.edit (.plain .deleteBack))) line =
        .ran { line with text := "bc".toList, cursor := 0 } ∧
      Command.runAll true
        [.edit (.insert "xy".toList), .times (2 : Nat) (.edit (.plain .deleteBack))] line =
          .ran line := by
  intro line
  have h : line.InBounds := ⟨by decide, by decide, by simp [line]⟩
  have hgo : (true && line.done) = false := rfl
  have hn : line.length - line.cursor ≤ (5 : Nat) := by decide
  obtain ⟨hforward, -, -, hkill, hback, -, -, hundo, -⟩ :=
    repeated_edits_have_closed_forms h hgo 5 "xy".toList
  exact ⟨h, hgo, hn, hforward, hkill hn, hback, hundo⟩

end LineEditor
