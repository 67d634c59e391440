import LineEditor.Proofs.Program.InBounds
import LineEditor.Proofs.Program.Local

/-!
# What decides whether a line is done

Searches and the command to be done with a line decide whether the line is done. No other basic
command changes that, so of a row of others either all run or, where the run has stopped, none.
-/

namespace LineEditor

variable {line : Line}

/-- A basic command decides whether the line is done: it searches, or is done with the line. -/
def Edit.Decides : Edit → Prop
  | .plain .nextLine | .find _ | .findBack _ => True
  | _ => False

/-- A basic command makes the line done: it is done with it, or searches for what is not there. -/
def Edit.Finishes (line : Line) : Edit → Prop
  | .plain .nextLine => True
  | .find target => ∀ c ∈ line.text.drop line.cursor.toNat, [c] ≠ target
  | .findBack target => ∀ c ∈ line.text.take line.cursor.toNat, [c] ≠ target
  | _ => False

/-- A command of one word, except for the one that is done with the line, leaves it as done as it
was. -/
theorem Verb.done_run {v : Verb} (hv : v ≠ .nextLine) (line : Line) :
    (v.run line).done = line.done := by
  cases v with
  | nextLine => exact absurd rfl hv
  | paste =>
    simp only [run, Line.paste]
    split <;> rfl
  | upcaseClip | downcaseClip | capitalizeClip | trimClipLeft | trimClipRight | trimClip =>
    simp only [run, Line.modifyClip]
    split <;> rfl
  | mark | upcaseRegion | downcaseRegion | copy | copyLine | cut => rfl
  | _ => exact done_run_of_isLocal (by trivial) line

/-- A search ahead fails if what is searched for does not stand at the cursor or after it. -/
theorem findAhead?_eq_none_iff (h : line.InBounds) {target : List Char} :
    line.findAhead? target = none ↔ ∀ c ∈ line.text.drop line.cursor.toNat, [c] ≠ target := by
  have hahead : line.ahead = line.text.drop line.cursor.toNat := by
    rw [Line.ahead, if_neg (Int.not_lt.2 h.cursor_nonneg)]
  simp [Line.findAhead?, hahead]

/-- A search behind fails if what is searched for does not stand before the cursor. -/
theorem findBehind?_eq_none_iff {target : List Char} :
    line.findBehind? target = none ↔ ∀ c ∈ line.text.take line.cursor.toNat, [c] ≠ target := by
  simp [Line.findBehind?]

theorem Edit.done_run_of_decides (h : line.InBounds) {e : Edit} (he : e.Decides) :
    (e.run line).done = true ↔ e.Finishes line := by
  cases e with
  | plain v => cases v with
    | nextLine => exact iff_of_true rfl trivial
    | _ => exact absurd he id
  | find target => exact Option.isNone_iff_eq_none.trans (findAhead?_eq_none_iff h)
  | findBack target => exact Option.isNone_iff_eq_none.trans findBehind?_eq_none_iff
  | goto | insert | truncateBy | translate => exact absurd he id

theorem Edit.not_decides_plain {v : Verb} (hv : v ≠ .nextLine) : ¬ (Edit.plain v).Decides := by
  cases v with
  | nextLine => exact absurd rfl hv
  | _ => exact id

theorem Edit.done_run_of_not_decides {e : Edit} (he : ¬ e.Decides) (line : Line) :
    (e.run line).done = line.done := by
  cases e with
  | plain v =>
    refine Verb.done_run ?_ line
    rintro rfl
    exact he trivial
  | find | findBack => exact absurd trivial he
  | goto | insert | truncateBy | translate => rfl

theorem Edit.decides_of_finishes {e : Edit} (h : e.Finishes line) : e.Decides := by
  unfold Finishes at h
  split at h
  · trivial
  · trivial
  · trivial
  · exact absurd h id

/-- A basic command that makes a line done that was not does so by itself. -/
theorem Edit.done_run_iff (h : line.InBounds) (hdone : line.done = false) (e : Edit) :
    (e.run line).done = true ↔ e.Finishes line := by
  by_cases he : e.Decides
  · exact e.done_run_of_decides h he
  · rw [done_run_of_not_decides he, hdone]
    simpa using fun hfinishes => he (decides_of_finishes hfinishes)

/-! ## Rows of basic commands -/

/-- Commands that do not decide whether the line is done run all, one after another, or none. -/
theorem runAll_edits_of_not_decides (h : line.InBounds) (stop : Bool) {edits : List Edit}
    (hedits : ∀ e ∈ edits, ¬ e.Decides) :
    Command.runAll stop (edits.map .edit) line =
      .ran (if stop && line.done then line else edits.foldl (fun line e => e.run line) line) := by
  by_cases hgo : (stop && line.done) = true
  · rw [runAll_of_done hgo, if_pos hgo]
  · rw [if_neg hgo]
    induction edits generalizing line with
    | nil => exact runAll_nil line
    | cons e edits ih =>
      have hdone : (e.run line).done = line.done :=
        e.done_run_of_not_decides (hedits e List.mem_cons_self) line
      rw [List.map_cons, runAll_edit_cons h hgo, List.foldl_cons]
      exact ih (e.run_inBounds h) (fun e he => hedits e (List.mem_cons_of_mem _ he))
        (by rwa [hdone])

/-- Rows of such commands that make one line of this line do so also where the run has stopped. -/
theorem runAll_edits_congr (h : line.InBounds) (stop : Bool) {first second : List Edit}
    (hfirst : ∀ e ∈ first, ¬ e.Decides) (hsecond : ∀ e ∈ second, ¬ e.Decides)
    (hfold : first.foldl (fun line e => e.run line) line =
      second.foldl (fun line e => e.run line) line) :
    Command.runAll stop (first.map .edit) line = Command.runAll stop (second.map .edit) line := by
  rw [runAll_edits_of_not_decides h stop hfirst, runAll_edits_of_not_decides h stop hsecond, hfold]

end LineEditor
