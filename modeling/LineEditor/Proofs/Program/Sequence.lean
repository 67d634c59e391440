import LineEditor.Program.Flat

/-!
# Running one thing after another

Running goes on with the line that is left until something is refused. Leaves, commands and rounds
of a repetition are all run in this way, and a row of them is run by running its first part and
then its second one; where the line is done and that is to stop the run, nothing more happens.
-/

namespace LineEditor

variable {stop : Bool} {line : Line}

/-- Goes on with the line that is left, unless something was refused. -/
def Outcome.andThen (outcome : Outcome) (next : Line → Outcome) : Outcome :=
  match outcome with
  | .ran line => next line
  | .refused line fault => .refused line fault

@[simp] theorem ran_andThen (line : Line) (next : Line → Outcome) :
    (Outcome.ran line).andThen next = next line := rfl

@[simp] theorem refused_andThen (line : Line) (fault : Fault) (next : Line → Outcome) :
    (Outcome.refused line fault).andThen next = .refused line fault := rfl

@[simp] theorem andThen_ran (outcome : Outcome) : outcome.andThen .ran = outcome := by
  cases outcome <;> rfl

theorem andThen_assoc (outcome : Outcome) (f g : Line → Outcome) :
    (outcome.andThen f).andThen g = outcome.andThen fun line => (f line).andThen g := by
  cases outcome <;> rfl

/-! ## Leaves -/

@[simp] theorem runLeaves_nil : runLeaves stop [] line = .ran line := rfl

/-- Nothing more is run once the run is to stop. -/
theorem runLeaves_of_done (h : (stop && line.done) = true) (leaves : List Leaf) :
    runLeaves stop leaves line = .ran line := by
  cases leaves with
  | nil => rfl
  | cons leaf leaves => rw [runLeaves, if_pos h]

theorem runLeaves_cons (h : ¬ (stop && line.done) = true) (leaf : Leaf) (leaves : List Leaf) :
    runLeaves stop (leaf :: leaves) line = (leaf.run line).andThen (runLeaves stop leaves) := by
  rw [runLeaves, if_neg h]
  rfl

theorem runLeaves_append (first second : List Leaf) (line : Line) :
    runLeaves stop (first ++ second) line =
      (runLeaves stop first line).andThen (runLeaves stop second) := by
  induction first generalizing line with
  | nil => rfl
  | cons leaf leaves ih =>
    by_cases h : (stop && line.done) = true
    · rw [runLeaves_of_done h, runLeaves_of_done h, ran_andThen, runLeaves_of_done h]
    · rw [List.cons_append, runLeaves_cons h, runLeaves_cons h, andThen_assoc]
      cases leaf.run line with
      | ran reached => exact ih reached
      | refused reached fault => rfl

/-! ## Rounds of a repetition -/

theorem runTimes_of_done (h : (stop && line.done) = true) (body : Line → Outcome) (n : Nat) :
    runTimes stop body n line = .ran line := by
  cases n with
  | zero => rfl
  | succ n => rw [runTimes, if_pos h]

theorem runTimes_succ (h : ¬ (stop && line.done) = true) (body : Line → Outcome) (n : Nat) :
    runTimes stop body (n + 1) line = (body line).andThen (runTimes stop body n) := by
  rw [runTimes, if_neg h]
  rfl

theorem run_times_edit (e : Edit) (k : Nat) (line : Line) :
    Command.run stop (.times k (.edit e)) line = runTimes stop e.attempt k line := by
  rw [Command.run, Command.runRepeated, Int.toNat_natCast]

theorem run_times_block (commands : List Command) (n : Nat) (line : Line) :
    Command.run stop (.times n (.block commands)) line =
      runTimes stop (Command.runAll stop commands) n line := by
  rw [Command.run, Command.runRepeated, Int.toNat_natCast]

/-! ## Commands -/

theorem runAll_nil (line : Line) : Command.runAll stop [] line = .ran line := by
  rw [Command.runAll]

theorem runAll_of_done (h : (stop && line.done) = true) (commands : List Command) :
    Command.runAll stop commands line = .ran line := by
  cases commands with
  | nil => exact runAll_nil line
  | cons c commands => rw [Command.runAll, if_pos h]

theorem runAll_cons (h : ¬ (stop && line.done) = true) (c : Command) (commands : List Command) :
    Command.runAll stop (c :: commands) line =
      (Command.run stop c line).andThen (Command.runAll stop commands) := by
  rw [Command.runAll, if_neg h]
  rfl

theorem runAll_append (first second : List Command) (line : Line) :
    Command.runAll stop (first ++ second) line =
      (Command.runAll stop first line).andThen (Command.runAll stop second) := by
  induction first generalizing line with
  | nil => rw [List.nil_append, runAll_nil, ran_andThen]
  | cons c commands ih =>
    by_cases h : (stop && line.done) = true
    · rw [runAll_of_done h, runAll_of_done h, ran_andThen, runAll_of_done h]
    · rw [List.cons_append, runAll_cons h, runAll_cons h, andThen_assoc]
      cases Command.run stop c line with
      | ran reached => exact ih reached
      | refused reached fault => rfl

end LineEditor
