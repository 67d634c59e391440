import LineEditor.Proofs.Command.Shape
import LineEditor.Proofs.Program.Sequence

/-!
# Running a program flat

If no count is negative, running commands comes to the same as running the row of their leaves: the
counts of repetitions of repetitions may be multiplied, and it does not matter at how many levels
the run checks whether the line is done. A program in the place of a command is refused when the row
reaches it. Running the commands of a program one at a time passes through the same lines.
-/

namespace LineEditor

variable {stop : Bool} {line : Line}

/-- Runs commands one at a time, each as a block of its own. -/
def Command.runEach (stop : Bool) : List Command → Line → Outcome
  | [], line => .ran line
  | c :: commands, line =>
    (Command.run stop (.block [c]) line).andThen (Command.runEach stop commands)

/-! ## Repetitions -/

/-- If each round runs the leaves of the body, all rounds run as many copies of them. -/
theorem runTimes_eq_runLeaves {body : Line → Outcome} {leaves : List Leaf}
    (hbody : ∀ line : Line, ¬ (stop && line.done) = true →
      body line = runLeaves stop leaves line) (n : Nat) :
    ∀ line, runTimes stop body n line = runLeaves stop (List.replicate n leaves).flatten line := by
  induction n with
  | zero => intro line; rfl
  | succ n ih =>
    intro line
    by_cases h : (stop && line.done) = true
    · rw [runTimes_of_done h, runLeaves_of_done h]
    · rw [runTimes_succ h, hbody line h, List.replicate_succ, List.flatten_cons, runLeaves_append]
      congr 1
      exact funext ih

/-- Copies of copies are as many copies as the product of the counts says. -/
theorem flatten_replicate_flatten {α : Type} (m n : Nat) (l : List α) :
    (List.replicate m (List.replicate n l).flatten).flatten =
      (List.replicate (m * n) l).flatten := by
  rw [← List.flatten_replicate_replicate, List.flatten_flatten, List.map_replicate]

/-! ## Commands -/

/-- Commands that each run as their leaves do, unless the run is to stop, run in a row as the row of
all their leaves does. -/
theorem runAll_eq_of_run_eq {commands : List Command}
    (h : ∀ c ∈ commands, ∀ line : Line, ¬ (stop && line.done) = true →
      c.run stop line = runLeaves stop c.leaves line) :
    ∀ line, Command.runAll stop commands line =
      runLeaves stop (Command.leavesAll commands) line := by
  induction commands with
  | nil => intro line; rw [Command.runAll, Command.leavesAll, runLeaves_nil]
  | cons c commands ih =>
    intro line
    by_cases hdone : (stop && line.done) = true
    · rw [runAll_of_done hdone, runLeaves_of_done hdone]
    · rw [runAll_cons hdone, h c (by simp) line hdone, Command.leavesAll, runLeaves_append]
      congr 1
      exact funext (ih fun d hd => h d (List.mem_cons_of_mem _ hd))

/-- Unless the run is to stop, a command runs as its leaves do; repeated, it runs as that many
copies of its leaves do, also if the run is to stop at once. -/
theorem run_eq_runLeaves {c : Command} (hc : c.Counted) :
    (∀ line : Line, ¬ (stop && line.done) = true →
      c.run stop line = runLeaves stop c.leaves line) ∧
    ∀ count : Int, 0 ≤ count → ∀ line, c.runRepeated stop count line =
      runLeaves stop (List.replicate count.toNat c.leaves).flatten line := by
  induction hc with
  | @edit e =>
    have hrun : ∀ line : Line, ¬ (stop && line.done) = true →
        e.attempt line = runLeaves stop [.edit e] line := by
      intro line hdone
      rw [runLeaves_cons hdone]
      exact (andThen_ran _).symm
    refine ⟨fun line hdone => ?_, fun count _ line => ?_⟩
    · rw [Command.run, Command.leaves]
      exact hrun line hdone
    · rw [Command.runRepeated, Command.leaves]
      exact runTimes_eq_runLeaves hrun _ line
  | @times n body hn hbody ih =>
    refine ⟨fun line _ => ?_, fun count hcount line => ?_⟩
    · rw [Command.run, Command.leaves]
      exact ih.2 n hn line
    · rw [Command.runRepeated, Command.leaves, flatten_replicate_flatten,
        ih.2 (count * n) (Int.mul_nonneg hcount hn) line, Int.toNat_mul hcount hn]
  | @block commands hcommands ih =>
    have hall := runAll_eq_of_run_eq fun c hc => (ih c hc).1
    refine ⟨fun line _ => ?_, fun count _ line => ?_⟩
    · rw [Command.run, Command.leaves]
      exact hall line
    · rw [Command.runRepeated, Command.leaves]
      exact runTimes_eq_runLeaves (fun line _ => hall line) _ line
  | program =>
    have hrun : ∀ line : Line, ¬ (stop && line.done) = true →
        Outcome.refused line .notCommand = runLeaves stop [.program] line := by
      intro line hdone
      rw [runLeaves_cons hdone]
      rfl
    refine ⟨fun line hdone => ?_, fun count _ line => ?_⟩
    · rw [Command.run, Command.leaves]
      exact hrun line hdone
    · rw [Command.runRepeated, Command.leaves]
      exact runTimes_eq_runLeaves hrun _ line

/-- Commands run as the row of their leaves does. -/
theorem runAll_eq_runLeaves {commands : List Command} (h : ∀ c ∈ commands, c.Counted)
    (line : Line) :
    Command.runAll stop commands line = runLeaves stop (Command.leavesAll commands) line :=
  runAll_eq_of_run_eq (fun c hc => (run_eq_runLeaves (h c hc)).1) line

/-! ## Programs in the place of commands -/

theorem Edit.fault?_ne_notCommand (edit : Edit) (line : Line) :
    edit.fault? line ≠ some .notCommand := by
  unfold Edit.fault? Verb.fault?
  repeat' split
  all_goals simp

/-- A basic command is never refused for being no command. -/
theorem Edit.attempt_ne_notCommand (edit : Edit) (line reached : Line) :
    edit.attempt line ≠ .refused reached .notCommand := by
  intro h
  unfold Edit.attempt at h
  cases hfault : edit.fault? line with
  | none => simp [hfault] at h
  | some fault =>
    simp only [hfault, Outcome.refused.injEq] at h
    exact edit.fault?_ne_notCommand line (h.2 ▸ hfault)

/-- A row of leaves is refused for a program exactly when it reaches one, on the line that the
leaves before it have left. -/
theorem runLeaves_refused_iff {leaves : List Leaf} {reached : Line} :
    ∀ {line : Line}, runLeaves stop leaves line = .refused reached .notCommand ↔
      ∃ before after, leaves = before ++ .program :: after ∧
        runLeaves stop before line = .ran reached ∧ ¬ (stop && reached.done) = true := by
  induction leaves with
  | nil => intro line; simp
  | cons leaf leaves ih =>
    intro line
    constructor
    · intro h
      by_cases hdone : (stop && line.done) = true
      · rw [runLeaves_of_done hdone] at h
        exact absurd h (by simp)
      · rw [runLeaves_cons hdone] at h
        cases leaf with
        | program =>
          have hline : line = reached := ((Outcome.refused.injEq ..).mp h).1
          exact ⟨[], leaves, rfl, by rw [runLeaves_nil, hline], hline ▸ hdone⟩
        | edit e =>
          cases hrun : e.attempt line with
          | ran next =>
            rw [Leaf.run, hrun, ran_andThen] at h
            obtain ⟨before, after, hsplit, hbefore, hreached⟩ := ih.1 h
            refine ⟨.edit e :: before, after, by rw [hsplit]; rfl, ?_, hreached⟩
            rw [runLeaves_cons hdone, Leaf.run, hrun, ran_andThen, hbefore]
          | refused next fault =>
            rw [Leaf.run, hrun, refused_andThen] at h
            exact absurd (hrun.trans h) (e.attempt_ne_notCommand line reached)
    · rintro ⟨before, after, hsplit, hbefore, hreached⟩
      rw [hsplit, runLeaves_append, hbefore, ran_andThen, runLeaves_cons hreached]
      rfl

/-! ## One command at a time -/

/-- A block of one command runs as the command does in a row. -/
theorem run_block_single (c : Command) (line : Line) :
    Command.run stop (.block [c]) line = Command.runAll stop [c] line := by
  rw [Command.run]

theorem runEach_eq_runAll (commands : List Command) :
    ∀ line, Command.runEach stop commands line = Command.runAll stop commands line := by
  induction commands with
  | nil => intro line; rw [Command.runEach, runAll_nil]
  | cons c commands ih =>
    intro line
    show _ = Command.runAll stop ([c] ++ commands) line
    rw [Command.runEach, run_block_single, runAll_append]
    congr 1
    exact funext ih

/-- Commands with no negative count run as the row of their leaves does, to the same line or the
same refusal. They are refused for a program exactly when the row reaches it, and running them one
at a time is, after each of them, where the whole run is. -/
theorem flat_run (stop : Bool) {commands : List Command} (h : ∀ c ∈ commands, c.Counted)
    (line : Line) :
    Command.runAll stop commands line = runLeaves stop (Command.leavesAll commands) line ∧
    (∀ reached, Command.runAll stop commands line = .refused reached .notCommand ↔
      ∃ before after, Command.leavesAll commands = before ++ .program :: after ∧
        runLeaves stop before line = .ran reached ∧ ¬ (stop && reached.done) = true) ∧
    ∀ front back, commands = front ++ back →
      Command.runEach stop front line = runLeaves stop (Command.leavesAll front) line ∧
      Command.runAll stop commands line =
        (Command.runEach stop front line).andThen (Command.runAll stop back) := by
  have hflat : Command.runAll stop commands line =
      runLeaves stop (Command.leavesAll commands) line := runAll_eq_runLeaves h line
  refine ⟨hflat, fun reached => ?_, fun front back hsplit => ?_⟩
  · rw [hflat]
    exact runLeaves_refused_iff
  · have hfront : ∀ c ∈ front, c.Counted :=
      fun c hc => h c (hsplit ▸ List.mem_append_left back hc)
    rw [runEach_eq_runAll]
    exact ⟨runAll_eq_runLeaves hfront line, hsplit ▸ runAll_append front back line⟩

/-- Twice three times a search that is followed by an insertion, and then a program: the run stops
at the failed search and does not reach the program. -/
theorem flat_run_stopped :
    (∀ c ∈ [Command.times 2 (.times 3 (.block [.edit (.find ['a']), .edit (.insert ['b'])])),
      .program []], c.Counted) ∧
    Command.runAll true
        [.times 2 (.times 3 (.block [.edit (.find ['a']), .edit (.insert ['b'])])), .program []]
        { text := ['x', 'y'] } =
      runLeaves true
        (Command.leavesAll
          [.times 2 (.times 3 (.block [.edit (.find ['a']), .edit (.insert ['b'])])), .program []])
        { text := ['x', 'y'] } := by
  have h : ∀ c ∈ [Command.times 2 (.times 3 (.block [.edit (.find ['a']), .edit (.insert ['b'])])),
      .program []], c.Counted := by
    intro c hc
    simp only [List.mem_cons, List.not_mem_nil, or_false] at hc
    rcases hc with rfl | rfl
    · refine .times (by decide) (.times (by decide) (.block ?_))
      intro c hc
      simp only [List.mem_cons, List.not_mem_nil, or_false] at hc
      rcases hc with rfl | rfl
      · exact .edit
      · exact .edit
    · exact .program
  exact ⟨h, (flat_run true h { text := ['x', 'y'] }).1⟩

end LineEditor
