import LineEditor.Proofs.Command.Shape
import LineEditor.Proofs.Program.Sequence

/-!
# The leaves that are executed

Running a command executes some of its leaves, one after another: as many rounds of each repetition
as its counts and the line allow, and nothing after the line is done or something is refused. These
leaves alone say what the run does: running them in a row without ever stopping comes to the same.
So whatever every basic command of a command keeps, the run keeps, and it holds after every leaf.
-/

namespace LineEditor

/-- The leaves executed on the line that is left, and none if something was refused. -/
def Outcome.followedBy (outcome : Outcome) (leaves : Line → List Leaf) : List Leaf :=
  match outcome with
  | .ran line => leaves line
  | .refused _ _ => []

/-- The leaves executed by running something so many times over. -/
def executedTimes (stop : Bool) (body : Line → Outcome) (leaves : Line → List Leaf) :
    Nat → Line → List Leaf
  | 0, _ => []
  | n + 1, line =>
    if stop && line.done then []
    else leaves line ++ (body line).followedBy (executedTimes stop body leaves n)

mutual

/-- The leaves executed by running a command, in order. -/
def Command.executed (stop : Bool) : Command → Line → List Leaf
  | .edit e, _ => [.edit e]
  | .times count body, line => Command.executedRepeated stop count body line
  | .block commands, line => Command.executedAll stop commands line
  | .program _, _ => [.program]

/-- The leaves executed by running a command as often as the given count says. -/
def Command.executedRepeated (stop : Bool) (count : Int) : Command → Line → List Leaf
  | .edit e, line => executedTimes stop e.attempt (fun _ => [.edit e]) count.toNat line
  | .times n body, line => Command.executedRepeated stop (count * n) body line
  | .block commands, line =>
    executedTimes stop (fun line => Command.runAll stop commands line)
      (fun line => Command.executedAll stop commands line) count.toNat line
  | .program _, line =>
    executedTimes stop (.refused · .notCommand) (fun _ => [.program]) count.toNat line

/-- The leaves executed by running commands one after another. -/
def Command.executedAll (stop : Bool) : List Command → Line → List Leaf
  | [], _ => []
  | c :: commands, line =>
    if stop && line.done then []
    else
      Command.executed stop c line ++
        (Command.run stop c line).followedBy fun line => Command.executedAll stop commands line

end

/-! ## They say what the run does -/

section

variable {stop : Bool}

theorem runLeaves_single (leaf : Leaf) (line : Line) :
    runLeaves false [leaf] line = leaf.run line := by
  rw [runLeaves_cons (by simp)]
  exact andThen_ran _

/-- If what is left after the first part is refused, there is no second part to run. -/
theorem runLeaves_executed_append {outcome : Outcome} {first : List Leaf} {line : Line}
    {second : Line → List Leaf} {next : Line → Outcome}
    (hfirst : outcome = runLeaves false first line)
    (hnext : ∀ line, next line = runLeaves false (second line) line) :
    outcome.andThen next =
      runLeaves false (first ++ outcome.followedBy second) line := by
  rw [runLeaves_append, ← hfirst]
  cases outcome with
  | ran reached => exact hnext reached
  | refused reached fault => rfl

theorem runTimes_eq_executedTimes {body : Line → Outcome} {leaves : Line → List Leaf}
    (hbody : ∀ line, body line = runLeaves false (leaves line) line) (n : Nat) :
    ∀ line, runTimes stop body n line =
      runLeaves false (executedTimes stop body leaves n line) line := by
  induction n with
  | zero => intro line; rfl
  | succ n ih =>
    intro line
    by_cases h : (stop && line.done) = true
    · rw [runTimes_of_done h, executedTimes, if_pos h, runLeaves_nil]
    · rw [runTimes_succ h, executedTimes, if_neg h]
      exact runLeaves_executed_append (hbody line) ih

mutual

/-- Running a command is running the leaves that it executes. -/
theorem run_eq_executed : ∀ (c : Command) (line : Line),
    c.run stop line = runLeaves false (c.executed stop line) line
  | .edit e, line => by
    rw [Command.run, Command.executed, runLeaves_single]
    rfl
  | .times count body, line => by
    rw [Command.run, Command.executed]
    exact runRepeated_eq_executed count body line
  | .block commands, line => by
    rw [Command.run, Command.executed]
    exact runAll_eq_executed commands line
  | .program _, line => by
    rw [Command.run, Command.executed, runLeaves_single]
    rfl

theorem runRepeated_eq_executed : ∀ (count : Int) (c : Command) (line : Line),
    c.runRepeated stop count line = runLeaves false (c.executedRepeated stop count line) line
  | count, .edit e, line => by
    rw [Command.runRepeated, Command.executedRepeated]
    exact runTimes_eq_executedTimes (fun line => (runLeaves_single (.edit e) line).symm) _ line
  | count, .times n body, line => by
    rw [Command.runRepeated, Command.executedRepeated]
    exact runRepeated_eq_executed (count * n) body line
  | count, .block commands, line => by
    rw [Command.runRepeated, Command.executedRepeated]
    exact runTimes_eq_executedTimes (runAll_eq_executed commands) _ line
  | count, .program _, line => by
    rw [Command.runRepeated, Command.executedRepeated]
    exact runTimes_eq_executedTimes (fun line => (runLeaves_single .program line).symm) _ line

theorem runAll_eq_executed : ∀ (commands : List Command) (line : Line),
    Command.runAll stop commands line =
      runLeaves false (Command.executedAll stop commands line) line
  | [], line => by rw [Command.runAll, Command.executedAll, runLeaves_nil]
  | c :: commands, line => by
    by_cases h : (stop && line.done) = true
    · rw [runAll_of_done h, Command.executedAll, if_pos h, runLeaves_nil]
    · rw [runAll_cons h, Command.executedAll, if_neg h]
      exact runLeaves_executed_append (run_eq_executed c line) (runAll_eq_executed commands)

end

/-! ## They belong to the command -/

/-- A leaf is a basic command with a property. -/
def Leaf.Satisfies (p : Edit → Prop) : Leaf → Prop
  | .edit e => p e
  | .program => False

theorem mem_followedBy {leaf : Leaf} {outcome : Outcome} {leaves : Line → List Leaf}
    (h : leaf ∈ outcome.followedBy leaves) : ∃ line, leaf ∈ leaves line := by
  cases outcome with
  | ran line => exact ⟨line, h⟩
  | refused line fault => exact absurd h (by simp [Outcome.followedBy])

/-- Every round executes leaves of the body. -/
theorem mem_executedTimes {leaf : Leaf} {body : Line → Outcome} {leaves : Line → List Leaf}
    {n : Nat} : ∀ {line : Line}, leaf ∈ executedTimes stop body leaves n line →
      ∃ reached, leaf ∈ leaves reached := by
  induction n with
  | zero => intro line h; exact absurd h (by simp [executedTimes])
  | succ n ih =>
    intro line h
    rw [executedTimes] at h
    split at h
    · exact absurd h (by simp)
    · rcases List.mem_append.1 h with h | h
      · exact ⟨line, h⟩
      · obtain ⟨reached, hreached⟩ := mem_followedBy h
        exact ih hreached

theorem mem_executedAll {leaf : Leaf} {commands : List Command} :
    ∀ {line : Line}, leaf ∈ Command.executedAll stop commands line →
      ∃ c ∈ commands, ∃ reached, leaf ∈ c.executed stop reached := by
  induction commands with
  | nil => intro line h; exact absurd h (by simp [Command.executedAll])
  | cons c commands ih =>
    intro line h
    rw [Command.executedAll] at h
    split at h
    · exact absurd h (by simp)
    · rcases List.mem_append.1 h with h | h
      · exact ⟨c, by simp, line, h⟩
      · obtain ⟨reached, hreached⟩ := mem_followedBy h
        obtain ⟨d, hd, hleaf⟩ := ih hreached
        exact ⟨d, List.mem_cons_of_mem _ hd, hleaf⟩

/-- The leaves executed by running a command, or repeating it, are basic commands of it. -/
theorem satisfies_of_mem_executed {p : Edit → Prop} {c : Command} (hc : c.BuiltFrom p)
    {leaf : Leaf} :
    (∀ line, leaf ∈ c.executed stop line → leaf.Satisfies p) ∧
      ∀ count line, leaf ∈ c.executedRepeated stop count line → leaf.Satisfies p := by
  induction hc with
  | @edit e he =>
    refine ⟨fun line h => ?_, fun count line h => ?_⟩
    · rw [Command.executed, List.mem_singleton] at h
      rw [h]
      exact he
    · rw [Command.executedRepeated] at h
      obtain ⟨-, h⟩ := mem_executedTimes h
      rw [List.mem_singleton.1 h]
      exact he
  | times hbody ih =>
    refine ⟨fun line h => ?_, fun count line h => ?_⟩
    · rw [Command.executed] at h
      exact ih.2 _ _ h
    · rw [Command.executedRepeated] at h
      exact ih.2 _ _ h
  | @block commands hcommands ih =>
    have hall : ∀ line, leaf ∈ Command.executedAll stop commands line → leaf.Satisfies p := by
      intro line h
      obtain ⟨c, hc, reached, hleaf⟩ := mem_executedAll h
      exact (ih c hc).1 reached hleaf
    refine ⟨fun line h => ?_, fun count line h => ?_⟩
    · rw [Command.executed] at h
      exact hall line h
    · rw [Command.executedRepeated] at h
      obtain ⟨reached, h⟩ := mem_executedTimes h
      exact hall reached h

/-! ## What every leaf keeps -/

/-- What every basic command with a property can be run on and keeps, a row of such commands can be
run on and keeps. -/
theorem runLeaves_keeps {p : Edit → Prop} {inv : Line → Prop}
    (hstep : ∀ e, p e → ∀ line, inv line → ∃ reached, e.attempt line = .ran reached ∧ inv reached)
    {leaves : List Leaf} (hleaves : ∀ leaf ∈ leaves, leaf.Satisfies p) :
    ∀ {line : Line}, inv line →
      ∃ reached, runLeaves stop leaves line = .ran reached ∧ inv reached := by
  induction leaves with
  | nil => intro line hline; exact ⟨line, rfl, hline⟩
  | cons leaf leaves ih =>
    intro line hline
    by_cases h : (stop && line.done) = true
    · exact ⟨line, runLeaves_of_done h _, hline⟩
    · cases leaf with
      | program => exact absurd (hleaves .program (by simp)) (by simp [Leaf.Satisfies])
      | edit e =>
        obtain ⟨next, hnext, hinv⟩ := hstep e (hleaves (.edit e) (by simp)) line hline
        obtain ⟨reached, hreached, hkept⟩ :=
          ih (fun leaf hleaf => hleaves leaf (List.mem_cons_of_mem _ hleaf)) hinv
        refine ⟨reached, ?_, hkept⟩
        rw [runLeaves_cons h]
        show (e.attempt line).andThen _ = _
        rw [hnext, ran_andThen, hreached]

end

end LineEditor
