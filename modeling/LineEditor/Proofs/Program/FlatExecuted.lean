import LineEditor.Proofs.Program.Executed
import LineEditor.Proofs.Program.FlatRun

/-!
# The leaves of a row that are executed

A row of leaves executes its first leaves, up to one after which the run stops or which is refused.
If no count is negative, commands execute the same leaves as the row of their leaves does.
-/

namespace LineEditor

variable {stop : Bool} {line : Line}

/-- The leaves executed by running a row of leaves. -/
def executedLeaves (stop : Bool) : List Leaf → Line → List Leaf
  | [], _ => []
  | leaf :: leaves, line =>
    if stop && line.done then []
    else leaf :: (leaf.run line).followedBy (executedLeaves stop leaves)

@[simp] theorem executedLeaves_nil : executedLeaves stop [] line = [] := rfl

theorem executedLeaves_of_done (h : (stop && line.done) = true) (leaves : List Leaf) :
    executedLeaves stop leaves line = [] := by
  cases leaves with
  | nil => rfl
  | cons leaf leaves => rw [executedLeaves, if_pos h]

theorem executedLeaves_cons (h : ¬ (stop && line.done) = true) (leaf : Leaf) (leaves : List Leaf) :
    executedLeaves stop (leaf :: leaves) line =
      leaf :: (leaf.run line).followedBy (executedLeaves stop leaves) := by
  rw [executedLeaves, if_neg h]

theorem followedBy_append (outcome : Outcome) (first : Line → List Leaf)
    (run : Line → Outcome) (second : Line → List Leaf) :
    outcome.followedBy first ++ (outcome.andThen run).followedBy second =
      outcome.followedBy fun line => first line ++ (run line).followedBy second := by
  cases outcome <;> rfl

theorem executedLeaves_append (first second : List Leaf) (line : Line) :
    executedLeaves stop (first ++ second) line =
      executedLeaves stop first line ++
        (runLeaves stop first line).followedBy (executedLeaves stop second) := by
  induction first generalizing line with
  | nil => rfl
  | cons leaf leaves ih =>
    by_cases h : (stop && line.done) = true
    · have hsecond : (Outcome.ran line).followedBy (executedLeaves stop second) = [] :=
        executedLeaves_of_done h second
      rw [runLeaves_of_done h, executedLeaves_of_done h, executedLeaves_of_done h, hsecond]
      rfl
    · rw [List.cons_append, executedLeaves_cons h, executedLeaves_cons h, runLeaves_cons h,
        List.cons_append, followedBy_append]
      congr 2
      exact funext ih

/-! ## Commands execute the leaves of their row -/

/-- If each round executes leaves of one row, all rounds execute those of as many copies. -/
theorem executedTimes_eq_executedLeaves {body : Line → Outcome} {executed : Line → List Leaf}
    {leaves : List Leaf}
    (hbody : ∀ line : Line, ¬ (stop && line.done) = true →
      body line = runLeaves stop leaves line)
    (hexecuted : ∀ line : Line, ¬ (stop && line.done) = true →
      executed line = executedLeaves stop leaves line) (n : Nat) :
    ∀ line, executedTimes stop body executed n line =
      executedLeaves stop (List.replicate n leaves).flatten line := by
  induction n with
  | zero => intro line; rfl
  | succ n ih =>
    intro line
    by_cases h : (stop && line.done) = true
    · rw [executedTimes, if_pos h, executedLeaves_of_done h]
    · rw [executedTimes, if_neg h, hbody line h, hexecuted line h, List.replicate_succ,
        List.flatten_cons, executedLeaves_append]
      congr 2
      exact funext ih

theorem executedAll_eq_of_executed_eq {commands : List Command}
    (hcounted : ∀ c ∈ commands, c.Counted)
    (h : ∀ c ∈ commands, ∀ line : Line, ¬ (stop && line.done) = true →
      c.executed stop line = executedLeaves stop c.leaves line) :
    ∀ line, Command.executedAll stop commands line =
      executedLeaves stop (Command.leavesAll commands) line := by
  induction commands with
  | nil => intro line; rw [Command.executedAll, Command.leavesAll, executedLeaves_nil]
  | cons c commands ih =>
    intro line
    have hothers := ih (fun d hd => hcounted d (List.mem_cons_of_mem _ hd))
      fun d hd => h d (List.mem_cons_of_mem _ hd)
    by_cases hdone : (stop && line.done) = true
    · rw [Command.executedAll, if_pos hdone, executedLeaves_of_done hdone]
    · rw [Command.executedAll, if_neg hdone, h c (by simp) line hdone,
        (run_eq_runLeaves (hcounted c (by simp))).1 line hdone, Command.leavesAll,
        executedLeaves_append]
      congr 2
      exact funext hothers

/-- Unless the run is to stop, a command executes the leaves that the row of its leaves executes;
repeated, it executes those of as many copies, also if the run is to stop at once. -/
theorem executed_eq_executedLeaves {c : Command} (hc : c.Counted) :
    (∀ line : Line, ¬ (stop && line.done) = true →
      c.executed stop line = executedLeaves stop c.leaves line) ∧
    ∀ count : Int, 0 ≤ count → ∀ line, c.executedRepeated stop count line =
      executedLeaves stop (List.replicate count.toNat c.leaves).flatten line := by
  -- What repeats a leaf or a block is told by how it runs and what it executes once.
  have hrepeated : ∀ {c : Command}, c.Counted → ∀ {body : Line → Outcome}
      {executed : Line → List Leaf}, (∀ line, c.run stop line = body line) →
      (∀ line : Line, ¬ (stop && line.done) = true →
        executed line = executedLeaves stop c.leaves line) →
      ∀ (n : Nat) (line : Line), executedTimes stop body executed n line =
        executedLeaves stop (List.replicate n c.leaves).flatten line := by
    intro c hc body executed hrun hexecuted n line
    refine executedTimes_eq_executedLeaves (fun line hdone => ?_) hexecuted n line
    rw [← hrun]
    exact (run_eq_runLeaves hc).1 line hdone
  induction hc with
  | @edit e =>
    have honce : ∀ line : Line, ¬ (stop && line.done) = true →
        [Leaf.edit e] = executedLeaves stop (Command.edit e).leaves line := by
      intro line hdone
      rw [Command.leaves, executedLeaves_cons hdone]
      cases Leaf.run (.edit e) line <;> rfl
    refine ⟨fun line hdone => ?_, fun count _ line => ?_⟩
    · rw [Command.executed]
      exact honce line hdone
    · rw [Command.executedRepeated]
      exact hrepeated .edit (fun line => by rw [Command.run]) honce _ line
  | @times n body hn hbody ih =>
    refine ⟨fun line _ => ?_, fun count hcount line => ?_⟩
    · rw [Command.executed, Command.leaves]
      exact ih.2 n hn line
    · rw [Command.executedRepeated, Command.leaves, flatten_replicate_flatten,
        ih.2 (count * n) (Int.mul_nonneg hcount hn) line, Int.toNat_mul hcount hn]
  | @block commands hcommands ih =>
    have hall := executedAll_eq_of_executed_eq hcommands fun c hc => (ih c hc).1
    refine ⟨fun line _ => ?_, fun count _ line => ?_⟩
    · rw [Command.executed, Command.leaves]
      exact hall line
    · rw [Command.executedRepeated]
      refine hrepeated (.block hcommands) (fun line => by rw [Command.run]) ?_ _ line
      intro line _
      rw [Command.leaves]
      exact hall line
  | @program commands =>
    have honce : ∀ line : Line, ¬ (stop && line.done) = true →
        [Leaf.program] = executedLeaves stop (Command.program commands).leaves line := by
      intro line hdone
      rw [Command.leaves, executedLeaves_cons hdone]
      rfl
    refine ⟨fun line hdone => ?_, fun count _ line => ?_⟩
    · rw [Command.executed]
      exact honce line hdone
    · rw [Command.executedRepeated]
      exact hrepeated .program (fun line => by rw [Command.run]) honce _ line

/-- Commands execute the leaves that the row of all their leaves executes. -/
theorem executedAll_eq_executedLeaves {commands : List Command} (h : ∀ c ∈ commands, c.Counted)
    (line : Line) :
    Command.executedAll stop commands line =
      executedLeaves stop (Command.leavesAll commands) line :=
  executedAll_eq_of_executed_eq h (fun c hc => (executed_eq_executedLeaves (h c hc)).1) line

end LineEditor
