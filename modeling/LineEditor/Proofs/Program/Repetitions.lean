import LineEditor.Proofs.Program.Sequence
import Mathlib.Algebra.BigOperators.Ring.List
import Mathlib.Algebra.Group.Nat.Even
import Mathlib.Algebra.Order.BigOperators.GroupWithZero.List
import Mathlib.Algebra.Order.Ring.Int

/-!
# Repetitions of repetitions

Repetitions of repetitions run the innermost command as often as the product of their counts says.
Level by level, each of them would run the one below it as often as its own count says, and not at
all if that is below nought. Without negative counts the two agree. With negative ones they agree
unless there is an even number of them and no count is nought: the product is positive then, and the
innermost command runs, although level by level nothing would.
-/

namespace LineEditor

/-- The counts of repetitions of repetitions, the outermost first. -/
def Command.counts : Command → List Int
  | .times n body => n :: body.counts
  | _ => []

/-- The command that repetitions of repetitions repeat. -/
def Command.innermost : Command → Command
  | .times _ body => body.innermost
  | c => c

/-- Runs repetitions of repetitions level by level. -/
def Command.runLevels (stop : Bool) : Command → Line → Outcome
  | .times n body => runTimes stop (Command.runLevels stop body) n.toNat
  | c => c.run stop

variable {stop : Bool} {body : Line → Outcome} {counts : List Int}

/-! ## Rounds of rounds -/

theorem runTimes_add (body : Line → Outcome) (m n : Nat) (line : Line) :
    runTimes stop body (m + n) line =
      (runTimes stop body m line).andThen (runTimes stop body n) := by
  induction m generalizing line with
  | zero => rw [Nat.zero_add]; rfl
  | succ m ih =>
    by_cases h : (stop && line.done) = true
    · rw [runTimes_of_done h, runTimes_of_done h, ran_andThen, runTimes_of_done h]
    · rw [Nat.succ_add, runTimes_succ h, runTimes_succ h, andThen_assoc]
      congr 1
      exact funext ih

/-- Where the line is done in the middle of an inner row of rounds, all rows stop there. -/
theorem runTimes_runTimes (body : Line → Outcome) (m n : Nat) (line : Line) :
    runTimes stop (runTimes stop body n) m line = runTimes stop body (m * n) line := by
  induction m generalizing line with
  | zero => rw [Nat.zero_mul]; rfl
  | succ m ih =>
    by_cases h : (stop && line.done) = true
    · rw [runTimes_of_done h, runTimes_of_done h]
    · rw [runTimes_succ h, Nat.succ_mul, Nat.add_comm, runTimes_add]
      congr 1
      exact funext ih

theorem runTimes_of_ran (hbody : ∀ line, body line = .ran line) (n : Nat) (line : Line) :
    runTimes stop body n line = .ran line := by
  induction n with
  | zero => rfl
  | succ n ih =>
    by_cases h : (stop && line.done) = true
    · exact runTimes_of_done h _ _
    · rw [runTimes_succ h, hbody, ran_andThen, ih]

/-! ## Counts and their product -/

/-- Without a nought among them, the product of some counts is positive if and only if an even
number of them is negative. -/
theorem prod_pos_iff_even (h : 0 ∉ counts) : 0 < counts.prod ↔ Even (counts.countP (· < 0)) := by
  induction counts with
  | nil => simp
  | cons n counts ih =>
    have hn : 0 ≠ n := List.ne_of_not_mem_cons h
    have hcounts : 0 ∉ counts := List.not_mem_of_not_mem_cons h
    have hne : counts.prod ≠ 0 := List.prod_ne_zero hcounts
    rw [List.prod_cons]
    rcases Int.lt_or_gt_of_ne (Ne.symm hn) with hneg | hpos
    · rw [List.countP_cons_of_pos (by simpa using hneg), Nat.even_add_one, ← ih hcounts]
      constructor
      · intro hprod hpos
        exact absurd hprod (Int.not_lt.2 (Int.le_of_lt (Int.mul_neg_of_neg_of_pos hneg hpos)))
      · intro hprod
        exact Int.mul_pos_of_neg_of_neg hneg (by omega)
    · rw [List.countP_cons_of_neg (by simpa using Int.le_of_lt hpos), ← ih hcounts]
      exact mul_pos_iff_of_pos_left hpos

theorem prod_nonpos_iff (counts : List Int) :
    counts.prod ≤ 0 ↔ 0 ∈ counts ∨ ¬ Even (counts.countP (· < 0)) := by
  by_cases h : 0 ∈ counts
  · have hzero : counts.prod = 0 := List.prod_eq_zero h
    exact iff_of_true (Int.le_of_eq hzero) (Or.inl h)
  · rw [← Int.not_lt, prod_pos_iff_even h]
    exact (or_iff_right h).symm

/-! ## Both ways of running -/

theorem runRepeated_eq_runTimes : ∀ (c : Command) (count : Int) (line : Line),
    c.runRepeated stop count line =
      runTimes stop (c.innermost.run stop) (count * c.counts.prod).toNat line
  | .times n body, count, line => by
    rw [Command.runRepeated, runRepeated_eq_runTimes body, Command.innermost, Command.counts,
      List.prod_cons, Int.mul_assoc]
  | .edit _, count, line | .block _, count, line | .program _, count, line => by
    show _ = runTimes stop (Command.run stop _) (count * 1).toNat line
    rw [Command.runRepeated, Int.mul_one]
    rfl

/-- Level by level a repetition runs nothing if any of its counts is not above nought. -/
theorem runLevels_of_nonpos : ∀ {c : Command}, (∃ n ∈ c.counts, n ≤ 0) → ∀ line,
    c.runLevels stop line = .ran line
  | .edit _, h, _ | .block _, h, _ | .program _, h, _ => by
    obtain ⟨n, hn, -⟩ := h
    cases hn
  | .times m body, h, line => by
    rw [Command.runLevels]
    by_cases hm : m ≤ 0
    · rw [Int.toNat_of_nonpos hm]
      rfl
    · obtain ⟨n, hn, hle⟩ := h
      rcases List.mem_cons.1 hn with rfl | hn
      · exact absurd hle hm
      · exact runTimes_of_ran (runLevels_of_nonpos ⟨n, hn, hle⟩) _ line

/-- Without negative counts, a repetition runs the innermost command level by level as often as the
product says. -/
theorem runLevels_times_of_nonneg : ∀ {c : Command} {count : Int}, 0 ≤ count →
    (∀ n ∈ c.counts, 0 ≤ n) → ∀ line, (Command.times count c).runLevels stop line =
      runTimes stop (c.innermost.run stop) (count * c.counts.prod).toNat line
  | .edit _, count, _, _, _ | .block _, count, _, _, _ | .program _, count, _, _, _ => by
    show _ = runTimes stop (Command.run stop _) (count * 1).toNat _
    rw [Int.mul_one]
    rfl
  | .times n body, count, hcount, hcounts, line => by
    obtain ⟨hn, hbody⟩ := List.forall_mem_cons.1 hcounts
    have hinner : Command.runLevels stop (.times n body) =
        runTimes stop (body.innermost.run stop) (n * body.counts.prod).toNat :=
      funext (runLevels_times_of_nonneg hn hbody)
    rw [Command.runLevels, hinner, runTimes_runTimes, Command.innermost, Command.counts,
      List.prod_cons, Int.toNat_mul hcount (Int.mul_nonneg hn (List.prod_nonneg hbody))]

/-- Repetitions of repetitions run the innermost command as often as the product of their counts
says. They do nothing if that is not above nought, that is, if a count is nought or an odd number of
them are negative. Level by level nothing is run as soon as one count is not above nought, so the
two ways of running agree unless an even number of counts are negative and none is nought. -/
theorem repetitions_run_product_of_counts (stop : Bool) (count : Int) (body : Command)
    (line : Line) :
    let c := Command.times count body
    c.run stop line = runTimes stop (c.innermost.run stop) c.counts.prod.toNat line ∧
      (c.counts.prod ≤ 0 ↔ 0 ∈ c.counts ∨ ¬ Even (c.counts.countP (· < 0))) ∧
      (c.counts.prod ≤ 0 → c.run stop line = .ran line) ∧
      ((∃ n ∈ c.counts, n ≤ 0) → c.runLevels stop line = .ran line) ∧
      ((∀ n ∈ c.counts, 0 ≤ n) ∨ c.counts.prod ≤ 0 →
        c.run stop line = c.runLevels stop line) := by
  intro c
  have hrun : c.run stop line = runTimes stop (c.innermost.run stop) c.counts.prod.toNat line := by
    rw [Command.run]
    exact runRepeated_eq_runTimes body count line
  have hnothing : c.counts.prod ≤ 0 → c.run stop line = .ran line := by
    intro hprod
    rw [hrun, Int.toNat_of_nonpos hprod]
    rfl
  refine ⟨hrun, prod_nonpos_iff c.counts, hnothing, fun h => runLevels_of_nonpos h line, ?_⟩
  have hagree : (∀ n ∈ c.counts, 0 ≤ n) → c.run stop line = c.runLevels stop line := by
    intro hcounts
    obtain ⟨hcount, hbody⟩ := List.forall_mem_cons.1 hcounts
    exact hrun.trans (runLevels_times_of_nonneg hcount hbody line).symm
  rintro (hcounts | hprod)
  · exact hagree hcounts
  · by_cases hcounts : ∀ n ∈ c.counts, 0 ≤ n
    · exact hagree hcounts
    · obtain ⟨n, hn, hneg⟩ : ∃ n ∈ c.counts, ¬ 0 ≤ n := by simpa using hcounts
      exact (hnothing hprod).trans (runLevels_of_nonpos ⟨n, hn, by omega⟩ line).symm

/-- Three counts are negative, so the program below them, which cannot be run, is not reached. -/
theorem repetitions_run_product_of_counts_odd :
    let c : Command := .times (-2) (.times 3 (.times (-1) (.times (-5) (.program []))))
    let line : Line := { text := ['a', 'b'], cursor := 1 }
    c.counts.prod ≤ 0 ∧ c.run true line = .ran line ∧ c.run true line = c.runLevels true line := by
  intro c line
  have hprod : c.counts.prod ≤ 0 := by decide
  obtain ⟨-, -, hnothing, -, hagree⟩ := repetitions_run_product_of_counts true (-2) _ line
  exact ⟨hprod, hnothing hprod, hagree (Or.inr hprod)⟩

/-- Two negative counts make one round, which level by level there is not. -/
theorem two_negative_counts_run_once :
    let c : Command := .times (-1) (.times (-1) (.edit (.insert ['x'])))
    let line : Line := { text := ['a', 'b'] }
    (∃ n ∈ c.counts, n ≤ 0) ∧ c.runLevels true line = .ran line ∧ c.run true line ≠ .ran line ∧
      c.run true line = .ran { text := ['x', 'a', 'b'], cursor := 1 } := by
  decide

end LineEditor
