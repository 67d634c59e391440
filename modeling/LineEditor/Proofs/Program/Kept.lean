import LineEditor.Proofs.Program.InBounds

/-!
# What a run keeps

On a line in bounds every basic command of a program runs, so whatever all of them keep on lines in
bounds, the whole run keeps. The counts of repetitions and whether the run stops when the line is
done make no difference.
-/

namespace LineEditor

variable {stop : Bool} {p : Edit → Prop} {inv : Line → Prop}

/-- Leaves of which each keeps something on lines in bounds run to the end and keep it. -/
theorem runLeaves_keeps_inBounds
    (hstep : ∀ e, p e → ∀ line : Line, line.InBounds → inv line → inv (e.run line))
    {leaves : List Leaf} (hleaves : ∀ leaf ∈ leaves, leaf.Satisfies p) {line : Line}
    (h : line.InBounds) (hinv : inv line) :
    ∃ last, runLeaves stop leaves line = .ran last ∧ last.InBounds ∧ inv last := by
  have hattempt : ∀ e, p e → ∀ line : Line, line.InBounds ∧ inv line →
      ∃ reached, e.attempt line = .ran reached ∧ reached.InBounds ∧ inv reached := by
    intro e he line hline
    obtain ⟨hin, hkept⟩ := hline
    obtain ⟨hran, hnext⟩ := e.attempt_inBounds hin
    exact ⟨e.run line, hran, hnext, hstep e he line hin hkept⟩
  exact runLeaves_keeps hattempt hleaves ⟨h, hinv⟩

/-- The leaves executed by running commands one after another are basic commands of them. -/
theorem satisfies_of_mem_executedAll {commands : List Command}
    (hcommands : ∀ c ∈ commands, c.BuiltFrom p) {line : Line} {leaf : Leaf}
    (hleaf : leaf ∈ Command.executedAll stop commands line) : leaf.Satisfies p := by
  obtain ⟨c, hc, reached, hmem⟩ := mem_executedAll hleaf
  exact (satisfies_of_mem_executed (hcommands c hc)).1 reached hmem

/-- Commands of which each basic command keeps something on lines in bounds run to the end and keep
it. -/
theorem runAll_keeps
    (hstep : ∀ e, p e → ∀ line : Line, line.InBounds → inv line → inv (e.run line))
    {commands : List Command} (hcommands : ∀ c ∈ commands, c.BuiltFrom p) {line : Line}
    (h : line.InBounds) (hinv : inv line) :
    ∃ last, Command.runAll stop commands line = .ran last ∧ last.InBounds ∧ inv last := by
  have hleaves : ∀ leaf ∈ Command.executedAll stop commands line, leaf.Satisfies p := by
    intro leaf hleaf
    exact satisfies_of_mem_executedAll hcommands hleaf
  rw [runAll_eq_executed]
  exact runLeaves_keeps_inBounds hstep hleaves h hinv

/-- A program of which each basic command keeps something on lines in bounds runs to the end on any
text, and keeps it if it holds of the line made from the text. -/
theorem Program.run_keeps
    (hstep : ∀ e, p e → ∀ line : Line, line.InBounds → inv line → inv (e.run line))
    {program : Program} (hprogram : ∀ c ∈ program, c.BuiltFrom p) {text : List Char}
    (hinv : inv { text }) :
    ∃ last, Program.run stop program text = .ran last ∧ last.InBounds ∧ inv last :=
  runAll_keeps hstep hprogram (Line.inBounds_ofText text) hinv

end LineEditor
