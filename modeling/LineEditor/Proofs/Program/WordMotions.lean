import LineEditor.Proofs.Line.WordMotions
import LineEditor.Proofs.Program.RepeatedEdits

/-!
# Walking over words

Repeated, the motion to the end of a word walks over the words that end past the cursor, one at a
time. A motion back takes it to the start of the word that it has just passed. Neither changes
anything but the cursor.
-/

namespace LineEditor

variable {stop : Bool} {line : Line}

/-- The last of the first `k` is the `k`-th, or the last of all if there are fewer. -/
theorem getLastD_take {ends : List Int} {k : Nat} (hk : 1 ≤ k) (hm : 0 < ends.length)
    (place : Int) : (ends.take k).getLastD place = ends[min k ends.length - 1] := by
  have hne : ends.take k ≠ [] := by
    rw [← List.length_pos_iff, List.length_take]
    omega
  rw [List.getLastD_eq_getLast?, List.getLast?_eq_some_getLast hne, Option.getD_some,
    List.getLast_eq_getElem, List.getElem_take]
  simp only [List.length_take]

/-- On a line in bounds where the run has not stopped, `k` motions ahead come to the `k`-th of the
places past the cursor where a word ends, or to the last one if there are fewer; if there is none,
the cursor stays. Where one motion ahead moves the cursor, it comes to the end of a word, and a
motion back then to the start of that word. A motion back comes to the start of a word that begins
at the cursor or before it, or stays, and a second one does nothing. -/
theorem word_motions_visit_every_word (h : line.InBounds) (hgo : (stop && line.done) = false)
    {k : Nat} (hk : 1 ≤ k) :
    let ends := (line.wordSpans.map Span.stop).filter (line.cursor < ·)
    let ahead (k : Nat) := Command.run stop (.times k (.edit (.plain .forwardWord))) line
    ends.Pairwise (· < ·) ∧
      (∀ hm : 0 < ends.length,
        ahead k = .ran { line with cursor := ends[min k ends.length - 1] }) ∧
      (ends = [] → ahead k = .ran line) ∧
      (∃ there, Command.run stop (.edit (.plain .forwardWord)) line =
          .ran { line with cursor := there } ∧
        (there ≠ line.cursor → ∃ s ∈ line.wordSpans, s.stop = there ∧
          Command.run stop (.edit (.plain .backWord)) { line with cursor := there } =
            .ran { line with cursor := s.start })) ∧
      ∃ there, Command.run stop (.edit (.plain .backWord)) line =
          .ran { line with cursor := there } ∧
        Command.run stop (.edit (.plain .backWord)) { line with cursor := there } =
          .ran { line with cursor := there } ∧
        (there = line.cursor ∨ ∃ s ∈ line.wordSpans, s.start = there ∧ there ≤ line.cursor) := by
  intro ends ahead
  have hgo : ¬ (stop && line.done) = true := Bool.eq_false_iff.1 hgo
  have hahead : ahead k = .ran { line with cursor := (ends.take k).getLastD line.cursor } :=
    (run_times_of_not_decides id h hgo k).trans
      (congrArg Outcome.ran (h.forwardWord_iterate rfl k))
  have hforward : Command.run stop (.edit (.plain .forwardWord)) line = .ran line.forwardWord :=
    run_edit h (.plain .forwardWord)
  have hback : ∀ {line : Line}, line.InBounds →
      Command.run stop (.edit (.plain .backWord)) line = .ran line.backWord :=
    fun h => run_edit h (.plain .backWord)
  refine ⟨line.pairwise_wordEndsPast line.cursor, fun hm => ?_, fun hnil => ?_,
    ⟨line.forwardWord.cursor, hforward, fun hmoved => ?_⟩,
    ⟨line.backWord.cursor, hback h, ?_, ?_⟩⟩
  · rw [hahead, getLastD_take hk hm]
  · rw [hahead, hnil, List.take_nil]
    rfl
  · obtain ⟨s, hs, hplace, hstart⟩ := h.backWord_forwardWord hmoved
    refine ⟨s, hs, (congrArg Line.cursor hplace).symm, ?_⟩
    exact (hback h.forwardWord).trans (congrArg Outcome.ran hstart)
  · exact (hback h.backWord).trans (congrArg Outcome.ran h.backWord_backWord)
  · rcases h.backWord_cases with ⟨-, hstays⟩ | ⟨s, hs, hle, hstart⟩
    · exact Or.inl (congrArg Line.cursor hstays)
    · have hplace : line.backWord.cursor = s.start := congrArg Line.cursor hstart
      exact Or.inr ⟨s, hs, hplace.symm, hplace ▸ hle⟩

/-- From inside the first of three words, the last of which runs into the end of the line. -/
theorem word_motions_visit_every_word_inside :
    let line : Line := { text := "ab, cd.ef".toList, cursor := 1, mark := some 12 }
    line.InBounds ∧ (true && line.done) = false ∧ 1 ≤ 2 ∧ 1 ≤ 7 ∧
      Command.run true (.times (2 : Nat) (.edit (.plain .forwardWord))) line =
        .ran { line with cursor := 6 } ∧
      Command.run true (.times (7 : Nat) (.edit (.plain .forwardWord))) line =
        .ran { line with cursor := 9 } := by
  intro line
  have h : line.InBounds := ⟨by decide, by decide, by simp [line]⟩
  have hgo : (true && line.done) = false := rfl
  have hsome : 1 ≤ 2 := by decide
  have hmore : 1 ≤ 7 := by decide
  have hm : 0 < ((line.wordSpans.map Span.stop).filter (line.cursor < ·)).length := by decide
  obtain ⟨-, htwo, -⟩ := word_motions_visit_every_word h hgo hsome
  obtain ⟨-, hall, -⟩ := word_motions_visit_every_word h hgo hmore
  exact ⟨h, hgo, hsome, hmore, htwo hm, hall hm⟩

end LineEditor
