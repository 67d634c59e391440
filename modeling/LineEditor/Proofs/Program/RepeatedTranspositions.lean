import LineEditor.Proofs.Line.RepeatedTranspositions
import LineEditor.Proofs.Program.RepeatedEdits

/-!
# Repeating transpositions

Swapping two characters again and again carries a character on to the end of the line, and there
swaps the last two. Moving the whole line to its end as often as it has characters brings it back.
Where the mark is makes no difference to either, and it stays there.
-/

namespace LineEditor

open Line (carried lastSwapped)

/-- On a line of two characters or more, where the run has not stopped, let the cursor stand at `c`,
or at 1 if it is at the start. Then `n` swaps carry the character before that place over the `n`
after it if there are so many: it goes to its new index, those that it passes go back by one, all
others stay, and the cursor goes on by `n`. If there are fewer, the character comes to the end of
the line, and so does the cursor, and the last two characters are exchanged besides if the number of
further swaps is odd. If the cursor is at the end already, nothing is carried.

If the cursor is at the last character or past it, moving what is up to there to the end of the line
as often as the line has characters changes nothing, also where the run has stopped. -/
theorem repeated_transpositions_have_closed_forms (stop : Bool) (line : Line) :
    (2 ≤ line.length → 0 ≤ line.cursor → line.cursor ≤ line.length →
        (stop && line.done) = false →
      let c := max line.cursor.toNat 1
      let ahead := line.length - c
      let moved (n : Nat) := carried (c - 1) n line.text
      let swaps (n : Nat) := Command.run stop (.times n (.edit (.plain .transposeChars))) line
      (∀ n ≤ ahead, ∀ i, (moved n)[i]? =
        line.text[if i = c - 1 + n then c - 1
          else if c - 1 ≤ i ∧ i < c - 1 + n then i + 1 else i]?) ∧
      (∀ n, 1 ≤ n → n ≤ ahead →
        swaps n = .ran { line with text := moved n, cursor := (c + n : Nat) }) ∧
      (∀ n, ahead < n → swaps n = .ran { line with
        text := if Odd (n - ahead) then lastSwapped (moved ahead) else moved ahead
        cursor := line.length }) ∧
      (line.cursor = line.length → moved ahead = line.text)) ∧
    (1 ≤ line.length → line.length - 1 ≤ line.cursor → line.cursor ≤ line.length →
      Command.run stop (.times line.length (.edit (.plain .transpose))) line = .ran line) := by
  refine ⟨?_, ?_⟩
  · intro h2 h0 h1 hgo c ahead moved swaps
    have hgo : ¬ (stop && line.done) = true := Bool.eq_false_iff.1 hgo
    have hcursor : line.cursor = line.cursor.toNat := by omega
    have hc : 1 ≤ c := Nat.le_max_right _ _
    have hle : c ≤ line.length := by omega
    let started : Line := { line with cursor := c }
    have hstarted : started.cursor = c := rfl
    have hswaps : ∀ n, 1 ≤ n → swaps n = .ran (Line.transposeChars^[n] started) := by
      intro n hn
      have hrun : swaps n = .ran (Line.transposeChars^[n] line) :=
        run_times_of_isLocal (v := .transposeChars) trivial (Line.bare_inBounds h0 h1) hgo n
      rw [hrun, Line.transposeChars_iterate_max hcursor h2 hn]
    refine ⟨?_, ?_, ?_, ?_⟩
    · intro n hn i
      exact Line.getElem?_carried (show c - 1 + n < line.length by omega) i
    · intro n hn hahead
      have hin : c + n ≤ started.length := show c + n ≤ line.length by omega
      rw [hswaps n hn, Line.transposeChars_iterate_of_le hstarted hc hin]
    · intro n hn
      rw [hswaps n (by omega), Line.transposeChars_iterate_of_lt hstarted hc hle h2 hn]
      rfl
    · intro hend
      have hnone : ahead = 0 := by omega
      show carried (c - 1) ahead line.text = line.text
      rw [hnone, Line.carried_zero]
  · intro hpos hcursor h1
    have h0 : 0 ≤ line.cursor := by omega
    by_cases hgo : (stop && line.done) = true
    · rw [run_times_edit, runTimes_of_done hgo]
    · rw [run_times_of_isLocal (v := .transpose) trivial (Line.bare_inBounds h0 h1) hgo]
      exact congrArg Outcome.ran (Line.transpose_iterate_length (by omega))

/-- From the start of a line, over two characters, and over all of them and once or twice more, with
a mark before the line; and a whole turn from the last character. -/
theorem repeated_transpositions_have_closed_forms_beyond :
    let line : Line := { text := "abcd".toList, mark := some (-2), done := true }
    let last : Line := { line with cursor := 3 }
    2 ≤ line.length ∧ 0 ≤ line.cursor ∧ line.cursor ≤ line.length ∧ (false && line.done) = false ∧
      Command.run false (.times (2 : Nat) (.edit (.plain .transposeChars))) line =
        .ran { line with text := "bcad".toList, cursor := 3 } ∧
      Command.run false (.times (4 : Nat) (.edit (.plain .transposeChars))) line =
        .ran { line with text := "bcad".toList, cursor := 4 } ∧
      Command.run false (.times (5 : Nat) (.edit (.plain .transposeChars))) line =
        .ran { line with text := "bcda".toList, cursor := 4 } ∧
      1 ≤ last.length ∧ last.length - 1 ≤ last.cursor ∧ last.cursor ≤ last.length ∧
      Command.run false (.times (4 : Nat) (.edit (.plain .transpose))) last = .ran last := by
  intro line last
  have h2 : 2 ≤ line.length := by decide
  have h0 : 0 ≤ line.cursor := by decide
  have h1 : line.cursor ≤ line.length := by decide
  have hgo : (false && line.done) = false := rfl
  obtain ⟨-, hcarry, hbeyond, -⟩ :=
    (repeated_transpositions_have_closed_forms false line).1 h2 h0 h1 hgo
  have hpos : 1 ≤ last.length := by decide
  have hlast : (last.length : Int) - 1 ≤ last.cursor := by decide
  have hle : last.cursor ≤ last.length := by decide
  have hturn := (repeated_transpositions_have_closed_forms false last).2 hpos hlast hle
  refine ⟨h2, h0, h1, hgo, hcarry 2 (by decide) (by decide), ?_, ?_, hpos, hlast, hle, hturn⟩
  · exact (hbeyond 4 (by decide)).trans (by decide)
  · exact (hbeyond 5 (by decide)).trans (by decide)

end LineEditor
