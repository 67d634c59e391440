import LineEditor.Line.Whole
import LineEditor.Line.WordEdit

/-!
# Local operations

Most operations look only at the text and the cursor. What they make of these depends on nothing
else, they may move the mark if there is one, and they touch neither the clips nor whether the line
is done. Of the others each looks at one more part of the line: the mark, or the clips.
-/

namespace LineEditor.Line

/-- A line with the same text and cursor, and nothing else. -/
def bare (line : Line) : Line :=
  { text := line.text, cursor := line.cursor }

/-- An operation is local: it comes to the same on the line with nothing but text, cursor and, where
the mark goes, the mark. -/
def Local (op : Line → Line) : Prop :=
  ∀ line, op line = { line with
    text := (op line.bare).text
    cursor := (op line.bare).cursor
    mark := (op { line.bare with mark := line.mark }).mark }

variable {op : Line → Line}

theorem Local.clips_eq (h : Local op) (line : Line) : (op line).clips = line.clips := by
  rw [h line]

theorem Local.done_eq (h : Local op) (line : Line) : (op line).done = line.done := by
  rw [h line]

/-- A choice that text and cursor make, between operations that are local. -/
theorem Local.ite {c : Line → Prop} [DecidablePred c] (hc : ∀ line, c line.bare ↔ c line)
    {yes no : Line → Line} (hyes : Local yes) (hno : Local no) :
    Local fun line => if c line then yes line else no line := by
  intro line
  have hmarked : c { line.bare with mark := line.mark } ↔ c line := (hc _).symm.trans (hc line)
  by_cases h : c line
  · have hbare : c line.bare := (hc line).2 h
    simp only [if_pos h, if_pos hbare, if_pos (hmarked.2 h)]
    exact hyes line
  · have hbare : ¬ c line.bare := fun hother => h ((hc line).1 hother)
    have hmark : ¬ c { line.bare with mark := line.mark } := fun hother => h (hmarked.1 hother)
    simp only [if_neg h, if_neg hbare, if_neg hmark]
    exact hno line

/-! ## Operations with a choice -/

theorem local_deleteBack : Local deleteBack :=
  Local.ite (fun _ => Iff.rfl) (fun _ => rfl) fun _ => rfl

theorem local_modifyChar (f : List Char → List Char) : Local (modifyChar f) :=
  Local.ite (fun _ => Iff.rfl) (fun _ => rfl) fun _ => rfl

theorem local_capitalizeWord : Local capitalizeWord := by
  have h : capitalizeWord = fun line =>
      if ({ line with cursor := line.wordStart } : Line).atCharacter then
        { line.modify ⟨line.wordStart, line.wordStart + 1⟩ Text.upcase with cursor := line.cursor }
      else line := by
    funext line
    unfold capitalizeWord upcaseChar modifyChar
    split <;> rfl
  rw [h]
  exact Local.ite (fun _ => Iff.rfl) (fun _ => rfl) fun _ => rfl

theorem local_transposeChars : Local transposeChars := by
  intro line
  obtain ⟨text, cursor, mark, clips, done⟩ := line
  -- The instances name the line too, so they have to be unfolded with the rest.
  dsimp +instances only [transposeChars, bare, length, atEnd]
  generalize List.drop _ text = found
  rcases found with _ | ⟨a, _ | ⟨b, rest⟩⟩ <;> rfl

theorem local_transposeWords : Local transposeWords := by
  intro line
  obtain ⟨text, cursor, mark, clips, done⟩ := line
  dsimp +instances only [transposeWords, wordSpans, bare]
  generalize List.drop _ (wordSpansFrom 0 none text) = found
  rcases found with _ | ⟨first, _ | ⟨second, rest⟩⟩ <;> rfl

end LineEditor.Line
