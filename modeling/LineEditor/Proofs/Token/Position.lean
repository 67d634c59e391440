import LineEditor.Token.Lexeme

/-!
# Places of characters

The place of a character can be counted from the whole text before it, or step by step while reading
on from the start of the text.
-/

namespace LineEditor

variable {source rest : List Char} {index : Nat} {c : Char}

/-! ## What stands at an index -/

theorem drop_succ_of_drop (h : source.drop index = c :: rest) :
    source.drop (index + 1) = rest := by
  rw [← List.tail_drop, h]
  rfl

theorem lt_length_of_drop (h : source.drop index = c :: rest) : index < source.length := by
  have hlen := congrArg List.length h
  rw [List.length_drop, List.length_cons] at hlen
  omega

theorem length_le_of_drop (h : source.drop index = []) : source.length ≤ index :=
  List.drop_eq_nil_iff.1 h

theorem take_succ_of_drop (h : source.drop index = c :: rest) :
    source.take (index + 1) = source.take index ++ [c] := by
  have hget : source[index]? = some c := by
    rw [← List.head?_drop, h]
    rfl
  rw [List.take_add_one, hget]
  rfl

/-! ## Places -/

@[simp] theorem Position.ofIndex_zero (source : List Char) :
    Position.ofIndex source 0 = .start := by
  simp [ofIndex, start]

/-- An index past the end counts as the end. -/
theorem Position.ofIndex_of_length_le (h : source.length ≤ index) :
    Position.ofIndex source index = .ofIndex source source.length := by
  unfold ofIndex
  rw [List.take_of_length_le h, List.take_length]

/-- The place of the next character. -/
theorem Position.ofIndex_succ (h : source.drop index = c :: rest) :
    Position.ofIndex source (index + 1) = (Position.ofIndex source index).after c := by
  unfold ofIndex after right
  rw [take_succ_of_drop h]
  by_cases hc : c = '\n'
  · subst hc
    simp
    omega
  · have hcount : List.count '\n' [c] = 0 := List.count_eq_zero.2 (by simpa using Ne.symm hc)
    simp [hc, hcount]
    omega

end LineEditor
