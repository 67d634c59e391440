import LineEditor.Line.Character
import LineEditor.Line.Whole
import Mathlib.Algebra.Ring.Parity
import Mathlib.Data.List.Rotate
import Mathlib.Logic.Function.Iterate

/-!
# Transpositions so many times over

Swapping the characters before and at the cursor moves past both, so the next swap takes the same
character on. Repeated, it carries that character over one after another, up to the end of the line.
There the cursor stays, and the last two characters change places each time.

Where the whole line is moved to the end of the line, it turns by one character. Turning it as often
as it has characters changes nothing.
-/

namespace LineEditor.Line

variable {line : Line} {text front passed back : List Char} {a b : Char} {place n : Nat}

/-! ## Carrying a character on -/

/-- A text in which the character at a place has been carried over the `n` characters after it. -/
def carried (place n : Nat) (text : List Char) : List Char :=
  text.take place ++
    ((text.drop (place + 1)).take n ++ ((text.drop place).take 1 ++ text.drop (place + 1 + n)))

theorem carried_of_pieces (front passed back : List Char) (a : Char) :
    carried front.length passed.length (front ++ a :: (passed ++ back)) =
      front ++ (passed ++ a :: back) := by
  have hnext : (front ++ a :: (passed ++ back)).drop (front.length + 1) = passed ++ back := by
    rw [← List.drop_drop, List.drop_left, List.drop_one, List.tail_cons]
  have hrest : (front ++ a :: (passed ++ back)).drop (front.length + 1 + passed.length) = back := by
    rw [← List.drop_drop, hnext, List.drop_left]
  rw [carried, hnext, hrest, List.take_left, List.take_left, List.drop_left]
  rfl

theorem exists_pieces_of_lt (h : place + n < text.length) :
    ∃ front a passed back, text = front ++ a :: (passed ++ back) ∧ front.length = place ∧
      passed.length = n := by
  have hplace : place < text.length := by omega
  refine ⟨text.take place, text[place], (text.drop (place + 1)).take n,
    (text.drop (place + 1)).drop n, ?_, ?_, ?_⟩
  · rw [List.take_append_drop, ← List.drop_eq_getElem_cons hplace, List.take_append_drop]
  · exact List.length_take_of_le (Nat.le_of_lt hplace)
  · rw [List.length_take, List.length_drop]
    omega

/-- The character goes to its new place, those that it passes go back by one, and all
others stay. -/
theorem getElem?_carried (h : place + n < text.length) (i : Nat) :
    (carried place n text)[i]? =
      text[if i = place + n then place else if place ≤ i ∧ i < place + n then i + 1 else i]? := by
  obtain ⟨front, a, passed, back, rfl, rfl, rfl⟩ := exists_pieces_of_lt h
  rw [carried_of_pieces]
  grind

theorem length_carried (h : place + n < text.length) :
    (carried place n text).length = text.length := by
  obtain ⟨front, a, passed, back, rfl, rfl, rfl⟩ := exists_pieces_of_lt h
  rw [carried_of_pieces]
  simp only [List.length_append, List.length_cons]
  omega

theorem carried_zero (place : Nat) (text : List Char) : carried place 0 text = text := by
  rw [carried, List.take_zero, List.nil_append, Nat.add_zero, ← List.drop_drop,
    List.take_append_drop, List.take_append_drop]

/-! ## The last two characters -/

/-- A text with its last two characters exchanged. -/
def lastSwapped (text : List Char) : List Char :=
  text.take (text.length - 2) ++ (text.drop (text.length - 2)).reverse

theorem lastSwapped_append (front : List Char) (a b : Char) :
    lastSwapped (front ++ [a, b]) = front ++ [b, a] := by
  have hfront : (front ++ [a, b]).length - 2 = front.length := by simp
  rw [lastSwapped, hfront, List.take_left, List.drop_left]
  rfl

theorem exists_last_two (h : 2 ≤ text.length) : ∃ front a b, text = front ++ [a, b] := by
  have hlast : (text.drop (text.length - 2)).length = 2 := by
    rw [List.length_drop]
    omega
  obtain ⟨a, b, hab⟩ := List.length_eq_two.1 hlast
  refine ⟨text.take (text.length - 2), a, b, ?_⟩
  rw [← hab, List.take_append_drop]

theorem length_lastSwapped (text : List Char) : (lastSwapped text).length = text.length := by
  rw [lastSwapped, List.length_append, List.length_reverse, ← List.length_append,
    List.take_append_drop]

theorem lastSwapped_lastSwapped (h : 2 ≤ text.length) : lastSwapped (lastSwapped text) = text := by
  obtain ⟨front, a, b, rfl⟩ := exists_last_two h
  rw [lastSwapped_append, lastSwapped_append]

/-! ## Swapping characters -/

/-- Where the cursor is moved before a swap, the characters around that place are swapped. -/
theorem transposeChars_of_place (htext : line.text = front ++ a :: b :: back)
    (hplace : (if line.cursor = 0 then 1 else if line.atEnd then line.cursor - 1
      else line.cursor) = front.length + 1) :
    line.transposeChars =
      { line with text := front ++ b :: a :: back, cursor := front.length + 2 } := by
  have hfirst : offset line.length (front.length + 1 - 1 : Int) = front.length := by
    rw [Int.add_sub_cancel, offset_natCast, length, htext, List.length_append]
    exact Nat.min_eq_left (Nat.le_add_right _ _)
  have hnext : (front.length + 1 + 1 : Int) = front.length + 2 := by omega
  unfold transposeChars
  simp only [hplace, hfirst, hnext]
  rw [htext, List.drop_left, List.take_left]

theorem transposeChars_of_pieces (htext : line.text = front ++ a :: b :: back)
    (hcursor : line.cursor = front.length + 1) :
    line.transposeChars =
      { line with text := front ++ b :: a :: back, cursor := front.length + 2 } := by
  refine transposeChars_of_place htext ?_
  have hend : ¬ line.atEnd = true := by
    simp [atEnd, length, htext, hcursor]
    omega
  rw [if_neg (by omega), if_neg hend, hcursor]

/-- At the end of the line the cursor stays. -/
theorem transposeChars_at_end (h : 2 ≤ line.length) (hcursor : line.cursor = line.length) :
    line.transposeChars = { line with text := lastSwapped line.text } := by
  obtain ⟨front, a, b, htext⟩ := exists_last_two h
  have hlength : line.length = front.length + 2 := by
    rw [length, htext, List.length_append]
    rfl
  have hend : line.atEnd = true := decide_eq_true hcursor
  have hplace : line.cursor = front.length + 2 := by omega
  have hbefore : (if line.cursor = 0 then 1 else if line.atEnd then line.cursor - 1
      else line.cursor) = front.length + 1 := by
    rw [if_neg (by omega), if_pos hend]
    omega
  rw [transposeChars_of_place htext hbefore, ← hplace, htext, lastSwapped_append]

/-- At the start of the line the cursor first moves past a character. -/
theorem transposeChars_at_start (hcursor : line.cursor = 0) (h : 2 ≤ line.length) :
    line.transposeChars = ({ line with cursor := 1 } : Line).transposeChars := by
  obtain ⟨a, b, back, htext⟩ : ∃ a b back, line.text = [] ++ a :: b :: back := by
    match htext : line.text with
    | [] | [_] => simp [length, htext] at h
    | a :: b :: back => exact ⟨a, b, back, rfl⟩
  have hmoved : ({ line with cursor := 1 } : Line).text = [] ++ a :: b :: back := htext
  rw [transposeChars_of_place htext (if_pos hcursor), transposeChars_of_pieces hmoved rfl]

/-! ## Rounds of swaps -/

/-- Rounds of swaps carry the character before the cursor on. -/
theorem transposeChars_iterate (htext : line.text = front ++ a :: (passed ++ back))
    (hcursor : line.cursor = front.length + 1) :
    transposeChars^[passed.length] line =
      { line with
        text := front ++ (passed ++ a :: back)
        cursor := front.length + 1 + passed.length } := by
  induction passed generalizing line front with
  | nil =>
    show line = { line with text := front ++ a :: back, cursor := front.length + 1 + 0 }
    rw [Int.add_zero, ← hcursor]
    exact congrArg (fun text => { line with text := text }) htext
  | cons b passed ih =>
    -- The first character that is passed now stands before the one carried on: it joins the front.
    let next : Line :=
      { line with text := front ++ b :: a :: (passed ++ back), cursor := front.length + 2 }
    have hstep : line.transposeChars = next := transposeChars_of_pieces htext hcursor
    have hfront : ((front ++ [b]).length : Int) = front.length + 1 := by simp
    have hnext : next.text = (front ++ [b]) ++ a :: (passed ++ back) := by simp [next]
    have hplace : next.cursor = (front ++ [b]).length + 1 := by
      rw [hfront]
      show (front.length + 2 : Int) = _
      omega
    have hlast : (front.length + 1 + 1 + passed.length : Int) =
        front.length + 1 + (passed.length + 1 : Nat) := by omega
    rw [List.length_cons, Function.iterate_succ_apply, hstep, ih hnext hplace, hfront, hlast,
      List.append_assoc]
    rfl

/-- Rounds at the end swap the last two characters, and swap them back. -/
theorem transposeChars_iterate_at_end (h : 2 ≤ line.length) (hcursor : line.cursor = line.length)
    (n : Nat) :
    transposeChars^[n] line =
      { line with text := if Odd n then lastSwapped line.text else line.text } := by
  induction n with
  | zero =>
    rw [if_neg Nat.not_odd_zero]
    rfl
  | succ n ih =>
    rw [Function.iterate_succ_apply', ih]
    by_cases hn : Odd n
    · let swapped : Line := { line with text := lastSwapped line.text }
      have hlength : swapped.length = line.length := length_lastSwapped line.text
      have hswapped : swapped.cursor = swapped.length := by rwa [hlength]
      rw [if_pos hn, if_neg (Nat.odd_add_one.not.2 (not_not.2 hn))]
      show swapped.transposeChars = line
      rw [transposeChars_at_end (hlength ▸ h) hswapped, lastSwapped_lastSwapped h]
    · rw [if_neg hn, if_pos (Nat.odd_add_one.2 hn)]
      exact transposeChars_at_end h hcursor

variable {c : Nat}

/-- From a place behind the start, `n` rounds carry a character over `n` others if there are so
many. -/
theorem transposeChars_iterate_of_le (hcursor : line.cursor = c) (hc : 1 ≤ c)
    (hn : c + n ≤ line.length) :
    transposeChars^[n] line =
      { line with text := carried (c - 1) n line.text, cursor := (c + n : Nat) } := by
  have hlt : c - 1 + n < line.text.length := by
    show c - 1 + n < line.length
    omega
  obtain ⟨front, a, passed, back, htext, hfront, rfl⟩ := exists_pieces_of_lt hlt
  have hplace : line.cursor = front.length + 1 := by omega
  have hlast : (front.length + 1 + passed.length : Int) = (c + passed.length : Nat) := by omega
  rw [transposeChars_iterate htext hplace, hlast, ← hfront, htext, carried_of_pieces]

/-- If there are fewer, the last two characters change places in every further round. -/
theorem transposeChars_iterate_of_lt (hcursor : line.cursor = c) (hc : 1 ≤ c)
    (hle : c ≤ line.length) (h : 2 ≤ line.length) (hn : line.length - c < n) :
    transposeChars^[n] line =
      { line with
        text := if Odd (n - (line.length - c))
          then lastSwapped (carried (c - 1) (line.length - c) line.text)
          else carried (c - 1) (line.length - c) line.text
        cursor := line.length } := by
  -- The rounds that carry come first; those that are left all take place at the end.
  let reached : Line :=
    { line with text := carried (c - 1) (line.length - c) line.text, cursor := line.length }
  have hreached : transposeChars^[line.length - c] line = reached := by
    rw [transposeChars_iterate_of_le hcursor hc (by omega), Nat.add_sub_cancel' hle]
  have hlength : reached.length = line.length :=
    length_carried (show c - 1 + (line.length - c) < line.length by omega)
  have hend : reached.cursor = reached.length := by rw [hlength]
  obtain ⟨more, rfl⟩ : ∃ more, n = more + (line.length - c) := ⟨n - (line.length - c), by omega⟩
  rw [Nat.add_sub_cancel, Function.iterate_add_apply, hreached,
    transposeChars_iterate_at_end (hlength ▸ h) hend]

/-- Rounds from the start of the line are rounds from the place after its first character. -/
theorem transposeChars_iterate_max (hcursor : line.cursor = c) (h : 2 ≤ line.length) (hn : 1 ≤ n) :
    transposeChars^[n] line =
      transposeChars^[n] { line with cursor := (max c 1 : Nat) } := by
  obtain ⟨rounds, rfl⟩ : ∃ rounds, n = rounds + 1 := ⟨n - 1, by omega⟩
  rw [Function.iterate_succ_apply, Function.iterate_succ_apply]
  rcases Nat.eq_zero_or_pos c with rfl | hc
  · rw [transposeChars_at_start hcursor h]
    rfl
  · rw [Nat.max_eq_left hc, ← hcursor]

/-! ## Turning the line -/

/-- Where the whole line stands before the cursor or at it, it is turned by its last character. -/
theorem transpose_of_le (h : line.length ≤ line.cursor + 1) :
    line.transpose = { line with text := line.text.rotate (line.length - 1) } := by
  have hcount : offset line.length (line.cursor + 1) = line.length := by
    unfold offset
    split <;> omega
  unfold transpose
  simp only [hcount]
  rw [length, List.take_length, List.drop_length, List.nil_append]
  rcases List.eq_nil_or_concat line.text with hnil | ⟨front, c, hconcat⟩
  · rw [hnil]
    rfl
  · rw [hconcat, List.concat_eq_append, List.getLast?_concat, List.dropLast_concat,
      List.length_append, List.length_singleton, Nat.add_sub_cancel, List.rotate_append_length_eq]
    rfl

theorem transpose_iterate_of_le (h : line.length ≤ line.cursor + 1) (n : Nat) :
    transpose^[n] line = { line with text := line.text.rotate (n * (line.length - 1)) } := by
  induction n with
  | zero =>
    rw [Nat.zero_mul, List.rotate_zero]
    rfl
  | succ n ih =>
    let turned : Line := { line with text := line.text.rotate (n * (line.length - 1)) }
    have hlength : turned.length = line.length := List.length_rotate _ _
    have hturned : turned.length ≤ turned.cursor + 1 := by rwa [hlength]
    rw [Function.iterate_succ_apply', ih]
    show turned.transpose = _
    rw [transpose_of_le hturned, hlength, List.rotate_rotate, Nat.succ_mul]

/-- As many turns as the line has characters bring it back. -/
theorem transpose_iterate_length (h : line.length ≤ line.cursor + 1) :
    transpose^[line.length] line = line := by
  rw [transpose_iterate_of_le h, length, List.rotate_length_mul]

end LineEditor.Line
