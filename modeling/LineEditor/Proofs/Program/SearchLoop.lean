import LineEditor.Proofs.Line.Sides
import LineEditor.Proofs.Program.Searches

/-!
# Searching and inserting in a loop

A repeated block that searches for a character, inserts a text before it and passes over it, on a
run that stops when the line is done: each round handles the next occurrence, and the first search
that fails ends the run in the middle of a round. What is inserted stays behind the cursor, so it is
not searched, even if it has the character itself.
-/

namespace LineEditor

/-- A text with another text in the place of each occurrence of a character. -/
def Text.replaceEach (c : Char) (new text : List Char) : List Char :=
  text.flatMap fun d => if d = c then new else [d]

/-- Searching for a character, inserting a text before it, and passing over it. -/
def Command.insertingBefore (c : Char) (s : List Char) : List Command :=
  [.edit (.find [c]), .edit (.insert s), .edit (.plain .forward)]

variable {line : Line} {c : Char} {s front piece back : List Char}

namespace Text

theorem replaceEach_of_notMem {text : List Char} (h : c ∉ text) (new : List Char) :
    replaceEach c new text = text := by
  induction text with
  | nil => rfl
  | cons d text ih =>
    have hd : d ≠ c := (List.ne_of_not_mem_cons h).symm
    rw [replaceEach, List.flatMap_cons, if_neg hd, List.singleton_append]
    exact congrArg (d :: ·) (ih (List.not_mem_of_not_mem_cons h))

theorem replaceEach_piece (h : c ∉ piece) (new back : List Char) :
    replaceEach c new (piece ++ c :: back) = piece ++ (new ++ replaceEach c new back) := by
  have hpiece := replaceEach_of_notMem h new
  unfold replaceEach at hpiece ⊢
  rw [List.flatMap_append, List.flatMap_cons, if_pos rfl, hpiece]

theorem replaceEach_pieces {pieces : List (List Char)} (h : ∀ piece ∈ pieces, c ∉ piece)
    (new rest : List Char) :
    replaceEach c new (pieces.flatMap (· ++ [c]) ++ rest) =
      pieces.flatMap (· ++ new) ++ replaceEach c new rest := by
  induction pieces with
  | nil => rfl
  | cons piece pieces ih =>
    obtain ⟨hpiece, hpieces⟩ := List.forall_mem_cons.1 h
    rw [List.flatMap_cons, List.flatMap_cons, List.append_assoc, List.append_assoc,
      List.singleton_append, replaceEach_piece hpiece, ih hpieces, List.append_assoc,
      List.append_assoc]

end Text

/-! ## One round -/

theorem Line.InBounds.of_pieces (h : line.InBounds) (front back : List Char) :
    Line.InBounds { line with text := front ++ back, cursor := front.length } := by
  refine ⟨Int.natCast_nonneg _, ?_, h.mark_nonneg⟩
  show (front.length : Int) ≤ (front ++ back).length
  rw [List.length_append]
  omega

/-- If the character stands ahead, a round puts the text before the first place of it and goes past
it. -/
theorem runAll_insertingBefore_of_piece (h : line.InBounds) (hdone : line.done = false)
    (htext : line.text = front ++ (piece ++ c :: back)) (hcursor : line.cursor = front.length)
    (hpiece : c ∉ piece) (s : List Char) :
    Command.runAll true (Command.insertingBefore c s) line =
      .ran { line with
        text := (front ++ (piece ++ (s ++ [c]))) ++ back
        cursor := (front ++ (piece ++ (s ++ [c]))).length } := by
  have hgo : ¬ (true && line.done) = true := by simp [hdone]
  let found : Line := { line with cursor := line.cursor + piece.length, done := false }
  have hfind : (Edit.find [c]).run line = found := Edit.run_find_of_piece htext hcursor hpiece
  have hfound : found.InBounds := hfind ▸ (Edit.find [c]).run_inBounds h
  have hat : found.cursor = (front ++ piece).length := by
    show line.cursor + piece.length = _
    rw [hcursor, List.length_append, Int.natCast_add]
  have hfoundText : found.text = (front ++ piece) ++ c :: back :=
    htext.trans (List.append_assoc ..).symm
  have hinsert := Line.insert_of_pieces hfoundText hat s
  have hinserted : (found.insert s).InBounds := (Edit.insert s).run_inBounds hfound
  have hinsertedText : (found.insert s).text = (front ++ piece ++ s) ++ c :: back := by
    rw [hinsert, List.append_assoc _ s]
  have hforward := Line.forward_of_pieces hinsertedText (by rw [hinsert])
  rw [Command.insertingBefore, runAll_edit_cons h hgo, hfind,
    runAll_edit_cons hfound (by simp [found])]
  show Command.runAll true [.edit (.plain .forward)] (found.insert s) = _
  rw [runAll_edit_cons hinserted (by simp [hinsert, found]), runAll_nil]
  show Outcome.ran (found.insert s).forward = _
  rw [hforward, hinsert]
  simp only [found, hdone, List.append_assoc, List.singleton_append]

/-- If it does not, the search fails, and the round ends there. -/
theorem runAll_insertingBefore_of_notMem (h : line.InBounds) (hdone : line.done = false)
    (htext : line.text = front ++ back) (hcursor : line.cursor = front.length) (hback : c ∉ back)
    (s : List Char) :
    Command.runAll true (Command.insertingBefore c s) line = .ran { line with done := true } := by
  have hgo : ¬ (true && line.done) = true := by simp [hdone]
  rw [Command.insertingBefore, runAll_edit_cons h hgo,
    Edit.run_find_of_notMem htext hcursor hback, runAll_of_done rfl]

/-! ## The loop -/

theorem count_piece (hpiece : c ∉ piece) (back : List Char) :
    (piece ++ c :: back).count c = back.count c + 1 := by
  rw [List.count_append, List.count_eq_zero.2 hpiece, List.count_cons_self, Nat.zero_add]

theorem count_pieces {pieces : List (List Char)} (h : ∀ piece ∈ pieces, c ∉ piece)
    (rest : List Char) :
    (pieces.flatMap (· ++ [c]) ++ rest).count c = pieces.length + rest.count c := by
  induction pieces with
  | nil => exact (Nat.zero_add _).symm
  | cons piece pieces ih =>
    obtain ⟨hpiece, hpieces⟩ := List.forall_mem_cons.1 h
    rw [List.flatMap_cons, List.append_assoc, List.append_assoc, List.singleton_append,
      count_piece hpiece, ih hpieces, List.length_cons]
    omega

/-- With a piece for each place, no place is left over. -/
theorem replaceEach_of_pieces {text : List Char} {pieces : List (List Char)} {rest : List Char}
    (htext : text = pieces.flatMap (· ++ [c]) ++ rest) (hpieces : ∀ piece ∈ pieces, c ∉ piece)
    (hlength : pieces.length = text.count c) (new : List Char) :
    Text.replaceEach c new text = pieces.flatMap (· ++ new) ++ rest := by
  have hcount : text.count c = pieces.length + rest.count c := by
    rw [htext, count_pieces hpieces]
  have hrest : c ∉ rest := by
    rw [← List.count_eq_zero]
    omega
  rw [htext, Text.replaceEach_pieces hpieces, Text.replaceEach_of_notMem hrest]

/-- The loop cuts what is ahead at the first places of the character, one for each round that finds
one, and ends each piece with the text and the character. -/
theorem runTimes_insertingBefore (h : line.InBounds) (hdone : line.done = false)
    (htext : line.text = front ++ back) (hcursor : line.cursor = front.length) (c : Char)
    (s : List Char) (n : Nat) :
    ∃ (pieces : List (List Char)) (rest : List Char),
      back = pieces.flatMap (· ++ [c]) ++ rest ∧ (∀ piece ∈ pieces, c ∉ piece) ∧
      pieces.length = min n (back.count c) ∧
      runTimes true (Command.runAll true (Command.insertingBefore c s)) n line =
        .ran { line with
          text := (front ++ pieces.flatMap (· ++ (s ++ [c]))) ++ rest
          cursor := (front ++ pieces.flatMap (· ++ (s ++ [c]))).length
          done := decide (back.count c < n) } := by
  induction n generalizing line front back with
  | zero =>
    refine ⟨[], back, rfl, List.forall_mem_nil _, (Nat.zero_min _).symm, ?_⟩
    obtain ⟨text, cursor, mark, clips, done⟩ := line
    dsimp only at htext hcursor hdone
    rw [runTimes, htext, hcursor, hdone]
    simp
  | succ n ih =>
    have hgo : ¬ (true && line.done) = true := by simp [hdone]
    rw [runTimes_succ hgo]
    by_cases hc : c ∈ back
    · obtain ⟨piece, after, rfl, hpiece⟩ := List.eq_append_cons_of_mem hc
      have hround := runAll_insertingBefore_of_piece h hdone htext hcursor hpiece s
      have hnext := h.of_pieces (front ++ (piece ++ (s ++ [c]))) after
      obtain ⟨pieces, rest, rfl, hpieces, hlength, hrun⟩ := ih hnext hdone rfl rfl
      refine ⟨piece :: pieces, rest, ?_, List.forall_mem_cons.2 ⟨hpiece, hpieces⟩, ?_, ?_⟩
      · simp
      · rw [List.length_cons, hlength, count_piece hpiece, Nat.add_min_add_right]
      · rw [hround, ran_andThen, hrun, count_piece hpiece]
        simp [List.append_assoc]
    · refine ⟨[], back, rfl, List.forall_mem_nil _, ?_, ?_⟩
      · rw [List.count_eq_zero.2 hc, Nat.min_zero, List.length_nil]
      · rw [runAll_insertingBefore_of_notMem h hdone htext hcursor hc, ran_andThen,
          runTimes_of_done rfl, List.count_eq_zero.2 hc, decide_eq_true (Nat.succ_pos n)]
        simp [htext, hcursor]

/-- Repeated `n` times, the block inserts the text before each of the first `n` places of the
character at the cursor or after it, or before all of them if there are fewer, and changes no other
part of the line. The cursor ends behind the last of these places, and the line is done if there are
fewer than `n`. -/
theorem search_loop_marks_each_occurrence (h : line.InBounds) (hdone : line.done = false) (c : Char)
    (s : List Char) (n : Nat) :
    let behind := line.text.take line.cursor.toNat
    let ahead := line.text.drop line.cursor.toNat
    ∃ (pieces : List (List Char)) (rest : List Char) (last : Line),
      ahead = pieces.flatMap (· ++ [c]) ++ rest ∧ (∀ piece ∈ pieces, c ∉ piece) ∧
      pieces.length = min n (ahead.count c) ∧
      Command.run true (.times n (.block (Command.insertingBefore c s))) line = .ran last ∧
      last.text = behind ++ (pieces.flatMap (· ++ (s ++ [c])) ++ rest) ∧
      last.cursor = line.cursor + (pieces.flatMap (· ++ (s ++ [c]))).length ∧
      (last.done = true ↔ ahead.count c < n) ∧
      last.mark = line.mark ∧ last.clips = line.clips ∧
      (line.cursor = 0 → line.text.count c ≤ n →
        last.text = Text.replaceEach c (s ++ [c]) line.text) := by
  intro behind ahead
  have hcursor : line.cursor = behind.length := h.cursor_eq_length_take
  obtain ⟨pieces, rest, hahead, hpieces, hlength, hrun⟩ := runTimes_insertingBefore h hdone
    (List.take_append_drop line.cursor.toNat line.text).symm hcursor c s n
  refine ⟨pieces, rest, _, hahead, hpieces, hlength, (run_times_block _ n line).trans hrun,
    List.append_assoc .., ?_, decide_eq_true_iff, rfl, rfl, fun hstart hall => ?_⟩
  · show ((behind ++ _).length : Int) = _
    rw [List.length_append, Int.natCast_add, ← hcursor]
  · have hbehind : behind = [] := by simp [behind, hstart]
    have htext : line.text = ahead := by simp [ahead, hstart]
    rw [htext] at hall
    rw [Nat.min_eq_right hall] at hlength
    show (behind ++ _) ++ rest = _
    rw [hbehind, htext, List.nil_append]
    exact (replaceEach_of_pieces hahead hpieces hlength (s ++ [c])).symm

/-- What is inserted may have the character itself, and the line may have a mark past its end. -/
theorem search_loop_marks_each_occurrence_inserted :
    let line : Line := { text := "a,b,c".toList, mark := some 9 }
    line.InBounds ∧ line.done = false ∧ line.cursor = 0 ∧ line.text.count ',' ≤ 3 ∧
      ∃ last, Command.run true (.times (3 : Nat)
          (.block (Command.insertingBefore ',' ",-".toList))) line = .ran last ∧
        last.text = "a,-,b,-,c".toList ∧ last.done = true := by
  intro line
  have h : line.InBounds := ⟨by decide, by decide, by simp [line]⟩
  obtain ⟨pieces, rest, last, -, -, -, hrun, -, -, hdone, -, -, hall⟩ :=
    search_loop_marks_each_occurrence h rfl ',' ",-".toList 3
  exact ⟨h, rfl, rfl, by decide, last, hrun, hall rfl (by decide), hdone.2 (by decide)⟩

end LineEditor
