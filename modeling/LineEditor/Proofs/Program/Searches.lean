import LineEditor.Proofs.Line.Searching
import LineEditor.Proofs.Line.WordSpans
import LineEditor.Proofs.Program.InBounds
import Mathlib.Data.List.GetD
import Mathlib.Data.List.Induction

/-!
# Repeated searches

A search that succeeds makes the line not done, one that fails makes it done, and neither changes
anything but the cursor. Searching behind again and again walks back over the places of the
character, one at a time, and stays at the first of them when there are no more. A search ahead
finds the character at the cursor, so repeating it does not go on.
-/

namespace LineEditor

variable {stop : Bool} {line : Line} {c : Char} {front piece back : List Char} {k : Nat}

/-! ## One search -/

theorem Edit.run_find_of_piece (htext : line.text = front ++ (piece ++ c :: back))
    (hcursor : line.cursor = front.length) (hpiece : c ∉ piece) :
    (Edit.find [c]).run line =
      { line with cursor := line.cursor + piece.length, done := false } := by
  show { line.find [c] with done := (line.findAhead? [c]).isNone } = _
  rw [Line.find, Line.moveTo, Line.findAhead?_of_piece htext hcursor hpiece]
  rfl

theorem Edit.run_find_of_notMem (htext : line.text = front ++ back)
    (hcursor : line.cursor = front.length) (hback : c ∉ back) :
    (Edit.find [c]).run line = { line with done := true } := by
  show { line.find [c] with done := (line.findAhead? [c]).isNone } = _
  rw [Line.find, Line.moveTo, Line.findAhead?_of_notMem htext hcursor hback]
  rfl

theorem Edit.run_findBack_of_piece
    (hbehind : line.text.take line.cursor.toNat = front ++ c :: piece) (hpiece : c ∉ piece) :
    (Edit.findBack [c]).run line = { line with cursor := front.length, done := false } := by
  show { line.findBack [c] with done := (line.findBehind? [c]).isNone } = _
  rw [Line.findBack, Line.moveTo, Line.findBehind?_of_piece hbehind hpiece]
  rfl

theorem Edit.run_findBack_of_notMem (h : c ∉ line.text.take line.cursor.toNat) :
    (Edit.findBack [c]).run line = { line with done := true } := by
  show { line.findBack [c] with done := (line.findBehind? [c]).isNone } = _
  rw [Line.findBack, Line.moveTo, Line.findBehind?_of_notMem h]
  rfl

/-! ## Behind -/

/-- The places of a character before the cursor, in order. -/
def Line.placesBehind (c : Char) (line : Line) : List Nat :=
  (line.text.take line.cursor.toNat).idxsOf c

theorem idxsOf_eq_nil_iff {text : List Char} {start : Nat} :
    text.idxsOf c start = [] ↔ c ∉ text := by
  rw [List.idxsOf_eq_nil_iff]
  constructor
  · intro hnone hc
    have hne := hnone c hc
    rw [beq_self_eq_true] at hne
    cases hne
  · intro hc d hd
    rw [beq_eq_false_iff_ne]
    rintro rfl
    exact hc hd

theorem Edit.run_findBack_of_nil (hplaces : line.placesBehind c = []) :
    (Edit.findBack [c]).run line = { line with done := true } :=
  run_findBack_of_notMem (idxsOf_eq_nil_iff.1 hplaces)

/-- A search behind comes to the last place, and behind that are the others. -/
theorem Edit.run_findBack_of_concat {places : List Nat} {place : Nat}
    (hplaces : line.placesBehind c = places ++ [place]) :
    (Edit.findBack [c]).run line = { line with cursor := place, done := false } ∧
      (line.text.take place).idxsOf c = places := by
  have hc : c ∈ line.text.take line.cursor.toNat := by
    by_contra hnot
    have hnil : line.placesBehind c = [] := idxsOf_eq_nil_iff.2 hnot
    rw [hnil] at hplaces
    simp at hplaces
  obtain ⟨front, piece, hbehind, hpiece⟩ := eq_append_cons_of_mem_last hc
  have hlast : line.placesBehind c = front.idxsOf c ++ [front.length] := by
    rw [Line.placesBehind, hbehind, List.idxsOf_append, List.idxsOf_cons,
      if_pos (beq_self_eq_true c), Nat.zero_add, idxsOf_eq_nil_iff.2 hpiece]
  obtain ⟨hfront, rfl⟩ := List.append_singleton_inj.1 (hplaces.symm.trans hlast)
  refine ⟨run_findBack_of_piece hbehind hpiece, ?_⟩
  have htake := congrArg (List.take front.length) hbehind
  have hlength := congrArg List.length hbehind
  rw [List.length_take, List.length_append, List.length_cons] at hlength
  rw [List.take_take, Nat.min_eq_left (by omega), List.take_left] at htake
  rw [htake, hfront]

/-- Failing again leaves the line as it is. -/
theorem runTimes_findBack_of_nil (h : line.InBounds) (hgo : ¬ (stop && line.done) = true)
    (hnil : line.placesBehind c = []) (k : Nat) :
    runTimes stop (Edit.findBack [c]).attempt (k + 1) line = .ran { line with done := true } := by
  induction k generalizing line with
  | zero =>
    rw [runTimes_succ hgo, (Edit.attempt_inBounds h _).1, Edit.run_findBack_of_nil hnil]
    rfl
  | succ k ih =>
    rw [runTimes_succ hgo, (Edit.attempt_inBounds h _).1, Edit.run_findBack_of_nil hnil,
      ran_andThen]
    cases stop with
    | true => exact runTimes_of_done rfl _ _
    | false => exact ih (h.withDone true) (by simp) hnil

/-- So many searches behind come to the place so many places from the last one; if there are fewer,
to the first one, and the line is done. -/
theorem runTimes_findBack {places : List Nat} (h : line.InBounds)
    (hgo : ¬ (stop && line.done) = true) (hplaces : line.placesBehind c = places) (k : Nat) :
    runTimes stop (Edit.findBack [c]).attempt (k + 1) line = .ran { line with
      cursor := places.getD (places.length - (k + 1)) line.cursor.toNat
      done := decide (places.length < k + 1) } := by
  -- The searches go through the places from the last one, and so does the induction.
  induction places using List.reverseRecOn generalizing line k with
  | nil =>
    rw [runTimes_findBack_of_nil h hgo hplaces]
    simp [Int.toNat_of_nonneg h.cursor_nonneg]
  | append_singleton places place ih =>
    obtain ⟨hrun, hleft⟩ := Edit.run_findBack_of_concat hplaces
    have hnext : ({ line with cursor := place, done := false } : Line).InBounds :=
      hrun ▸ (Edit.findBack [c]).run_inBounds h
    rw [runTimes_succ hgo, (Edit.attempt_inBounds h _).1, hrun, ran_andThen]
    cases k with
    | zero => simp [runTimes]
    | succ k =>
      have hget : places.getD (places.length - (k + 1)) place =
          (places ++ [place]).getD (places.length - (k + 1)) line.cursor.toNat := by
        cases places with
        | nil => simp
        | cons first rest =>
          have hlt : (first :: rest).length - (k + 1) < (first :: rest).length := by
            rw [List.length_cons]
            omega
          rw [List.getD_append _ _ _ _ hlt, List.getD_eq_getElem _ _ hlt,
            List.getD_eq_getElem _ _ hlt]
      rw [ih hnext (by simp) hleft k, List.length_append, List.length_singleton,
        Nat.add_sub_add_right, ← hget]
      simp only [Nat.add_lt_add_iff_right, Int.toNat_natCast]

/-! ## Ahead -/

/-- A search for the character at the cursor stays there. -/
theorem Edit.run_find_of_at (htext : line.text = front ++ c :: back)
    (hcursor : line.cursor = front.length) (hdone : line.done = false) :
    (Edit.find [c]).run line = line := by
  have hpieces : line.text = front ++ ([] ++ c :: back) := htext
  rw [run_find_of_piece hpieces hcursor List.not_mem_nil]
  obtain ⟨text, cursor, mark, clips, done⟩ := line
  dsimp only at hdone
  rw [hdone, List.length_nil, Int.natCast_zero, Int.add_zero]

/-- A search ahead comes to the first place of the character, or fails where there is none. -/
theorem Edit.run_find_cases (h : line.InBounds) (c : Char) :
    (∃ front piece back, line.text = front ++ (piece ++ c :: back) ∧ line.cursor = front.length ∧
        c ∉ piece ∧ (Edit.find [c]).run line =
          { line with cursor := (front ++ piece).length, done := false }) ∨
      c ∉ line.text.drop line.cursor.toNat ∧
        (Edit.find [c]).run line = { line with done := true } := by
  have hcursor := h.cursor_eq_length_take
  have htext : line.text = line.text.take line.cursor.toNat ++ line.text.drop line.cursor.toNat :=
    (List.take_append_drop _ _).symm
  by_cases hc : c ∈ line.text.drop line.cursor.toNat
  · obtain ⟨piece, back, hahead, hpiece⟩ := List.eq_append_cons_of_mem hc
    rw [hahead] at htext
    refine Or.inl ⟨_, piece, back, htext, hcursor, hpiece, ?_⟩
    rw [run_find_of_piece htext hcursor hpiece, List.length_append, Int.natCast_add, ← hcursor]
  · exact Or.inr ⟨hc, run_find_of_notMem htext hcursor hc⟩

theorem Edit.run_find_run_find (h : line.InBounds) (c : Char) :
    (Edit.find [c]).run ((Edit.find [c]).run line) = (Edit.find [c]).run line := by
  rcases run_find_cases h c with ⟨front, piece, back, htext, -, -, hrun⟩ | ⟨hc, hrun⟩
  · rw [hrun]
    exact run_find_of_at (htext.trans (List.append_assoc front piece _).symm) rfl rfl
  · rw [hrun]
    have htext : ({ line with done := true } : Line).text =
        line.text.take line.cursor.toNat ++ line.text.drop line.cursor.toNat :=
      (List.take_append_drop _ _).symm
    exact run_find_of_notMem htext h.cursor_eq_length_take hc

/-- Repeating a search ahead does no more than one search. -/
theorem runTimes_find (h : line.InBounds) (hgo : ¬ (stop && line.done) = true) (k : Nat) :
    runTimes stop (Edit.find [c]).attempt (k + 1) line = .ran ((Edit.find [c]).run line) := by
  induction k generalizing line with
  | zero =>
    rw [runTimes_succ hgo, (Edit.attempt_inBounds h _).1]
    rfl
  | succ k ih =>
    rw [runTimes_succ hgo, (Edit.attempt_inBounds h _).1, ran_andThen]
    by_cases hstop : (stop && ((Edit.find [c]).run line).done) = true
    · exact runTimes_of_done hstop _ _
    · rw [ih ((Edit.find [c]).run_inBounds h) hstop, Edit.run_find_run_find h]

/-- After a search behind that has succeeded the character is at the cursor. -/
theorem Edit.run_find_run_findBack (line : Line)
    (hdone : ((Edit.findBack [c]).run line).done = false) :
    (Edit.find [c]).run ((Edit.findBack [c]).run line) = (Edit.findBack [c]).run line := by
  by_cases hc : c ∈ line.text.take line.cursor.toNat
  · obtain ⟨front, piece, hbehind, hpiece⟩ := eq_append_cons_of_mem_last hc
    have htext : line.text = front ++ c :: (piece ++ line.text.drop line.cursor.toNat) := by
      rw [← List.cons_append, ← List.append_assoc, ← hbehind, List.take_append_drop]
    rw [run_findBack_of_piece hbehind hpiece]
    exact run_find_of_at htext rfl rfl
  · rw [run_findBack_of_notMem hc] at hdone
    cases hdone

/-- A character that a piece of a text does not have stands at none of its places. -/
theorem getElem?_ne_of_piece {text : List Char} (htext : text = front ++ (piece ++ back))
    (hpiece : c ∉ piece) {q : Nat} (hle : front.length ≤ q)
    (hlt : q < front.length + piece.length) : text[q]? ≠ some c := by
  intro hget
  obtain ⟨d, hd, hat⟩ := exists_mem_piece (p := q) htext (by omega) (by omega)
  rw [Int.toNat_natCast, hget] at hat
  exact hpiece (Option.some.inj hat ▸ hd)

/-- What a search ahead does, told by the places of the text. -/
theorem Edit.run_find_places (h : line.InBounds) (c : Char) :
    (∃ p : Nat, line.cursor ≤ p ∧ line.text[p]? = some c ∧
        (∀ q : Nat, line.cursor ≤ q → q < p → line.text[q]? ≠ some c) ∧
        (Edit.find [c]).run line = { line with cursor := p, done := false }) ∨
      (∀ p : Nat, line.cursor ≤ p → line.text[p]? ≠ some c) ∧
        (Edit.find [c]).run line = { line with done := true } := by
  rcases run_find_cases h c with ⟨front, piece, back, htext, hcursor, hpiece, hrun⟩ | ⟨hc, hrun⟩
  · have hlength : (front ++ piece).length = front.length + piece.length := List.length_append
    refine Or.inl ⟨(front ++ piece).length, by omega, ?_, fun q hle hlt => ?_, hrun⟩
    · rw [htext, ← List.append_assoc, List.getElem?_append_right (Nat.le_refl _), Nat.sub_self,
        List.getElem?_cons_zero]
    · exact getElem?_ne_of_piece htext hpiece (by omega) (by omega)
  · refine Or.inr ⟨fun p hle hget => hc ?_, hrun⟩
    have hplace : line.cursor.toNat + (p - line.cursor.toNat) = p := by omega
    apply List.mem_of_getElem? (i := p - line.cursor.toNat)
    rw [List.getElem?_drop, hplace, hget]

/-! ## Repeating a search -/

/-- Searching behind `k` times comes to the `k`-th last place of the character before the cursor, if
there are so many places; otherwise it ends at the first of them, or where it was if there is none,
with the line done. Searching ahead `k` times does what one search does: it comes to the first place
at the cursor or after it, or fails. Only the cursor changes, and whether the line is done. A search
ahead stays where a search behind has found the character. -/
theorem repeated_searches_walk_places (h : line.InBounds) (hdone : line.done = false) (stop : Bool)
    (c : Char) (hk : 1 ≤ k) :
    let places := line.placesBehind c
    let behind := Command.run stop (.times k (.edit (.findBack [c]))) line
    let ahead := Command.run stop (.times k (.edit (.find [c]))) line
    (∀ hle : k ≤ places.length,
      behind = .ran { line with cursor := places[places.length - k], done := false }) ∧
    (places.length < k →
      behind = .ran { line with cursor := places.headD line.cursor.toNat, done := true }) ∧
    ahead = Command.run stop (.edit (.find [c])) line ∧
    ((∃ p : Nat, line.cursor ≤ p ∧ line.text[p]? = some c ∧
        (∀ q : Nat, line.cursor ≤ q → q < p → line.text[q]? ≠ some c) ∧
        ahead = .ran { line with cursor := p, done := false }) ∨
      (∀ p : Nat, line.cursor ≤ p → line.text[p]? ≠ some c) ∧
        ahead = .ran { line with done := true }) ∧
    ∀ reached, Command.run stop (.edit (.findBack [c])) line = .ran reached →
      reached.done = false → Command.run stop (.edit (.find [c])) reached = .ran reached := by
  intro places behind ahead
  obtain ⟨n, rfl⟩ : ∃ n, k = n + 1 := ⟨k - 1, by omega⟩
  have hgo : ¬ (stop && line.done) = true := by simp [hdone]
  have hbehind : behind = _ := (run_times_edit _ _ line).trans (runTimes_findBack h hgo rfl n)
  have hahead : ahead = .ran ((Edit.find [c]).run line) :=
    (run_times_edit _ _ line).trans (runTimes_find h hgo n)
  refine ⟨fun hle => ?_, fun hlt => ?_, hahead.trans (run_edit h _).symm, ?_, ?_⟩
  · have hindex : places.length - (n + 1) < places.length := by omega
    rw [hbehind, List.getD_eq_getElem _ _ hindex, decide_eq_false (Nat.not_lt.2 hle)]
  · have hindex : places.length - (n + 1) = 0 := by omega
    rw [hbehind, hindex, decide_eq_true hlt, List.headD_eq_getD]
  · rw [hahead]
    rcases Edit.run_find_places h c with ⟨p, hle, hat, hfirst, hrun⟩ | ⟨hnone, hrun⟩
    · exact Or.inl ⟨p, hle, hat, hfirst, congrArg Outcome.ran hrun⟩
    · exact Or.inr ⟨hnone, congrArg Outcome.ran hrun⟩
  · intro reached hreached hfound
    obtain rfl : (Edit.findBack [c]).run line = reached :=
      Outcome.ran.inj ((run_edit h _).symm.trans hreached)
    rw [run_edit ((Edit.findBack [c]).run_inBounds h), Edit.run_find_run_findBack line hfound]

/-- From the last of three places: the search behind leaves that one out, the search ahead does
not. -/
theorem repeated_searches_walk_places_between :
    let line : Line := { text := "ab,ac,ad".toList, cursor := 6, mark := some 9 }
    line.InBounds ∧ line.done = false ∧ line.placesBehind 'a' = [0, 3] ∧ 1 ≤ 2 ∧ 1 ≤ 5 ∧
      Command.run false (.times (2 : Nat) (.edit (.findBack ['a']))) line =
        .ran { line with cursor := 0, done := false } ∧
      Command.run false (.times (5 : Nat) (.edit (.findBack ['a']))) line =
        .ran { line with cursor := 0, done := true } ∧
      Command.run true (.times (5 : Nat) (.edit (.find ['a']))) line =
        Command.run true (.edit (.find ['a'])) line := by
  intro line
  have h : line.InBounds := ⟨by decide, by decide, by simp [line]⟩
  have hplaces : line.placesBehind 'a' = [0, 3] := by decide
  obtain ⟨htwice, -⟩ := repeated_searches_walk_places h rfl false 'a' (k := 2) (by decide)
  obtain ⟨-, hmore, -⟩ := repeated_searches_walk_places h rfl false 'a' (k := 5) (by decide)
  obtain ⟨-, -, hahead, -⟩ := repeated_searches_walk_places h rfl true 'a' (k := 5) (by decide)
  exact ⟨h, rfl, hplaces, by decide, by decide, htwice (by decide), hmore (by decide), hahead⟩

end LineEditor
