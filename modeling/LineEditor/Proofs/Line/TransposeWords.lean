import LineEditor.Line.WordEdit
import LineEditor.Proofs.Line.Transposing
import LineEditor.Proofs.Line.WordRow
import Mathlib.Data.List.Basic

/-!
# Swapping two words

The words that are swapped are the last one that begins at the cursor or before it and the one after
it, or the last two if none follows; before the first word they are the first two. Only these two
change places: the gaps of the line and its other words stay, and the cursor comes to the end of the
second of them. A line with fewer than two words stays as it is.
-/

namespace LineEditor

/-- A list with two elements behind an index is cut there. -/
theorem exists_cut {α : Type} {l : List α} {i : Nat} (h : i + 1 < l.length) :
    ∃ before a b after, l = before ++ a :: b :: after ∧ before.length = i := by
  refine ⟨l.take i, l[i], l[i + 1], l.drop (i + 2), ?_, List.length_take_of_le (by omega)⟩
  rw [← List.drop_eq_getElem_cons h, ← List.drop_eq_getElem_cons (by omega), List.take_append_drop]

theorem getElem?_of_drop {α : Type} {l rest : List α} {i : Nat} {a b : α}
    (h : l.drop i = a :: b :: rest) : l[i]? = some a ∧ l[i + 1]? = some b := by
  have hfirst : (l.drop i)[0]? = l[i + 0]? := List.getElem?_drop
  have hsecond : (l.drop i)[1]? = l[i + 1]? := List.getElem?_drop
  rw [h] at hfirst hsecond
  exact ⟨hfirst.symm, hsecond.symm⟩

namespace Line

variable {line : Line} {front a between b back : List Char} {others : List Span}

/-- The index of the last word that begins at the cursor or before it, `0` if there is none. -/
def wordIndex (line : Line) : Nat :=
  ((line.wordBegun? line.cursor).map line.wordSpans.idxOf).getD 0

/-- The words are in order, so those that begin at the cursor or before it come first, and their
number tells the index of the last of them. -/
theorem countP_start_le_cursor (line : Line) :
    line.wordSpans.countP (fun s => s.start ≤ line.cursor) - 1 = line.wordIndex := by
  rw [wordIndex]
  cases hlast : line.wordBegun? line.cursor with
  | none =>
    have hnone := List.getLast?_eq_none_iff.1 hlast
    rw [List.countP_eq_length_filter, hnone]
    rfl
  | some s =>
    obtain ⟨hstart, before, after, hsplit, hbefore, hafter⟩ := split_of_wordBegun? hlast
    have hlt : ∀ t ∈ before ++ s :: after, t.start < t.stop := by
      intro t ht
      exact (mem_wordSpans_iff.1 (hsplit ▸ ht)).start_lt_stop
    have hearly : ∀ t ∈ before, decide (t.start ≤ line.cursor) = true := by
      intro t ht
      have hstop := hbefore t ht
      have hlt := hlt t (List.mem_append_left _ ht)
      rw [decide_eq_true_eq]
      omega
    have hnew : s ∉ before := by
      intro hs
      have hstop := hbefore s hs
      have hlt := hlt s (List.mem_append_left _ hs)
      omega
    have hcount : (s :: after).countP (fun s => s.start ≤ line.cursor) = 1 := by
      rw [List.countP_cons_of_pos (by simpa using hstart), List.countP_eq_zero.2]
      simpa using hafter
    rw [hsplit, List.countP_append, List.countP_eq_length.2 hearly, hcount, Option.map_some,
      Option.getD_some, List.idxOf_append_of_notMem hnew, List.idxOf_cons_self]
    omega

theorem transposeWords_of_few (h : line.wordSpans.length < 2) : line.transposeWords = line := by
  have hindex : ∀ n, min n (line.wordSpans.length - 2) = 0 := by omega
  unfold transposeWords
  extract_lets spans index
  have hdrop : spans.drop index = line.wordSpans := by
    rw [show index = 0 from hindex _]
    rfl
  rw [hdrop]
  rcases hspans : line.wordSpans with _ | ⟨first, _ | ⟨second, rest⟩⟩
  · rfl
  · rfl
  · rw [hspans, List.length_cons, List.length_cons] at h
    omega

/-- Two words that are swapped change places around what is between them. -/
theorem transposeWords_of_pieces (htext : line.text = front ++ (a ++ (between ++ (b ++ back))))
    (hdrop : line.wordSpans.drop (min line.wordIndex (line.wordSpans.length - 2)) =
      ⟨(front.length : Nat), (front.length + a.length : Nat)⟩ ::
        ⟨(front.length + a.length + between.length : Nat),
          (front.length + a.length + between.length + b.length : Nat)⟩ :: others) :
    line.transposeWords = { line with
      text := front ++ (b ++ (between ++ (a ++ back)))
      cursor := (front.length + a.length + between.length + b.length : Nat) } := by
  -- Each piece is preceded by those before it, so the text is bracketed anew for each of them.
  have hbetween : line.text = (front ++ a) ++ (between ++ (b ++ back)) := by simp [htext]
  have hsecond : line.text = (front ++ a ++ between) ++ (b ++ back) := by simp [htext]
  have hboth : line.text = front ++ ((a ++ between ++ b) ++ back) := by simp [htext]
  have hof : Span.of ⟨(front.length : Nat), (front.length + a.length : Nat)⟩ line.text = a :=
    Span.of_piece htext rfl (Int.natCast_add _ _)
  have hofbetween : Span.of ⟨(front.length + a.length : Nat),
      (front.length + a.length + between.length : Nat)⟩ line.text = between :=
    Span.of_piece hbetween (by simp only [List.length_append])
      (by simp only [List.length_append, Int.natCast_add])
  have hofsecond : Span.of ⟨(front.length + a.length + between.length : Nat),
      (front.length + a.length + between.length + b.length : Nat)⟩ line.text = b :=
    Span.of_piece hsecond (by simp only [List.length_append])
      (by simp only [List.length_append, Int.natCast_add])
  unfold transposeWords
  simp only [countP_start_le_cursor, hdrop, hof, hofbetween, hofsecond]
  rw [Span.replace_piece hboth rfl (by simp only [List.length_append]; omega)]
  simp only [List.append_assoc]

/-- With two words or more, two neighbours change places: the last word that begins at the cursor or
before it, or the first if there is none, and the word after it; if it is the last of all, the word
before it and that one. All other words and all gaps stay, and with them the text before the first
of the two and the text after the second. The cursor comes to the end of the second of the two as
they stand then. Otherwise nothing changes. -/
theorem transposeWords_exchanges_neighbours (line : Line) :
    (line.wordSpans.length < 2 → line.transposeWords = line) ∧
      (2 ≤ line.wordSpans.length →
        let i := min line.wordIndex (line.wordSpans.length - 2)
        let next := line.transposeWords
        (∃ before first second after, before.length = i ∧
          line.words = before ++ first :: second :: after ∧
          next.words = before ++ second :: first :: after) ∧
        next.gaps = line.gaps ∧ next.length = line.length ∧
        (∃ first second second', line.wordSpans[i]? = some first ∧
          line.wordSpans[i + 1]? = some second ∧ next.wordSpans[i + 1]? = some second' ∧
          next.text.take first.start.toNat = line.text.take first.start.toNat ∧
          next.text.drop second.stop.toNat = line.text.drop second.stop.toNat ∧
          next.cursor = second'.stop) ∧
        next.mark = line.mark ∧ next.clips = line.clips ∧ next.done = line.done) := by
  refine ⟨transposeWords_of_few, fun htwo => ?_⟩
  intro i next
  obtain ⟨gaps, words, hrow⟩ := exists_isRow line.text
  obtain ⟨hwords, hgaps⟩ := hrow.words_and_gaps
  have hcount : line.words.length = line.wordSpans.length := List.length_map _
  obtain ⟨before, a, b, after, rfl, hi⟩ : ∃ before a b after,
      words = before ++ a :: b :: after ∧ before.length = i :=
    exists_cut (by rw [← hwords, hcount]; omega)
  have ha : IsWordText a := hrow.isWordText a (by simp)
  have hb : IsWordText b := hrow.isWordText b (by simp)
  obtain ⟨front, between, back, htext, hothers⟩ := hrow.exists_pieces
  obtain ⟨-, hspans⟩ := hothers a b ha hb
  obtain ⟨hrow', hspans'⟩ := hothers b a hb ha
  obtain ⟨others, hdrop⟩ := hspans 0
  obtain ⟨others', hdrop'⟩ := hspans' 0
  simp only [Nat.zero_add] at hdrop hdrop'
  rw [← htext, hi] at hdrop
  have hnext := transposeWords_of_pieces htext hdrop
  have hnexttext : next.text = front ++ (b ++ (between ++ (a ++ back))) := congrArg Line.text hnext
  rw [← hnexttext] at hrow'
  rw [← hnexttext, hi] at hdrop'
  obtain ⟨hwords', hgaps'⟩ := hrow'.words_and_gaps
  obtain ⟨hfirst, hsecond⟩ := getElem?_of_drop hdrop
  obtain ⟨-, hsecond'⟩ := getElem?_of_drop hdrop'
  have hcursor : next.cursor =
      (front.length + a.length + between.length + b.length : Nat) := congrArg Line.cursor hnext
  refine ⟨⟨before, a, b, after, hi, hwords, hwords'⟩, hgaps'.trans hgaps.symm,
    line.transposeWords_perm.length_eq, ⟨_, _, _, hfirst, hsecond, hsecond', ?_, ?_, ?_⟩,
    (congrArg Line.mark hnext).trans rfl, (congrArg Line.clips hnext).trans rfl,
    (congrArg Line.done hnext).trans rfl⟩
  · rw [hnexttext, htext, Int.toNat_natCast, List.take_left, List.take_left]
  · have hback : next.text = (front ++ b ++ between ++ a) ++ back := by
      rw [hnexttext]
      simp only [List.append_assoc]
    have hback' : line.text = (front ++ a ++ between ++ b) ++ back := by
      rw [htext]
      simp only [List.append_assoc]
    rw [hback, hback', Int.toNat_natCast,
      List.drop_left' (by simp only [List.length_append]; omega),
      List.drop_left' (by simp only [List.length_append])]
  · rw [hcursor]
    dsimp only
    omega

/-- Past the last word the last two are swapped. -/
theorem transposeWords_exchanges_neighbours_last :
    let line : Line := { text := " ab, cde f.".toList, cursor := 11, mark := some 2 }
    2 ≤ line.wordSpans.length ∧
      line.transposeWords.words = [['a', 'b'], ['f'], ['c', 'd', 'e']] ∧
      line.transposeWords.gaps = [[' '], [',', ' '], [' '], ['.']] ∧
      line.transposeWords.mark = some 2 := by
  intro line
  have htwo : 2 ≤ line.wordSpans.length := by decide
  obtain ⟨⟨before, first, second, after, hi, hold, hnew⟩, hgaps, -, -, hmark, -⟩ :=
    (transposeWords_exchanges_neighbours line).2 htwo
  have hindex : min line.wordIndex (line.wordSpans.length - 2) = 1 := by decide
  have hwords : line.words = [['a', 'b'], ['c', 'd', 'e'], ['f']] := by decide
  obtain ⟨w, rfl⟩ := List.length_eq_one_iff.1 (hi.trans hindex)
  obtain ⟨rfl, rfl, rfl, rfl⟩ :
      ['a', 'b'] = w ∧ ['c', 'd', 'e'] = first ∧ ['f'] = second ∧ [] = after := by
    simpa using hwords.symm.trans hold
  exact ⟨htwo, hnew, hgaps.trans (by decide), hmark⟩

end Line

end LineEditor
