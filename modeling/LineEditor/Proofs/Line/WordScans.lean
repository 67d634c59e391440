import LineEditor.Proofs.Line.WordSpans
import Mathlib.Data.List.TakeWhile

/-!
# Scans for the boundary of a word

Every scan from a cursor on the line comes to the boundary of a word: looking ahead, to the end of
the first word that ends past the cursor; looking behind, to the start of the last word that begins
there or before. If there is no such word, a scan comes to an end of the line, or stays.
-/

namespace LineEditor

variable {text front piece back : List Char} {line : Line} {s : Span} {p : Int}

/-! ## Looking for a word in a text -/

/-- A text is read as separators, then the characters of its first word, and then what follows. -/
structure ReadsWord (text gap word rest : List Char) : Prop where
  eq : text = gap ++ (word ++ rest)
  gap : ∀ c ∈ gap, isWordChar c = false
  ne : word ≠ []
  word : ∀ c ∈ word, isWordChar c = true
  rest : ∀ c ∈ rest.head?, isWordChar c = false

/-- Either a text has no word, or it is read up to the end of its first word. -/
theorem readsWord_cases (text : List Char) :
    ((∀ c ∈ text, isWordChar c = false) ∧ firstWordEnd? text = none ∧
        lastWordStart? text = none) ∨
      ∃ gap word rest, ReadsWord text gap word rest ∧
        firstWordEnd? text = some (gap.length + word.length) ∧
        lastWordStart? text = some rest.length := by
  unfold firstWordEnd? lastWordStart?
  have hgap : ∀ c ∈ text.takeWhile isWordSeparator, isWordChar c = false := by
    intro c hc
    have hseparator : isWordSeparator c = true := List.mem_takeWhile_imp hc
    rw [isWordChar, hseparator, Bool.not_true]
  have hsplit : text.takeWhile isWordSeparator ++ text.dropWhile isWordSeparator = text :=
    List.takeWhile_append_dropWhile
  cases hdrop : text.dropWhile isWordSeparator with
  | nil =>
    rw [hdrop, List.append_nil] at hsplit
    rw [hsplit] at hgap
    exact Or.inl ⟨hgap, rfl, rfl⟩
  | cons c after =>
    have hc : isWordChar c = true := by
      have hhead := List.head?_dropWhile_not isWordSeparator text
      rw [hdrop] at hhead
      simpa [isWordChar] using hhead
    have hword : (c :: after).takeWhile isWordChar ++ (c :: after).dropWhile isWordChar =
        c :: after := List.takeWhile_append_dropWhile
    refine Or.inr ⟨text.takeWhile isWordSeparator, (c :: after).takeWhile isWordChar,
      (c :: after).dropWhile isWordChar, ⟨?_, hgap, ?_, ?_, ?_⟩, ?_, rfl⟩
    · rw [hword, ← hdrop, hsplit]
    · rw [List.takeWhile_cons_of_pos hc]
      exact List.cons_ne_nil _ _
    · intro d hd
      exact List.mem_takeWhile_imp hd
    · intro d hd
      have hhead := List.head?_dropWhile_not isWordChar (c :: after)
      rw [hd] at hhead
      simpa using hhead
    · have htext := congrArg List.length hsplit
      have hafter := congrArg List.length hword
      rw [List.length_append, hdrop] at htext
      rw [List.length_append] at hafter
      dsimp only
      congr 1
      omega

namespace Line

/-- The first word that ends past a place. -/
def wordPast? (line : Line) (place : Int) : Option Span :=
  line.wordSpans.find? fun s => place < s.stop

/-- The last word that begins at a place or before it. -/
def wordBegun? (line : Line) (place : Int) : Option Span :=
  (line.wordSpans.filter fun s => s.start ≤ place).getLast?

/-- Among words in order, those before a word end before it begins, and those after it begin after
it ends. -/
theorem wordSpans_split (hs : s ∈ line.wordSpans) :
    ∃ before after, line.wordSpans = before ++ s :: after ∧
      (∀ t ∈ before, t.stop < s.start) ∧ ∀ t ∈ after, s.stop < t.start := by
  obtain ⟨before, after, hsplit⟩ := List.append_of_mem hs
  have hpairwise := line.pairwise_wordSpans
  rw [hsplit, List.pairwise_append] at hpairwise
  obtain ⟨-, hafter, hbefore⟩ := hpairwise
  exact ⟨before, after, hsplit, fun t ht => hbefore t ht s List.mem_cons_self,
    (List.pairwise_cons.1 hafter).1⟩

theorem wordPast?_eq_some (hs : IsWord line.text s) (hpast : p < s.stop)
    (hfirst : ∀ t, IsWord line.text t → t.stop < s.start → t.stop ≤ p) :
    line.wordPast? p = some s := by
  obtain ⟨before, after, hsplit, hbefore, -⟩ := wordSpans_split (mem_wordSpans_iff.2 hs)
  have hnone : before.find? (fun t => p < t.stop) = none := by
    refine List.find?_eq_none.2 fun t ht => ?_
    have hword : IsWord line.text t := mem_wordSpans_iff.1 (by simp [hsplit, ht])
    have := hfirst t hword (hbefore t ht)
    simpa using this
  rw [wordPast?, hsplit, List.find?_append, hnone, Option.none_or, List.find?_cons_of_pos]
  simpa using hpast

/-- A word ends past a place if one of its characters stands there or further right. -/
theorem isSome_wordPast?_iff :
    (line.wordPast? p).isSome ↔ ∃ q, p ≤ q ∧ IsWordAt line.text q := by
  rw [wordPast?, List.find?_isSome]
  constructor
  · rintro ⟨t, ht, hpast⟩
    have hword : IsWord line.text t := mem_wordSpans_iff.1 ht
    have hlt := hword.start_lt_stop
    have hpast : p < t.stop := of_decide_eq_true hpast
    exact ⟨t.stop - 1, by omega, hword.inside _ (by omega) (by omega)⟩
  · rintro ⟨q, hle, hq⟩
    obtain ⟨t, ht, -, hlt⟩ := exists_word_of_isWordAt hq
    exact ⟨t, ht, decide_eq_true (by omega)⟩

theorem wordBegun?_eq_some (hs : IsWord line.text s) (hbegun : s.start ≤ p)
    (hlast : ∀ t, IsWord line.text t → s.stop < t.start → p < t.start) :
    line.wordBegun? p = some s := by
  obtain ⟨before, after, hsplit, -, hafter⟩ := wordSpans_split (mem_wordSpans_iff.2 hs)
  have hnone : after.filter (fun t => t.start ≤ p) = [] := by
    refine List.filter_eq_nil_iff.2 fun t ht => ?_
    have hword : IsWord line.text t := mem_wordSpans_iff.1 (by simp [hsplit, ht])
    have := hlast t hword (hafter t ht)
    simpa using this
  rw [wordBegun?, hsplit, List.filter_append, List.filter_cons_of_pos (by simpa using hbegun),
    hnone, List.getLast?_concat]

/-- The words before the last one that begins at a place or before it end before it begins, and the
words after it begin past that place. -/
theorem split_of_wordBegun? (h : line.wordBegun? p = some s) :
    s.start ≤ p ∧ ∃ before after, line.wordSpans = before ++ s :: after ∧
      (∀ t ∈ before, t.stop < s.start) ∧ ∀ t ∈ after, p < t.start := by
  obtain ⟨begun, hbegun⟩ := List.getLast?_eq_some_iff.1 h
  have hmem : s ∈ line.wordSpans.filter fun t => t.start ≤ p := by
    rw [hbegun]
    exact List.mem_append_right _ List.mem_cons_self
  obtain ⟨hs, hstart⟩ := List.mem_filter.1 hmem
  obtain ⟨before, after, hsplit, hbefore, hafter⟩ := wordSpans_split hs
  refine ⟨of_decide_eq_true hstart, before, after, hsplit, hbefore, fun t ht => ?_⟩
  have htword : t ∈ line.wordSpans := by simp [hsplit, ht]
  have hlt := (mem_wordSpans_iff.1 hs).start_lt_stop
  have hlt' := (mem_wordSpans_iff.1 htword).start_lt_stop
  have hbehind := hafter t ht
  by_cases hlate : p < t.start
  · exact hlate
  · -- A word behind it that begins in time would be the last one instead.
    have hordered := line.pairwise_wordSpans.filter fun t => t.start ≤ p
    have hfound : t ∈ begun ++ [s] := by
      rw [← hbegun]
      exact List.mem_filter.2 ⟨htword, decide_eq_true (Int.not_lt.1 hlate)⟩
    rw [hbegun, List.pairwise_append] at hordered
    rcases List.mem_append.1 hfound with hfound | hfound
    · have hfront := hordered.2.2 t hfound s List.mem_cons_self
      omega
    · obtain rfl := List.mem_singleton.1 hfound
      omega

end Line

/-- Characters of words in a row belong to one word. -/
theorem exists_word_of_piece (htext : text = front ++ (piece ++ back)) (hne : piece ≠ [])
    (hpiece : ∀ c ∈ piece, isWordChar c = true) :
    ∃ s, IsWord text s ∧ s.start ≤ front.length ∧ front.length + piece.length ≤ s.stop := by
  have hpos : 0 < piece.length := List.length_pos_iff.2 hne
  have hfirst : IsWordAt text front.length :=
    isWordAt_of_piece htext hpiece (Int.le_refl _) (by omega)
  -- The spans are those of a line, but they depend on its text only.
  let line : Line := { text }
  obtain ⟨s, hs, hstart, hstop⟩ :
      ∃ s ∈ line.wordSpans, s.start ≤ front.length ∧ front.length < s.stop :=
    exists_word_of_isWordAt hfirst
  have hword : IsWord text s := mem_wordSpans_iff.1 hs
  refine ⟨s, hword, hstart, ?_⟩
  by_cases hle : front.length + piece.length ≤ s.stop
  · exact hle
  · exact absurd (isWordAt_of_piece htext hpiece (by omega) (by omega)) hword.after

/-- A word that ends in a piece without words ends before it. -/
theorem IsWord.stop_le_of_gap (h : IsWord text s) (htext : text = front ++ (piece ++ back))
    (hpiece : ∀ c ∈ piece, isWordChar c = false) (hstop : s.stop ≤ front.length + piece.length) :
    s.stop ≤ front.length := by
  have hlt := h.start_lt_stop
  by_cases hle : s.stop ≤ front.length
  · exact hle
  · have hlast := h.inside (s.stop - 1) (by omega) (by omega)
    exact absurd hlast (not_isWordAt_of_piece htext hpiece (by omega) (by omega))

/-- A word that begins in a piece without words begins behind it. -/
theorem IsWord.le_start_of_gap (h : IsWord text s) (htext : text = front ++ (piece ++ back))
    (hpiece : ∀ c ∈ piece, isWordChar c = false) (hstart : front.length ≤ s.start) :
    front.length + piece.length ≤ s.start := by
  by_cases hle : front.length + piece.length ≤ s.start
  · exact hle
  · have hfirst := h.inside s.start (Int.le_refl _) h.start_lt_stop
    exact absurd hfirst (not_isWordAt_of_piece htext hpiece hstart (by omega))

namespace Line

/-- Reading on from a place comes to the end of the first word that ends past it. -/
theorem map_stop_wordPast? (line : Line) {start : Nat} (h : start ≤ line.text.length) :
    (line.wordPast? start).map Span.stop =
      (firstWordEnd? (line.text.drop start)).map fun (n : Nat) => (start + n : Int) := by
  have hfront : (line.text.take start).length = start := List.length_take_of_le h
  have hlength : line.text.length = start + (line.text.drop start).length := by
    rw [List.length_drop]
    omega
  rcases readsWord_cases (line.text.drop start) with ⟨hgap, hend, -⟩ |
    ⟨gap, word, rest, hreads, hend, -⟩
  · have htext : line.text = line.text.take start ++ (line.text.drop start ++ []) := by
      rw [List.append_nil, List.take_append_drop]
    have hnone : line.wordPast? start = none := by
      refine List.find?_eq_none.2 fun t ht => ?_
      have hword : IsWord line.text t := mem_wordSpans_iff.1 ht
      have hbounds := hword.bounds
      have hle := hword.stop_le_of_gap htext hgap (by omega)
      rw [decide_eq_true_eq]
      omega
    rw [hnone, hend]
    rfl
  · have htext : line.text = line.text.take start ++ (gap ++ (word ++ rest)) := by
      rw [← hreads.eq, List.take_append_drop]
    have htext' : line.text = (line.text.take start ++ gap) ++ (word ++ rest) := by
      rw [List.append_assoc]
      exact htext
    have htext'' : line.text = (line.text.take start ++ gap ++ word) ++ rest := by
      rw [List.append_assoc]
      exact htext'
    -- The place may be inside the word, so only its end is known; its start may be further left.
    obtain ⟨s, hs, hstart, hstop⟩ := exists_word_of_piece htext' hreads.ne hreads.word
    have hafter := hs.stop_le (not_isWordAt_of_head? htext'' hreads.rest) (by
      rw [List.length_append]
      omega)
    rw [List.length_append, hfront] at hstart hstop
    rw [List.length_append, List.length_append, hfront] at hafter
    have hpos : 0 < word.length := List.length_pos_iff.2 hreads.ne
    have hfirst : ∀ t, IsWord line.text t → t.stop < s.start → t.stop ≤ start := by
      intro t ht hlt
      have hle := ht.stop_le_of_gap htext hreads.gap (by omega)
      rwa [hfront] at hle
    rw [wordPast?_eq_some hs (by omega) hfirst, hend, Option.map_some, Option.map_some]
    congr 1
    omega

/-- Reading backwards from a place comes to the start of the last word that begins before it. -/
theorem map_start_wordBegun? (line : Line) {count : Nat} (hp : p + 1 = count) :
    (line.wordBegun? p).map Span.start =
      (lastWordStart? (line.text.take count).reverse).map fun (n : Nat) => (n : Int) := by
  have hfront : (line.text.take count).length = min count line.text.length := List.length_take
  rcases readsWord_cases (line.text.take count).reverse with ⟨hgap, -, hend⟩ |
    ⟨gap, word, rest, hreads, -, hend⟩
  · have htext : line.text = [] ++ (line.text.take count ++ line.text.drop count) := by
      rw [List.nil_append, List.take_append_drop]
    have hgap' : ∀ c ∈ line.text.take count, isWordChar c = false := by
      intro c hc
      exact hgap c (List.mem_reverse.2 hc)
    have hnone : line.wordBegun? p = none := by
      refine List.getLast?_eq_none_iff.2 (List.filter_eq_nil_iff.2 fun t ht => ?_)
      have hword : IsWord line.text t := mem_wordSpans_iff.1 ht
      have hle := hword.le_start_of_gap htext hgap' hword.bounds.1
      have hlt := hword.start_lt_stop
      have hbounds := hword.bounds
      rw [List.length_nil, hfront] at hle
      rw [decide_eq_true_eq]
      omega
    rw [hnone, hend]
    rfl
  · -- What was read backwards is turned round, to be compared with the spans.
    have hpieces : line.text.take count = rest.reverse ++ (word.reverse ++ gap.reverse) := by
      rw [← List.reverse_reverse (line.text.take count), hreads.eq, List.reverse_append,
        List.reverse_append, List.append_assoc]
    have htext : line.text =
        rest.reverse ++ (word.reverse ++ (gap.reverse ++ line.text.drop count)) := by
      rw [← List.append_assoc word.reverse, ← List.append_assoc rest.reverse, ← hpieces,
        List.take_append_drop]
    have htext' : line.text =
        (rest.reverse ++ word.reverse) ++ (gap.reverse ++ line.text.drop count) := by
      rw [List.append_assoc]
      exact htext
    have hlength := congrArg List.length hpieces
    rw [hfront, List.length_append, List.length_append] at hlength
    have hpos : 0 < word.length := List.length_pos_iff.2 hreads.ne
    have hword : ∀ c ∈ word.reverse, isWordChar c = true := by
      intro c hc
      exact hreads.word c (List.mem_reverse.1 hc)
    have hgap : ∀ c ∈ gap.reverse, isWordChar c = false := by
      intro c hc
      exact hreads.gap c (List.mem_reverse.1 hc)
    have hbefore : ¬ IsWordAt line.text (rest.reverse.length - 1) := by
      refine not_isWordAt_of_getLast? htext ?_
      rw [List.getLast?_reverse]
      exact hreads.rest
    obtain ⟨s, hs, hstart, hstop⟩ :=
      exists_word_of_piece htext (by simpa using hreads.ne) hword
    simp only [List.length_reverse] at hlength hbefore hstart hstop
    have hlt := hs.lt_start hbefore (by omega)
    have hlast : ∀ t, IsWord line.text t → s.stop < t.start → p < t.start := by
      intro t ht hlt
      have hle := ht.le_start_of_gap htext' hgap (by
        simp only [List.length_append, List.length_reverse]
        omega)
      have hlt' := ht.start_lt_stop
      have hbounds := ht.bounds
      simp only [List.length_append, List.length_reverse] at hle
      omega
    rw [wordBegun?_eq_some hs (by omega) hlast, hend, Option.map_some, Option.map_some]
    congr 1
    omega

/-! ## The scans -/

theorem map_stop_wordPast?_cursor (h0 : 0 ≤ line.cursor) (h : line.cursor ≤ line.length) :
    (line.wordPast? line.cursor).map Span.stop =
      (firstWordEnd? line.ahead).map fun (n : Nat) => line.cursor + n := by
  obtain ⟨c, hc⟩ := Int.eq_ofNat_of_zero_le h0
  have hle : c ≤ line.text.length := by
    rw [hc] at h
    exact Int.ofNat_le.1 h
  have hahead : line.ahead = line.text.drop c := by
    rw [ahead, if_neg (Int.not_lt.2 h0), hc, Int.toNat_natCast]
  rw [hahead, hc]
  exact map_stop_wordPast? line hle

theorem map_start_wordBegun?_cursor (h0 : 0 ≤ line.cursor) :
    (line.wordBegun? line.cursor).map Span.start =
      (lastWordStart? line.behind).map fun (n : Nat) => (n : Int) :=
  map_start_wordBegun? line (by omega)

theorem wordEnd_eq (h0 : 0 ≤ line.cursor) (h : line.cursor ≤ line.length) :
    line.wordEnd = ((line.wordPast? line.cursor).map Span.stop).getD line.length := by
  rw [map_stop_wordPast?_cursor h0 h, wordEnd]
  cases firstWordEnd? line.ahead with
  | none => exact Int.max_eq_right h
  | some n => rfl

theorem forwardWordTarget_eq (h0 : 0 ≤ line.cursor) (h : line.cursor ≤ line.length) :
    line.forwardWordTarget = ((line.wordPast? line.cursor).map Span.stop).getD line.cursor := by
  rw [map_stop_wordPast?_cursor h0 h, forwardWordTarget]
  cases firstWordEnd? line.ahead with
  | none => exact Int.add_zero line.cursor
  | some n => rfl

theorem wordStart_eq (h0 : 0 ≤ line.cursor) :
    line.wordStart = ((line.wordBegun? line.cursor).map Span.start).getD 0 := by
  rw [map_start_wordBegun?_cursor h0, wordStart, startBehind, if_neg (Int.not_lt.2 h0)]
  cases lastWordStart? line.behind <;> rfl

theorem backWordTarget_eq (h0 : 0 ≤ line.cursor) :
    line.backWordTarget = ((line.wordBegun? line.cursor).map Span.start).getD line.cursor := by
  rw [map_start_wordBegun?_cursor h0, backWordTarget]
  cases lastWordStart? line.behind <;> rfl

/-- Reading backwards from where no word ends drops nothing of a word. -/
theorem dropWhile_reverse_take {count : Nat} (hle : count ≤ text.length)
    (h : ¬ IsWordAt text (count - 1)) :
    (text.take count).reverse.dropWhile isWordChar = (text.take count).reverse := by
  cases count with
  | zero => rfl
  | succ n =>
    have hget : text[n]? = some text[n] := List.getElem?_eq_getElem hle
    have hc : ¬ isWordChar text[n] = true := by
      intro hc
      refine h ⟨by omega, text[n], ?_, hc⟩
      rwa [Int.natCast_succ, Int.add_sub_cancel, Int.toNat_natCast]
    rw [List.take_add_one, hget, Option.toList_some, List.reverse_concat,
      List.dropWhile_cons_of_neg hc]

/-- The characters of a word are characters of words. -/
theorem isWordChar_of_mem_slice (hs : IsWord text s) {first last : Nat} (hfirst : s.start ≤ first)
    (hlast : last ≤ s.stop) : ∀ c ∈ (text.take last).drop first, isWordChar c = true := by
  intro c hc
  obtain ⟨i, hi⟩ := List.mem_iff_getElem?.1 hc
  rw [List.getElem?_drop] at hi
  obtain ⟨hlt, -⟩ := List.getElem?_eq_some_iff.1 hi
  have hbound := List.length_take_le last text
  rw [List.getElem?_take_of_lt (by omega)] at hi
  obtain ⟨-, d, hd, hword⟩ := hs.inside (first + i : Nat) (by omega) (by omega)
  rw [Int.toNat_natCast, hi] at hd
  rwa [Option.some.inj hd]

/-- On a separator, and past the last character, no word is passed over. -/
theorem previousWordStart_of_not_isWordAt (h0 : 0 ≤ line.cursor)
    (hcursor : ¬ IsWordAt line.text line.cursor) : line.previousWordStart = line.wordStart := by
  rw [previousWordStart, wordStart]
  by_cases hat : line.atCharacter = true
  · have hlt : line.cursor < line.text.length := of_decide_eq_true hat
    have hkept : line.behind.dropWhile isWordChar = line.behind := by
      refine dropWhile_reverse_take (by omega) ?_
      rwa [Int.toNat_of_nonneg (by omega), Int.add_sub_cancel]
    rw [if_pos hat, hkept]
  · rw [if_neg hat]

/-- The words that begin before a word does are those before it. -/
theorem wordBegun?_eq_getLast? {before after : List Span}
    (hsplit : line.wordSpans = before ++ s :: after) :
    line.wordBegun? (s.start - 1) = before.getLast? := by
  have hpairwise := line.pairwise_wordSpans
  have hword : ∀ t ∈ before ++ s :: after, t.start < t.stop := by
    intro t ht
    exact (mem_wordSpans_iff.1 (hsplit ▸ ht)).start_lt_stop
  rw [hsplit, List.pairwise_append] at hpairwise
  obtain ⟨-, hafter, hbefore⟩ := hpairwise
  -- The words are in order, so the filter cuts them right before this one.
  have hkept : before.filter (fun t => t.start ≤ s.start - 1) = before := by
    refine List.filter_eq_self.2 fun t ht => ?_
    have hlt := hword t (List.mem_append_left _ ht)
    have hlt' := hbefore t ht s List.mem_cons_self
    rw [decide_eq_true_eq]
    omega
  have hdropped : (s :: after).filter (fun t => t.start ≤ s.start - 1) = [] := by
    refine List.filter_eq_nil_iff.2 fun t ht => ?_
    rw [decide_eq_true_eq]
    rcases List.mem_cons.1 ht with rfl | ht
    · omega
    · have hlt := hword s (by simp)
      have hlt' := (List.pairwise_cons.1 hafter).1 t ht
      omega
  rw [wordBegun?, hsplit, List.filter_append, hkept, hdropped, List.append_nil]

/-- In a word, that word is passed over. -/
theorem previousWordStart_of_mem {before after : List Span}
    (hsplit : line.wordSpans = before ++ s :: after) (hstart : s.start ≤ line.cursor)
    (hstop : line.cursor < s.stop) :
    line.previousWordStart = (before.getLast?.map Span.start).getD 0 := by
  have hs : IsWord line.text s := mem_wordSpans_iff.1 (by simp [hsplit])
  obtain ⟨h0, hle⟩ := hs.bounds
  obtain ⟨first, hfirst⟩ := Int.eq_ofNat_of_zero_le h0
  have hlt : line.cursor < line.text.length := by omega
  have hat : line.atCharacter = true := decide_eq_true hlt
  -- Behind the cursor stands its word as far as the cursor, and before that what precedes the word.
  have htake : (line.text.take (line.cursor + 1).toNat).take first = line.text.take first := by
    rw [List.take_take, Nat.min_eq_left (by omega)]
  have hbehind : line.behind = ((line.text.take (line.cursor + 1).toNat).drop first).reverse ++
      (line.text.take first).reverse := by
    rw [behind, ← List.reverse_append, ← htake, List.take_append_drop]
  have hslice : ∀ c ∈ (line.text.take (line.cursor + 1).toNat).drop first,
      isWordChar c = true := isWordChar_of_mem_slice hs (by omega) (by omega)
  have hpassed : line.behind.dropWhile isWordChar = (line.text.take first).reverse := by
    rw [hbehind, List.dropWhile_append_of_pos]
    · refine dropWhile_reverse_take (by omega) ?_
      rw [← hfirst]
      exact hs.before
    · intro c hc
      exact hslice c (List.mem_reverse.1 hc)
  have hcount : s.start - 1 + 1 = first := by omega
  rw [previousWordStart, if_pos hat, hpassed, ← wordBegun?_eq_getLast? hsplit,
    map_start_wordBegun? line hcount, startBehind, if_neg (by omega)]
  cases lastWordStart? (line.text.take first).reverse <;> rfl

end Line

/-! ## All scans -/

/-- The spans of a line are its longest runs of characters that are not separators, in order, with a
separator right after each that has one behind it, and every other character is in one of them. The
scans from a cursor on the line come to the end of the first of them that ends past the cursor, and
to the start of the last that begins there or before; where there is none, they come to an end of
the line or stay. The scan for the word before passes over the word at the cursor first. -/
theorem scans_agree_with_words (h0 : 0 ≤ line.cursor) (h : line.cursor ≤ line.length) :
    (∀ s, s ∈ line.wordSpans ↔ IsWord line.text s) ∧
      (line.wordSpans.Pairwise fun s t => s.stop < t.start ∧
        ∃ c, line.text[s.stop.toNat]? = some c ∧ isWordSeparator c = true) ∧
      (∀ p, IsWordAt line.text p ↔ ∃ s ∈ line.wordSpans, s.start ≤ p ∧ p < s.stop) ∧
      line.wordEnd = ((line.wordPast? line.cursor).map Span.stop).getD line.length ∧
      line.forwardWordTarget = ((line.wordPast? line.cursor).map Span.stop).getD line.cursor ∧
      line.wordStart = ((line.wordBegun? line.cursor).map Span.start).getD 0 ∧
      line.backWordTarget = ((line.wordBegun? line.cursor).map Span.start).getD line.cursor ∧
      (∀ before s after, line.wordSpans = before ++ s :: after → s.start ≤ line.cursor →
        line.cursor < s.stop →
        line.previousWordStart = (before.getLast?.map Span.start).getD 0) ∧
      (¬ IsWordAt line.text line.cursor → line.previousWordStart = line.wordStart) := by
  refine ⟨fun s => mem_wordSpans_iff, ?_, fun p => ⟨exists_word_of_isWordAt, ?_⟩,
    Line.wordEnd_eq h0 h, Line.forwardWordTarget_eq h0 h, Line.wordStart_eq h0,
    Line.backWordTarget_eq h0, fun before s after => Line.previousWordStart_of_mem,
    Line.previousWordStart_of_not_isWordAt h0⟩
  · refine line.pairwise_wordSpans.imp_of_mem ?_
    intro s t hs ht hlt
    refine ⟨hlt, (mem_wordSpans_iff.1 hs).exists_separator ?_⟩
    have ht := mem_wordSpans_iff.1 ht
    have hlt' := ht.start_lt_stop
    have hbounds := ht.bounds
    omega
  · rintro ⟨s, hs, hstart, hstop⟩
    exact (mem_wordSpans_iff.1 hs).inside p hstart hstop

/-- Between two words, on the first character of the second one. -/
theorem scans_agree_with_words_between :
    let line : Line := { text := "ab, cd.".toList, cursor := 4 }
    0 ≤ line.cursor ∧ line.cursor ≤ line.length ∧ IsWord line.text ⟨4, 6⟩ ∧ line.wordEnd = 6 ∧
      line.forwardWordTarget = 6 ∧ line.wordStart = 4 ∧ line.previousWordStart = 0 := by
  intro line
  have h0 : 0 ≤ line.cursor := by decide
  have h : line.cursor ≤ line.length := by decide
  have hsplit : line.wordSpans = [⟨0, 2⟩] ++ ⟨4, 6⟩ :: [] := by decide
  obtain ⟨hwords, -, -, hend, hforward, hstart, -, hprevious, -⟩ := scans_agree_with_words h0 h
  refine ⟨h0, h, (hwords _).1 (by simp [hsplit]), hend.trans ?_, hforward.trans ?_,
    hstart.trans ?_, (hprevious _ _ _ hsplit ?_ ?_).trans ?_⟩
  · decide
  · decide
  · decide
  · decide
  · decide
  · decide

end LineEditor
