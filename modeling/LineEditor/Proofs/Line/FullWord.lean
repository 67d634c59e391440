import LineEditor.Proofs.Line.InBounds
import LineEditor.Proofs.Line.WordRow

/-!
# Full words

The span of a full word is put together from two scans, one behind the cursor and one ahead of it.
Both come to the same word if the cursor is on one, and if there is no word on one side of the
cursor, the span reaches as far as the end of the line there. At most one word is on the span then.
Only between two words do the scans come to different words: both of them are on the span, and the
separators between them.
-/

namespace LineEditor

variable {text front middle word back : List Char} {line : Line}

/-- The cursor stands on a separator, with a word behind it and a word ahead of it. -/
def Line.betweenWords (line : Line) : Bool :=
  let ahead := line.text.drop line.cursor.toNat
  (line.text.take line.cursor.toNat).any isWordChar && !ahead.head?.any isWordChar &&
    ahead.any isWordChar

/-- What stands before, on and after the span of a full word. No word goes on from one of these
pieces to the next. -/
structure Line.FullWord (line : Line) (front middle back : List Char) : Prop where
  text : line.text = front ++ (middle ++ back)
  start : line.wordStart = front.length
  stop : line.wordEnd = front.length + middle.length
  before : ∀ c ∈ front.getLast?, isWordChar c = false
  after : ∀ c ∈ back.head?, isWordChar c = false

theorem Line.InBounds.exists_sides (h : line.InBounds) :
    ∃ left right, line.text = left ++ right ∧ line.cursor = left.length := by
  have h0 := h.cursor_nonneg
  have hle : line.cursor.toNat ≤ line.text.length := Int.toNat_le.2 h.cursor_le
  refine ⟨line.text.take line.cursor.toNat, line.text.drop line.cursor.toNat, ?_, ?_⟩
  · exact (List.take_append_drop _ _).symm
  · rw [List.length_take_of_le hle, Int.toNat_of_nonneg h0]

theorem any_of_gap {gap : List Char} (hgap : ∀ c ∈ gap, isWordChar c = false) :
    gap.any isWordChar = false :=
  List.any_eq_false.2 fun c hc => by rw [hgap c hc]; exact Bool.false_ne_true

theorem any_of_word (hword : IsWordText word) : word.any isWordChar = true := by
  obtain ⟨c, others, rfl⟩ := List.exists_cons_of_ne_nil hword.ne
  exact List.any_eq_true.2 ⟨c, List.mem_cons_self, hword.wordChar c List.mem_cons_self⟩

theorem isWord_of_piece (htext : text = front ++ (word ++ back)) (hword : IsWordText word)
    (hfront : ∀ c ∈ front.getLast?, isWordChar c = false)
    (hback : ∀ c ∈ back.head?, isWordChar c = false) :
    IsWord text ⟨front.length, front.length + word.length⟩ := by
  have hpos : 0 < word.length := List.length_pos_iff.2 hword.ne
  have htext' : text = (front ++ word) ++ back := by rw [htext, List.append_assoc]
  have hafter := not_isWordAt_of_head? htext' hback
  rw [List.length_append, Int.natCast_add] at hafter
  refine ⟨?_, fun p hp hlt => isWordAt_of_piece htext hword.wordChar hp hlt,
    not_isWordAt_of_getLast? htext hfront, hafter⟩
  show (front.length : Int) < front.length + word.length
  omega

namespace Line

/-! ## The commands -/

namespace FullWord

theorem text_killFullWord (h : line.FullWord front middle back) :
    line.killFullWord.text = front ++ back :=
  Span.replace_piece h.text h.start h.stop []

theorem text_modify (h : line.FullWord front middle back) (f : List Char → List Char) :
    (line.modify line.wordSpan f).text = front ++ (f middle ++ back) := by
  show line.wordSpan.replace line.text (f (line.wordSpan.of line.text)) = _
  rw [wordSpan, Span.of_piece h.text h.start h.stop, Span.replace_piece h.text h.start h.stop]

/-- The words on the span are in one row with those before and after it, which are what is left when
the span is killed. -/
theorem exists_words {gaps words : List (List Char)} (h : line.FullWord front middle back)
    (hmiddle : IsRow middle gaps words) :
    ∃ before after, line.words = before ++ (words ++ after) ∧
      line.killFullWord.words = before ++ after := by
  obtain ⟨_, before, hfront⟩ := exists_isRow front
  obtain ⟨_, after, hback⟩ := exists_isRow back
  obtain ⟨_, hrest⟩ := hmiddle.append hback (.inr h.after)
  obtain ⟨_, hall⟩ := hfront.append hrest (.inl h.before)
  obtain ⟨_, hkept⟩ := hfront.append hback (.inl h.before)
  rw [← h.text] at hall
  rw [← h.text_killFullWord] at hkept
  exact ⟨before, after, hall.words_and_gaps.1, hkept.words_and_gaps.1⟩

end FullWord

/-! ## The scans -/

section Sides

variable {left right : List Char} (htext : line.text = left ++ right)
  (hcursor : line.cursor = left.length)

include htext hcursor

theorem betweenWords_of_sides : line.betweenWords =
    (left.any isWordChar && !right.head?.any isWordChar && right.any isWordChar) := by
  rw [betweenWords, hcursor, Int.toNat_natCast, htext, List.take_left, List.drop_left]

/-- Off a word the scan behind comes to the start of the last word before the cursor. -/
theorem wordStart_cases_of_off (hoff : ∀ c ∈ right.head?, isWordChar c = false) :
    ((∀ c ∈ left, isWordChar c = false) ∧ line.wordStart = 0) ∨
      ∃ front word gap, left = front ++ (word ++ gap) ∧ IsWordText word ∧
        (∀ c ∈ gap, isWordChar c = false) ∧ (∀ c ∈ front.getLast?, isWordChar c = false) ∧
        line.wordStart = front.length := by
  -- The character at the cursor is read first, and no word begins with it.
  have hbehind : lastWordStart? line.behind = lastWordStart? left.reverse := by
    have hsucc : ((left.length : Int) + 1).toNat = left.length + 1 := by omega
    rw [behind, htext, hcursor, hsucc, List.take_length_add_append]
    cases right with
    | nil => rw [List.take_nil, List.append_nil]
    | cons c right =>
      have hc : isWordSeparator c = true := by
        simpa only [isWordChar, Bool.not_eq_false'] using hoff c rfl
      rw [List.take_succ_cons, List.take_zero, List.reverse_concat, lastWordStart?,
        List.dropWhile_cons_of_pos hc, lastWordStart?]
  have h0 : ¬ line.cursor < 0 := by omega
  rw [wordStart, startBehind, if_neg h0, hbehind]
  rcases readsWord_cases left.reverse with ⟨hgap, -, hend⟩ | ⟨gap, word, rest, hreads, -, hend⟩
  · rw [hend]
    exact .inl ⟨fun c hc => hgap c (List.mem_reverse.2 hc), rfl⟩
  · rw [hend]
    refine .inr ⟨rest.reverse, word.reverse, gap.reverse, ?_, ⟨?_, ?_⟩, ?_, ?_, ?_⟩
    · rw [← List.reverse_reverse left, hreads.eq, List.reverse_append, List.reverse_append,
        List.append_assoc]
    · exact fun hnil => hreads.ne (List.reverse_eq_nil_iff.1 hnil)
    · exact fun c hc => hreads.word c (List.mem_reverse.1 hc)
    · exact fun c hc => hreads.gap c (List.mem_reverse.1 hc)
    · rw [List.getLast?_reverse]
      exact hreads.rest
    · rw [List.length_reverse]
      rfl

/-- The scan ahead comes to the end of the first word past the cursor. -/
theorem wordEnd_cases_of_ahead :
    ((∀ c ∈ right, isWordChar c = false) ∧ line.wordEnd = left.length + right.length) ∨
      ∃ gap word back, ReadsWord right gap word back ∧
        line.wordEnd = left.length + (gap.length + word.length) := by
  have h0 : ¬ line.cursor < 0 := by omega
  have hahead : line.ahead = right := by
    rw [ahead, if_neg h0, htext, hcursor, Int.toNat_natCast, List.drop_left]
  have hlength : (line.length : Int) = left.length + right.length := by
    rw [length, htext, List.length_append, Int.natCast_add]
  rw [wordEnd, hahead]
  rcases readsWord_cases right with ⟨hgap, hend, -⟩ | ⟨gap, word, back, hreads, hend, -⟩
  · rw [hend]
    refine .inl ⟨hgap, ?_⟩
    show max line.cursor (line.length : Int) = _
    omega
  · rw [hend]
    refine .inr ⟨gap, word, back, hreads, ?_⟩
    show line.cursor + (gap.length + word.length : Nat) = _
    rw [hcursor, Int.natCast_add]

end Sides

/-! ## The words on the span -/

/-- On a word both scans come to that word. -/
theorem fullWord_of_isWord {s : Span} (h0 : 0 ≤ line.cursor) (h : line.cursor ≤ line.length)
    (hs : IsWord line.text s) (hstart : s.start ≤ line.cursor) (hstop : line.cursor < s.stop) :
    ∃ front word back, line.FullWord front word back ∧ ∀ c ∈ word, isWordChar c = true := by
  have hbegun : line.wordBegun? line.cursor = some s :=
    wordBegun?_eq_some hs hstart fun t _ hlt => by omega
  have hpast : line.wordPast? line.cursor = some s :=
    wordPast?_eq_some hs hstop fun t _ hlt => by omega
  have hwordStart := wordStart_eq h0
  have hwordEnd := wordEnd_eq h0 h
  rw [hbegun, Option.map_some, Option.getD_some] at hwordStart
  rw [hpast, Option.map_some, Option.getD_some] at hwordEnd
  have hwithin : s.Within line.text.length :=
    ⟨hs.bounds.1, Int.le_of_lt hs.start_lt_stop, hs.bounds.2⟩
  obtain ⟨front, back, htext, hfront, hback, -⟩ := hwithin.exists_pieces
  have htext' : line.text = (front ++ s.of line.text) ++ back := by rwa [List.append_assoc]
  have hlength : ((front ++ s.of line.text).length : Int) = s.stop := by
    rw [hback, List.length_append, Int.natCast_add]
  refine ⟨front, s.of line.text, back, ⟨htext, hwordStart.trans hfront, hwordEnd.trans hback,
    ?_, ?_⟩, ?_⟩
  · exact (not_isWordAt_pred_length_iff htext).1 (hfront ▸ hs.before)
  · exact (not_isWordAt_length_iff htext').1 (hlength ▸ hs.after)
  · rw [hwithin.of_eq]
    exact isWordChar_of_mem_slice hs (by omega) (by omega)

/-- Unless the cursor is between two words, there is at most one on the span, and nothing but
separators around it. Between two words, both are on the span, and the separators between them. -/
theorem InBounds.fullWord_cases (h : line.InBounds) :
    (line.betweenWords = false ∧ ∃ front left word right back,
        line.FullWord front (left ++ (word ++ right)) back ∧
        (∀ c ∈ left, isWordChar c = false) ∧ (∀ c ∈ right, isWordChar c = false) ∧
        ∀ c ∈ word, isWordChar c = true) ∨
      (line.betweenWords = true ∧ ∃ front first gap second back,
        line.FullWord front (first ++ (gap ++ second)) back ∧ IsWordText first ∧
        IsWordText second ∧ (∀ c ∈ gap, isWordChar c = false) ∧
        (front ++ first).length ≤ line.cursor ∧
        line.cursor < (front ++ (first ++ gap)).length) := by
  obtain ⟨left, right, htext, hcursor⟩ := h.exists_sides
  have hbetween := betweenWords_of_sides htext hcursor
  by_cases hat : IsWordAt line.text line.cursor
  · obtain ⟨s, hs, hstart, hstop⟩ := exists_word_of_isWordAt hat
    obtain ⟨front, word, back, hpieces, hword⟩ :=
      fullWord_of_isWord h.cursor_nonneg h.cursor_le (mem_wordSpans_iff.1 hs) hstart hstop
    rw [htext, hcursor, isWordAt_length_iff] at hat
    rw [hat, Bool.not_true, Bool.and_false, Bool.false_and] at hbetween
    refine .inl ⟨hbetween, front, [], word, [], back, ?_, by simp, by simp, hword⟩
    rwa [List.nil_append, List.append_nil]
  · have hoff := (not_isWordAt_length_iff htext).1 (hcursor ▸ hat)
    -- Off a word the scans come to different words, if there are any.
    rcases wordStart_cases_of_off htext hcursor hoff with ⟨hleft, hstart⟩ |
      ⟨front, first, gap, rfl, hfirst, hgap, hfront, hstart⟩
    · rw [any_of_gap hleft, Bool.false_and, Bool.false_and] at hbetween
      refine .inl ⟨hbetween, [], ?_⟩
      rcases wordEnd_cases_of_ahead htext hcursor with ⟨hright, hstop⟩ |
        ⟨gap, word, back, ⟨rfl, hgap, -, hword, hback⟩, hstop⟩
      · refine ⟨left, [], right, [], ⟨?_, hstart, ?_, by simp, by simp⟩, hleft, hright, by simp⟩
        · simp [htext]
        · simp [hstop]
      · refine ⟨left ++ gap, word, [], back, ⟨?_, hstart, ?_, by simp, hback⟩, ?_, by simp, hword⟩
        · simp [htext]
        · simp [hstop]
        · exact List.forall_mem_append.2 ⟨hleft, hgap⟩
    · rcases wordEnd_cases_of_ahead htext hcursor with ⟨hright, hstop⟩ |
        ⟨gap', second, back, ⟨rfl, hgap', hne, hsecond, hback⟩, hstop⟩
      · rw [any_of_gap hright, Bool.and_false] at hbetween
        refine .inl ⟨hbetween, front, [], first, gap ++ right, [],
          ⟨?_, hstart, ?_, hfront, by simp⟩, by simp, ?_, hfirst.wordChar⟩
        · simp [htext]
        · simp [hstop, Int.add_assoc]
        · exact List.forall_mem_append.2 ⟨hgap, hright⟩
      · have hsecond : IsWordText second := ⟨hne, hsecond⟩
        have hpos : 0 < gap'.length := List.length_pos_iff.2 (hsecond.gap_ne_nil hoff)
        refine .inr ⟨?_, front, first, gap ++ gap', second, back,
          ⟨?_, hstart, ?_, hfront, hback⟩, hfirst, hsecond, ?_, ?_, ?_⟩
        · have hhead := (Option.any_eq_false _ _).2 hoff
          rw [hbetween, hhead]
          simp [any_of_word hfirst, any_of_word hsecond]
        · simp [htext]
        · simp [hstop, Int.add_assoc]
        · exact List.forall_mem_append.2 ⟨hgap, hgap'⟩
        · simp only [hcursor, List.length_append]
          omega
        · simp only [hcursor, List.length_append]
          omega

end Line

/-! ## One word or two -/

section Pieces

variable {left right first gap second : List Char} {f : List Char → List Char}

theorem isRow_of_one (hleft : ∀ c ∈ left, isWordChar c = false) (hword : IsWordText word)
    (hright : ∀ c ∈ right, isWordChar c = false) :
    IsRow (left ++ (word ++ right)) [left, right] [word] :=
  .word hleft hword (fun c hc => hright c (List.mem_of_mem_head? hc)) (.gap hright)

theorem isRow_of_two (hfirst : IsWordText first) (hgap : ∀ c ∈ gap, isWordChar c = false)
    (hne : gap ≠ []) (hsecond : IsWordText second) :
    IsRow (first ++ (gap ++ second)) [[], gap, []] [first, second] := by
  have hnil : ∀ c ∈ ([] : List Char), isWordChar c = false := fun c hc => absurd hc List.not_mem_nil
  have hrest := isRow_of_one hgap hsecond hnil
  rw [List.append_nil] at hrest
  rw [← List.nil_append (first ++ (gap ++ second))]
  exact .word hnil hfirst (head?_append_gap hgap fun h => absurd h hne) hrest

namespace Line.FullWord

theorem text_modify_of_one (h : line.FullWord front (left ++ (word ++ right)) back)
    (hf : KeepsGaps f) (hleft : ∀ c ∈ left, isWordChar c = false)
    (hright : ∀ c ∈ right, isWordChar c = false) :
    (line.modify line.wordSpan f).text = front ++ (left ++ (f word ++ (right ++ back))) := by
  rw [h.text_modify, hf.append hleft hright, List.append_assoc, List.append_assoc]

theorem isWord_of_one (h : line.FullWord front (left ++ (word ++ right)) back)
    (hleft : ∀ c ∈ left, isWordChar c = false) (hword : IsWordText word)
    (hright : ∀ c ∈ right, isWordChar c = false) :
    IsWord line.text ⟨(front ++ left).length, (front ++ left).length + word.length⟩ := by
  have htext : line.text = (front ++ left) ++ (word ++ (right ++ back)) := by
    simp only [h.text, List.append_assoc]
  exact isWord_of_piece htext hword (getLast?_append_gap hleft fun _ => h.before)
    (head?_append_gap hright fun _ => h.after)

theorem isWord_of_two (h : line.FullWord front (first ++ (gap ++ second)) back)
    (hfirst : IsWordText first) (hgap : ∀ c ∈ gap, isWordChar c = false) (hne : gap ≠ [])
    (hsecond : IsWordText second) :
    IsWord line.text ⟨front.length, front.length + first.length⟩ ∧
      IsWord line.text ⟨(front ++ (first ++ gap)).length,
        (front ++ (first ++ gap)).length + second.length⟩ := by
  have htext : line.text = front ++ (first ++ (gap ++ (second ++ back))) := by
    simp only [h.text, List.append_assoc]
  have htext' : line.text = (front ++ (first ++ gap)) ++ (second ++ back) := by
    simp only [htext, List.append_assoc]
  have hbefore : ∀ c ∈ (front ++ (first ++ gap)).getLast?, isWordChar c = false := by
    rw [← List.append_assoc]
    exact getLast?_append_gap hgap fun hnil => absurd hnil hne
  have hafter : ∀ c ∈ (gap ++ (second ++ back)).head?, isWordChar c = false :=
    head?_append_gap hgap fun hnil => absurd hnil hne
  exact ⟨isWord_of_piece htext hfirst h.before hafter,
    isWord_of_piece htext' hsecond hbefore h.after⟩

end Line.FullWord

end Pieces

/-- Unless the cursor is between two words, the commands on a full word act on at most one: what is
killed has no more than that word and separators around it, the other words are left, and only that
word is put in upper or lower case. Between two words they act on both, and on no other. -/
theorem full_word_commands_act_on_words_at_cursor (h : line.InBounds) :
    (line.betweenWords = false →
      ∃ front left word right back before touched after,
        line.text = front ++ (left ++ (word ++ (right ++ back))) ∧
        (∀ c ∈ left, isWordChar c = false) ∧ (∀ c ∈ right, isWordChar c = false) ∧
        (word = [] ∧ touched = [] ∨ touched = [word] ∧
          IsWord line.text ⟨(front ++ left).length, (front ++ left).length + word.length⟩) ∧
        line.words = before ++ (touched ++ after) ∧
        line.killFullWord.words = before ++ after ∧
        line.killFullWord.text = front ++ back ∧
        line.upcaseWord.text = front ++ (left ++ (Text.upcase word ++ (right ++ back))) ∧
        line.downcaseWord.text = front ++ (left ++ (Text.downcase word ++ (right ++ back)))) ∧
    (line.betweenWords = true →
      ∃ front first gap second back before after x y,
        line.text = front ++ (first ++ (gap ++ (second ++ back))) ∧
        (∀ c ∈ gap, isWordChar c = false) ∧
        IsWord line.text ⟨front.length, front.length + first.length⟩ ∧
        IsWord line.text ⟨(front ++ (first ++ gap)).length,
          (front ++ (first ++ gap)).length + second.length⟩ ∧
        (front ++ first).length ≤ line.cursor ∧
        line.cursor < (front ++ (first ++ gap)).length ∧
        line.words = before ++ first :: second :: after ∧
        line.killFullWord.words = before ++ after ∧
        line.killFullWord.text = front ++ back ∧
        line.upcaseWord.text =
          front ++ (Text.upcase first ++ (gap ++ (Text.upcase second ++ back))) ∧
        CaseMapped (fun c => Text.downcaseChar c = [c]) first x ∧
        CaseMapped (fun c => Text.downcaseChar c = [c]) second y ∧
        line.downcaseWord.text = front ++ (x ++ (gap ++ (y ++ back)))) := by
  rcases h.fullWord_cases with
    ⟨hbetween, front, left, word, right, back, hpieces, hleft, hright, hword⟩ |
    ⟨hbetween, front, first, gap, second, back, hpieces, hfirst, hsecond, hgap, hbehind, hahead⟩
  · refine ⟨fun _ => ?_, fun hbetween' => absurd (hbetween.symm.trans hbetween') (by decide)⟩
    have htext : line.text = front ++ (left ++ (word ++ (right ++ back))) := by
      simp only [hpieces.text, List.append_assoc]
    have hkilled := hpieces.text_killFullWord
    have hupcased := hpieces.text_modify_of_one keepsGaps_upcase hleft hright
    have hdowncased := hpieces.text_modify_of_one keepsGaps_downcase hleft hright
    by_cases hnil : word = []
    · subst hnil
      have hgap := IsRow.gap (List.forall_mem_append.2 ⟨hleft, hright⟩)
      obtain ⟨before, after, hwords, hkept⟩ := hpieces.exists_words hgap
      exact ⟨front, left, [], right, back, before, [], after, htext, hleft, hright,
        .inl ⟨rfl, rfl⟩, hwords, hkept, hkilled, hupcased, hdowncased⟩
    · have hword : IsWordText word := ⟨hnil, hword⟩
      obtain ⟨before, after, hwords, hkept⟩ :=
        hpieces.exists_words (isRow_of_one hleft hword hright)
      exact ⟨front, left, word, right, back, before, [word], after, htext, hleft, hright,
        .inr ⟨rfl, hpieces.isWord_of_one hleft hword hright⟩, hwords, hkept, hkilled, hupcased,
        hdowncased⟩
  · refine ⟨fun hbetween' => absurd (hbetween.symm.trans hbetween') (by decide), fun _ => ?_⟩
    have hne : gap ≠ [] := by
      rintro rfl
      rw [List.append_nil] at hahead
      omega
    obtain ⟨before, after, hwords, hkept⟩ :=
      hpieces.exists_words (isRow_of_two hfirst hgap hne hsecond)
    obtain ⟨hfirstWord, hsecondWord⟩ := hpieces.isWord_of_two hfirst hgap hne hsecond
    obtain ⟨x, y, hxy, hx, hy⟩ := exists_downcase_words first second hgap
    have htext := hpieces.text
    have hupcased := hpieces.text_modify Text.upcase
    have hdowncased := hpieces.text_modify Text.downcase
    rw [Text.upcase_append, keepsGaps_upcase.gap_append _ _ hgap] at hupcased
    rw [hxy] at hdowncased
    simp only [List.append_assoc] at htext hupcased hdowncased
    exact ⟨front, first, gap, second, back, before, after, x, y, htext, hgap, hfirstWord,
      hsecondWord, hbehind, hahead, hwords, hkept, hpieces.text_killFullWord, hupcased, hx, hy,
      hdowncased⟩

/-- Of three words, the last one is left from right behind the first, and both of the others from
inside the second. -/
theorem full_word_commands_act_on_words_at_cursor_behind :
    let line : Line := { text := "aß, cd.e".toList, cursor := 2 }
    let inside : Line := { line with cursor := 5 }
    (line.InBounds ∧ line.betweenWords = true ∧ line.killFullWord.words = ["e".toList] ∧
      line.upcaseWord.text = "ASS, CD.e".toList ∧
      ∃ before first second after, line.words = before ++ first :: second :: after ∧
        line.killFullWord.words = before ++ after) ∧
    (inside.InBounds ∧ inside.betweenWords = false ∧
      inside.killFullWord.words = ["aß".toList, "e".toList] ∧
      inside.upcaseWord.text = "aß, CD.e".toList ∧
      ∃ before touched after, inside.words = before ++ (touched ++ after) ∧
        inside.killFullWord.words = before ++ after) := by
  intro line inside
  have hline : line.InBounds := ⟨by decide, by decide, by simp [line]⟩
  have hinside : inside.InBounds := ⟨by decide, by decide, by simp [line, inside]⟩
  have hbetween : line.betweenWords = true := by decide
  have hword : inside.betweenWords = false := by decide
  obtain ⟨_, first, _, second, _, before, after, _, _, -, -, -, -, -, -, hwords, hkept, -⟩ :=
    (full_word_commands_act_on_words_at_cursor hline).2 hbetween
  obtain ⟨_, _, _, _, _, before', touched, after', -, -, -, -, hwords', hkept', -⟩ :=
    (full_word_commands_act_on_words_at_cursor hinside).1 hword
  exact ⟨⟨hline, hbetween, by decide, by decide +kernel, before, first, second, after, hwords,
    hkept⟩, hinside, hword, by decide, by decide +kernel, before', touched, after', hwords', hkept'⟩

/-- Right behind the first of two words, both are killed and both are put in upper case. -/
theorem two_words_killed_from_between :
    let line : Line := { text := "ab, cd".toList, cursor := 2 }
    line.InBounds ∧ ¬ line.words.length ≤ line.killFullWord.words.length + 1 ∧
      line.killFullWord.text = [] ∧ line.upcaseWord.text = "AB, CD".toList ∧
      ({ text := "AB, CD".toList, cursor := 2 } : Line).downcaseWord.text = "ab, cd".toList := by
  intro line
  refine ⟨⟨by decide, by decide, by simp [line]⟩, by decide, by decide, ?_, ?_⟩
  · decide +kernel
  · decide +kernel

end LineEditor
