import LineEditor.Proofs.Line.Span
import LineEditor.Proofs.Line.WordScans

/-!
# Words and the gaps between them

A line is a row of words, with a gap before the first, one between each two neighbours, and one
after the last. The gaps hold the separators; the first and the last may be empty. The row tells
where the words are, and it stays a row with the same gaps when words are put in the place of
others.
-/

namespace LineEditor

namespace Line

/-- The words of a line, in order. -/
def words (line : Line) : List (List Char) :=
  line.wordSpans.map fun s => s.of line.text

/-- The spans before, between and after words, the first of which begins at an index. -/
def gapSpansFrom (index length : Nat) (words : List Span) : List Span :=
  List.zipWith Span.mk ((index : Int) :: words.map Span.stop)
    (words.map Span.start ++ [(length : Int)])

/-- What stands before the first word of a line, between each two neighbours, and after the last. -/
def gaps (line : Line) : List (List Char) :=
  (gapSpansFrom 0 line.length line.wordSpans).map fun s => s.of line.text

end Line

/-- A text without separators, and not empty. -/
structure IsWordText (word : List Char) : Prop where
  ne : word ≠ []
  wordChar : ∀ c ∈ word, isWordChar c = true

/-- A text is a row of words with gaps around them. -/
inductive IsRow : List Char → List (List Char) → List (List Char) → Prop where
  /-- A gap alone. -/
  | gap {gap : List Char} (hgap : ∀ c ∈ gap, isWordChar c = false) : IsRow gap [gap] []
  /-- A gap, a word that goes on no further, and the rest of the row. -/
  | word {gap word rest : List Char} {gaps words : List (List Char)}
      (hgap : ∀ c ∈ gap, isWordChar c = false) (hword : IsWordText word)
      (hrest : ∀ c ∈ rest.head?, isWordChar c = false) (h : IsRow rest gaps words) :
      IsRow (gap ++ (word ++ rest)) (gap :: gaps) (word :: words)

variable {text front gap word rest : List Char} {gaps words : List (List Char)} {index start : Nat}

theorem exists_isRow (text : List Char) : ∃ gaps words, IsRow text gaps words := by
  rcases readsWord_cases text with ⟨hgap, -, -⟩ | ⟨gap, word, rest, hreads, -, -⟩
  · exact ⟨[text], [], .gap hgap⟩
  · have hlt : rest.length < text.length := by
      have hpos : 0 < word.length := List.length_pos_iff.2 hreads.ne
      rw [hreads.eq, List.length_append, List.length_append]
      omega
    obtain ⟨gaps, words, hrow⟩ := exists_isRow rest
    rw [hreads.eq]
    exact ⟨gap :: gaps, word :: words, .word hreads.gap ⟨hreads.ne, hreads.word⟩ hreads.rest hrow⟩
termination_by text.length

theorem IsRow.isWordText (h : IsRow text gaps words) : ∀ w ∈ words, IsWordText w := by
  induction h with
  | gap => simp
  | word _ hword _ _ ih => exact List.forall_mem_cons.2 ⟨hword, ih⟩

/-! ## One text after another -/

/-- A separator stands before a word unless the text begins with the word. -/
theorem IsWordText.gap_ne_nil (h : IsWordText word)
    (hhead : ∀ c ∈ (gap ++ (word ++ rest)).head?, isWordChar c = false) : gap ≠ [] := by
  rintro rfl
  obtain ⟨c, others, rfl⟩ := List.exists_cons_of_ne_nil h.ne
  have hc := h.wordChar c List.mem_cons_self
  rw [hhead c rfl] at hc
  cases hc

theorem head?_append_gap (hgap : ∀ c ∈ gap, isWordChar c = false)
    (hrest : gap = [] → ∀ c ∈ rest.head?, isWordChar c = false) :
    ∀ c ∈ (gap ++ rest).head?, isWordChar c = false := by
  cases gap with
  | nil => exact hrest rfl
  | cons c gap =>
    intro d hd
    obtain rfl := Option.some.inj hd
    exact hgap c List.mem_cons_self

theorem getLast?_append_gap (hgap : ∀ c ∈ gap, isWordChar c = false)
    (hfront : gap = [] → ∀ c ∈ front.getLast?, isWordChar c = false) :
    ∀ c ∈ (front ++ gap).getLast?, isWordChar c = false := by
  rcases List.eq_nil_or_concat' gap with rfl | ⟨others, c, rfl⟩
  · rw [List.append_nil]
    exact hfront rfl
  · rw [← List.append_assoc, List.getLast?_concat]
    intro d hd
    obtain rfl := Option.some.inj hd
    exact hgap c (by simp)

/-- Where no word goes on from one text to the next, the words of both are the words of the two
together. -/
theorem IsRow.append {gaps' words' : List (List Char)} {text' : List Char}
    (h : IsRow text gaps words) (h' : IsRow text' gaps' words')
    (hcut : (∀ c ∈ text.getLast?, isWordChar c = false) ∨
      ∀ c ∈ text'.head?, isWordChar c = false) :
    ∃ gaps'', IsRow (text ++ text') gaps'' (words ++ words') := by
  induction h with
  | @gap gap hgap =>
    -- The gap is put before the first gap of the second text.
    cases h' with
    | gap hgap' =>
      exact ⟨[gap ++ text'], .gap fun c hc => (List.mem_append.1 hc).elim (hgap c) (hgap' c)⟩
    | @word gap' word rest gaps' words' hgap' hword hrest h' =>
      rw [← List.append_assoc]
      refine ⟨(gap ++ gap') :: gaps', .word (fun c hc => ?_) hword hrest h'⟩
      exact (List.mem_append.1 hc).elim (hgap c) (hgap' c)
  | @word gap word rest gaps words hgap hword hrest h ih =>
    have hnext : ∀ c ∈ (rest ++ text').head?, isWordChar c = false := by
      cases rest with
      | nil =>
        -- The word ends the first text, so the second one has to begin with a separator.
        refine hcut.resolve_left fun hlast => ?_
        obtain ⟨others, c, rfl⟩ := (List.eq_nil_or_concat' word).resolve_left hword.ne
        have hc := hword.wordChar c (by simp)
        rw [hlast c (by simp)] at hc
        cases hc
      | cons c rest => exact hrest
    have hcut' : (∀ c ∈ rest.getLast?, isWordChar c = false) ∨
        ∀ c ∈ text'.head?, isWordChar c = false := by
      refine hcut.imp_left fun hlast c hc => hlast c ?_
      rw [List.getLast?_append, List.getLast?_append, Option.mem_def.1 hc]
      rfl
    obtain ⟨gaps'', hrow⟩ := ih hcut'
    refine ⟨gap :: gaps'', ?_⟩
    rw [List.append_assoc, List.append_assoc]
    exact .word hgap hword hnext hrow

/-! ## The spans of a row -/

theorem wordSpansFrom_gap (hgap : ∀ c ∈ gap, isWordChar c = false) (rest : List Char) :
    wordSpansFrom index none (gap ++ rest) = wordSpansFrom (index + gap.length) none rest := by
  induction gap generalizing index with
  | nil => rfl
  | cons c gap ih =>
    have hc : ¬ isWordChar c = true := by rw [hgap c List.mem_cons_self]; decide
    rw [List.cons_append, wordSpansFrom, if_neg hc,
      ih fun d hd => hgap d (List.mem_cons_of_mem _ hd), List.length_cons, Nat.add_assoc,
      Nat.add_comm 1]

/-- A word that has begun goes on to the first separator. -/
theorem wordSpansFrom_opened (hword : ∀ c ∈ word, isWordChar c = true)
    (hrest : ∀ c ∈ rest.head?, isWordChar c = false) :
    wordSpansFrom index (some start) (word ++ rest) =
      ⟨start, (index + word.length : Nat)⟩ :: wordSpansFrom (index + word.length) none rest := by
  induction word generalizing index with
  | nil =>
    cases rest with
    | nil => rfl
    | cons c rest =>
      have hc : ¬ isWordChar c = true := by rw [hrest c rfl]; decide
      rw [List.nil_append, wordSpansFrom, if_neg hc, List.length_nil, Nat.add_zero, wordSpansFrom,
        if_neg hc]
  | cons c word ih =>
    rw [List.cons_append, wordSpansFrom, if_pos (hword c List.mem_cons_self), Option.getD_some,
      ih fun d hd => hword d (List.mem_cons_of_mem _ hd), List.length_cons, Nat.add_assoc,
      Nat.add_comm 1]

theorem wordSpansFrom_word (hgap : ∀ c ∈ gap, isWordChar c = false) (hword : IsWordText word)
    (hrest : ∀ c ∈ rest.head?, isWordChar c = false) :
    wordSpansFrom index none (gap ++ (word ++ rest)) =
      ⟨(index + gap.length : Nat), (index + gap.length + word.length : Nat)⟩ ::
        wordSpansFrom (index + gap.length + word.length) none rest := by
  obtain ⟨c, others, rfl⟩ := List.exists_cons_of_ne_nil hword.ne
  have hothers : ∀ d ∈ others, isWordChar d = true :=
    fun d hd => hword.wordChar d (List.mem_cons_of_mem _ hd)
  rw [wordSpansFrom_gap hgap, List.cons_append, wordSpansFrom,
    if_pos (hword.wordChar c List.mem_cons_self), Option.getD_none,
    wordSpansFrom_opened hothers hrest, List.length_cons]
  congr 2 <;> simp only [Nat.add_assoc, Nat.add_comm 1]

/-- The spans of a row hold its words, and the spans between them its gaps. -/
theorem IsRow.map_of_spans (h : IsRow rest gaps words) (htext : text = front ++ rest) :
    (wordSpansFrom front.length none rest).map (fun s => s.of text) = words ∧
      (Line.gapSpansFrom front.length text.length (wordSpansFrom front.length none rest)).map
        (fun s => s.of text) = gaps := by
  -- By induction on the row that is left, with what has been read of the text as `front`.
  induction h generalizing front with
  | @gap gap hgap =>
    have hspans : wordSpansFrom front.length none gap = [] := by
      rw [← List.append_nil gap]
      exact wordSpansFrom_gap hgap []
    have htext' : text = front ++ (gap ++ []) := by rw [htext, List.append_nil]
    have hlength : (text.length : Int) = front.length + gap.length := by
      rw [htext, List.length_append, Int.natCast_add]
    rw [hspans]
    refine ⟨rfl, ?_⟩
    show [Span.of ⟨front.length, text.length⟩ text] = [gap]
    rw [Span.of_piece htext' rfl hlength]
  | @word gap word rest gaps words hgap hword hrest _ ih =>
    have hword' : text = (front ++ gap) ++ (word ++ rest) := by rw [htext, List.append_assoc]
    have hrest' : text = (front ++ gap ++ word) ++ rest := by
      rw [hword', ← List.append_assoc]
    obtain ⟨hwords, hgaps⟩ := ih hrest'
    have hstart : (front ++ gap).length = front.length + gap.length := List.length_append
    have hstop : (front ++ gap ++ word).length = front.length + gap.length + word.length := by
      rw [List.length_append, hstart]
    rw [hstop] at hwords hgaps
    rw [wordSpansFrom_word hgap hword hrest]
    constructor
    · rw [List.map_cons, hwords, ← hstart, Span.of_piece hword' rfl (Int.natCast_add _ _)]
    · show Span.of ⟨front.length, (front.length + gap.length : Nat)⟩ text ::
        (Line.gapSpansFrom (front.length + gap.length + word.length) text.length _).map _ =
        gap :: gaps
      rw [hgaps, Span.of_piece htext rfl (Int.natCast_add _ _)]

theorem IsRow.words_and_gaps {line : Line} (h : IsRow line.text gaps words) :
    line.words = words ∧ line.gaps = gaps :=
  h.map_of_spans (List.nil_append line.text).symm

/-! ## Putting other words into a row -/

theorem head?_append_word {between a b back back' : List Char} (ha : IsWordText a)
    (h : ∀ c ∈ (between ++ (a ++ back)).head?, isWordChar c = false) :
    ∀ c ∈ (between ++ (b ++ back')).head?, isWordChar c = false := by
  cases between with
  -- With nothing between them the first of the two would go on with the second.
  | nil => exact absurd rfl (ha.gap_ne_nil h)
  | cons c between => exact h

/-- Two neighbours in a row cut its text in five, and with two other words in their place it is
again a row, with the same gaps and the same words before and after them. The spans of the two words
are where these stand. -/
theorem IsRow.exists_pieces {before after : List (List Char)} {a b : List Char}
    (h : IsRow text gaps (before ++ a :: b :: after)) :
    ∃ front between back, text = front ++ (a ++ (between ++ (b ++ back))) ∧
      ∀ x y, IsWordText x → IsWordText y →
        IsRow (front ++ (x ++ (between ++ (y ++ back)))) gaps (before ++ x :: y :: after) ∧
          ∀ index, ∃ others,
            (wordSpansFrom index none (front ++ (x ++ (between ++ (y ++ back))))).drop
                before.length =
              ⟨(index + front.length : Nat), (index + front.length + x.length : Nat)⟩ ::
                ⟨(index + front.length + x.length + between.length : Nat),
                  (index + front.length + x.length + between.length + y.length : Nat)⟩ ::
                others := by
  -- By induction on the words before the two: each of them, with its gap, goes to `front`.
  induction before generalizing text gaps with
  | nil =>
    rw [List.nil_append] at h
    cases h with
    | @word front a rest gaps words hfront ha hrest h =>
      cases h with
      | @word between b back gaps words hbetween hb hback h =>
        refine ⟨front, between, back, rfl, fun x y hx hy => ?_⟩
        have hgap : ∀ c ∈ (between ++ (y ++ back)).head?, isWordChar c = false :=
          head?_append_word hb hrest
        refine ⟨.word hfront hx hgap (.word hbetween hy hback h), fun index => ?_⟩
        rw [wordSpansFrom_word hfront hx hgap, wordSpansFrom_word hbetween hy hback]
        exact ⟨_, rfl⟩
  | cons w before ih =>
    rw [List.cons_append] at h
    cases h with
    | @word gap w rest gaps words hgap hw hrest h =>
      have ha : IsWordText a := h.isWordText a (by simp)
      obtain ⟨front, between, back, rfl, hothers⟩ := ih h
      refine ⟨gap ++ (w ++ front), between, back, by simp, fun x y hx hy => ?_⟩
      obtain ⟨hrow, hspans⟩ := hothers x y hx hy
      have hnext : ∀ c ∈ (front ++ (x ++ (between ++ (y ++ back)))).head?, isWordChar c = false :=
        head?_append_word ha hrest
      have htext : (gap ++ (w ++ front)) ++ (x ++ (between ++ (y ++ back))) =
          gap ++ (w ++ (front ++ (x ++ (between ++ (y ++ back))))) := by
        simp only [List.append_assoc]
      rw [htext]
      refine ⟨.word hgap hw hnext hrow, fun index => ?_⟩
      obtain ⟨others, hdrop⟩ := hspans (index + gap.length + w.length)
      refine ⟨others, ?_⟩
      rw [wordSpansFrom_word hgap hw hnext, List.length_cons, List.drop_succ_cons, hdrop]
      simp only [List.length_append, Nat.add_assoc]

end LineEditor
