import LineEditor.Proofs.Line.Sides
import LineEditor.Proofs.Line.WordEdges

/-!
# Setting the case of a part of a line

Setting the case of a span may make the line longer, and the mark may be brought back onto the line,
so that the same command means another span the second time. It has no effect then: as much text as
before stands before that span and after it, so all its characters are settled.
-/

namespace LineEditor

variable {settled : Char → Prop} {f : List Char → List Char} {line next : Line} {s t : Span}
  {front piece new back : List Char} {c d : Char}

theorem Span.Within.replace_of {text : List Char} (h : s.Within text.length) :
    s.replace text (s.of text) = text := by
  obtain ⟨front, back, htext, -, -, hreplace⟩ := h.exists_pieces
  exact (hreplace _).trans htext.symm

/-- What is on a span that lies in a piece of a text is from that piece. -/
theorem Span.Within.mem_piece {text : List Char} (h : s.Within text.length)
    (htext : text = front ++ (piece ++ back)) (hstart : front.length ≤ s.start)
    (hstop : s.stop ≤ front.length + piece.length) (hc : c ∈ s.of text) : c ∈ piece := by
  rw [h.of_eq] at hc
  obtain ⟨i, hi⟩ := List.mem_iff_getElem?.1 hc
  rw [List.getElem?_drop] at hi
  have hlt := (List.getElem?_eq_some_iff.1 hi).1
  rw [List.length_take] at hlt
  obtain ⟨d, hd, hget⟩ :=
    exists_mem_piece (p := (s.start.toNat + i : Nat)) htext (by omega) (by omega)
  rw [Int.toNat_natCast] at hget
  rw [List.getElem?_take_of_lt (by omega), hget] at hi
  exact Option.some.inj hi ▸ hd

namespace Line

theorem InBounds.clamp_eq_self (h : line.InBounds) (hmark : ∀ m ∈ line.mark, m ≤ line.length) :
    line.clamp = line := by
  obtain ⟨h0, h1, hm⟩ := h
  have hcursor : max 0 (min line.cursor (line.length : Int)) = line.cursor := by omega
  have hkept : (line.mark.map fun m => max 0 (min m (line.length : Int))) = line.mark := by
    cases hline : line.mark with
    | none => rfl
    | some m =>
      have hle := hmark m hline
      have hnonneg := hm m hline
      rw [Option.map_some]
      congr 1
      omega
  rw [clamp, hcursor, hkept]

theorem clamp_clamp (line : Line) : line.clamp.clamp = line.clamp := by
  refine (inBounds_clamp line).clamp_eq_self fun m hm => ?_
  obtain ⟨n, -, rfl⟩ := Option.map_eq_some_iff.1 hm
  show max 0 (min n (line.length : Int)) ≤ line.length
  omega

/-! ## A span -/

/-- The line does not become shorter, so the cursor does not have to move. -/
theorem InBounds.cursor_modify (hf : SetsCase f settled) (h : line.InBounds)
    (hs : s.Within line.length) : (line.modify s f).cursor = line.cursor := by
  have h0 := h.cursor_nonneg
  have h1 := h.cursor_le
  have hle := length_le_length_modify hf hs
  show max 0 (min line.cursor ((line.modify s f).length : Int)) = line.cursor
  omega

/-- A span with so much text before it and after it as there was before and after one whose case has
been set has only settled characters. -/
theorem modify_modify (hf : SetsCase f settled) (hs : s.Within line.length)
    (ht : t.Within (line.modify s f).length) (hstart : s.start ≤ t.start)
    (hstop : line.length - s.stop ≤ (line.modify s f).length - t.stop) :
    (line.modify s f).modify t f = line.modify s f := by
  obtain ⟨front, piece, back, htext, hfront, hpiece, htext'⟩ := modify_pieces hs f
  have hlength := congrArg List.length htext
  have hlength' := congrArg List.length htext'
  rw [List.length_append, List.length_append] at hlength hlength'
  unfold length at hstop
  have hsettled : ∀ c ∈ t.of (line.modify s f).text, settled c := by
    intro c hc
    exact (hf.maps piece).settled_of_mem (ht.mem_piece htext' (by omega) (by omega) hc)
  rw [modify, hf.keeps _ hsettled, ht.replace_of]
  exact clamp_clamp { line with text := s.replace line.text (f (s.of line.text)) }

/-! ## The region -/

/-- Between the cursor and the mark as much text stands before the region and after it as before the
line has grown. A mark past the end is brought back to the new end, and the region reached as far as
the old one. -/
theorem InBounds.region_grown (h : line.InBounds) (hcursor : next.cursor = line.cursor)
    (hmark : next.mark = line.mark.map fun m => max 0 (min m (next.length : Int)))
    (hle : line.length ≤ next.length) :
    line.region.start ≤ next.region.start ∧
      line.length - line.region.stop ≤ next.length - next.region.stop := by
  have h0 := h.cursor_nonneg
  have h1 := h.cursor_le
  unfold region
  rw [hcursor, hmark]
  cases hline : line.mark with
  | none =>
    dsimp only [Option.map_none]
    omega
  | some m =>
    have hnonneg := h.mark_nonneg m hline
    dsimp only [Option.map_some]
    omega

theorem InBounds.modify_region_modify_region (hf : SetsCase f settled) (h : line.InBounds) :
    (line.modify line.region f).modify (line.modify line.region f).region f =
      line.modify line.region f := by
  have hs := h.region_within
  have ht := (inBounds_modify line.region f line).region_within
  obtain ⟨hstart, hstop⟩ :=
    h.region_grown (h.cursor_modify hf hs) rfl (length_le_length_modify hf hs)
  exact modify_modify hf hs ht hstart hstop

/-! ## The character at the cursor -/

theorem InBounds.modifyChar_modifyChar (hf : SetsCase f settled) (h : line.InBounds) :
    (line.modifyChar f).modifyChar f = line.modifyChar f := by
  by_cases hat : line.atCharacter = true
  · have hlt : line.cursor < line.length := of_decide_eq_true hat
    have hs : Span.Within ⟨line.cursor, line.cursor + 1⟩ line.length :=
      h.ahead_within (by omega) hlt
    have hle := length_le_length_modify hf hs
    have hlt' : line.cursor < (line.modify ⟨line.cursor, line.cursor + 1⟩ f).length := by omega
    have ht : Span.Within ⟨line.cursor, line.cursor + 1⟩
        (line.modify ⟨line.cursor, line.cursor + 1⟩ f).length :=
      ⟨hs.start_nonneg, hs.start_le, hlt'⟩
    have hmodified : line.modifyChar f = line.modify ⟨line.cursor, line.cursor + 1⟩ f := if_pos hat
    rw [hmodified, Line.modifyChar, atCharacter, h.cursor_modify hf hs,
      if_pos (decide_eq_true hlt')]
    exact modify_modify hf hs ht (Int.le_refl _) (by dsimp only; omega)
  · have hkept : line.modifyChar f = line := if_neg hat
    rw [hkept, hkept]

/-! ## The whole line and the clips -/

theorem modifyText_modifyText (hf : SetsCase f settled) (line : Line) :
    (line.modifyText f).modifyText f = line.modifyText f := by
  have htext : f (line.modifyText f).text = (line.modifyText f).text := hf.idempotent line.text
  rw [modifyText, htext]
  exact clamp_clamp { line with text := f line.text }

theorem modifyClip_modifyClip (hf : ∀ s, f (f s) = f s) (line : Line) :
    (line.modifyClip f).modifyClip f = line.modifyClip f := by
  obtain ⟨text, cursor, mark, clips, done⟩ := line
  cases clips with
  | nil => rfl
  | cons top below =>
    show Line.mk text cursor mark (f (f top) :: below) done = _
    rw [hf top]
    rfl

/-! ## Words -/

/-- Setting the case of a piece that begins where the scan behind came to does not let it come
further left. -/
theorem wordStart_le_of_caseMapped (h0 : 0 ≤ line.cursor)
    (htext : line.text = front ++ (piece ++ back)) (hstart : line.wordStart = front.length)
    (hmapped : CaseMapped settled piece new) (htext' : next.text = front ++ (new ++ back))
    (hcursor : next.cursor = line.cursor) : line.wordStart ≤ next.wordStart := by
  have h0' : 0 ≤ next.cursor := by omega
  rcases wordStart_cases h0 with ⟨hbegins, hle, -⟩ | ⟨hzero, -⟩
  · have hbegins' : WordStartAt next.text line.wordStart := by
      rw [hstart, htext] at hbegins
      rw [htext', hstart]
      exact (hmapped.wordStartAt_iff front back).2 hbegins
    rcases wordStart_cases h0' with ⟨-, -, hlast⟩ | ⟨-, hnone⟩
    · exact hlast _ hbegins' (by omega)
    · have hlt := hnone _ hbegins'
      omega
  · have hbounds := wordStart_bounds h0'
    omega

/-- One that ends where the scan ahead came to does not let it come nearer to the end of the
line. -/
theorem wordEnd_le_of_caseMapped (h : line.InBounds) (hnext : next.InBounds)
    (htext : line.text = front ++ (piece ++ back))
    (hstop : line.wordEnd = front.length + piece.length) (hmapped : CaseMapped settled piece new)
    (htext' : next.text = front ++ (new ++ back)) (hcursor : next.cursor = line.cursor) :
    line.length - line.wordEnd ≤ next.length - next.wordEnd := by
  have h0 := hnext.cursor_nonneg
  have h1 := hnext.cursor_le
  have hle := hmapped.length_le
  have hlength : line.length = front.length + (piece.length + back.length) := by
    rw [length, htext, List.length_append, List.length_append]
  have hlength' : next.length = front.length + (new.length + back.length) := by
    rw [length, htext', List.length_append, List.length_append]
  have hcut : (front ++ piece).length = front.length + piece.length := List.length_append
  have hcut' : (front ++ new).length = front.length + new.length := List.length_append
  rcases wordEnd_cases h.cursor_nonneg h.cursor_le with ⟨hends, hlt, -⟩ | ⟨hend, -⟩
  · have hplace : line.wordEnd = (front ++ piece).length := by omega
    have hends' : WordStopAt next.text (front ++ new).length := by
      rw [hplace, htext, ← List.append_assoc] at hends
      rw [htext', ← List.append_assoc]
      exact (hmapped.wordStopAt_iff front back).2 hends
    rcases wordEnd_cases h0 h1 with ⟨-, -, hfirst⟩ | ⟨-, hnone⟩
    · have hfirst' := hfirst _ hends' (by omega)
      omega
    · have hpast := hnone _ hends'
      omega
  · have hbounds := wordEnd_bounds h0 h1
    omega

theorem InBounds.modify_wordSpan_modify_wordSpan (hf : SetsCase f settled) (h : line.InBounds) :
    (line.modify line.wordSpan f).modify (line.modify line.wordSpan f).wordSpan f =
      line.modify line.wordSpan f := by
  have hs := h.wordSpan_within
  have hnext := inBounds_modify line.wordSpan f line
  have hcursor := h.cursor_modify hf hs
  obtain ⟨front, piece, back, htext, hstart, hstop, htext'⟩ := modify_pieces hs f
  refine modify_modify hf hs hnext.wordSpan_within ?_ ?_
  · exact wordStart_le_of_caseMapped h.cursor_nonneg htext hstart (hf.maps piece) htext' hcursor
  · exact wordEnd_le_of_caseMapped h hnext htext hstop (hf.maps piece) htext' hcursor

/-! ## The first character of a word -/

/-- If the character that the scan behind came to becomes several, the scan comes to the first of
them: no other word begins between them and the cursor, even if there are more characters now. -/
theorem wordStart_eq_of_expanded (h0 : 0 ≤ line.cursor) (htext : line.text = front ++ ([c] ++ back))
    (hstart : line.wordStart = front.length) (hmapped : CaseMapped settled [c] new)
    (htext' : next.text = front ++ (new ++ back)) (hcursor : next.cursor = line.cursor) :
    next.wordStart = line.wordStart := by
  have hpos := hmapped.length_le
  rw [List.length_singleton] at hpos
  refine Int.le_antisymm ?_
    (wordStart_le_of_caseMapped h0 htext hstart hmapped htext' hcursor)
  have h0' : 0 ≤ next.cursor := by omega
  rcases wordStart_cases h0' with ⟨hbegins, hle, -⟩ | ⟨hzero, -⟩
  · by_contra hlt
    rw [htext'] at hbegins
    obtain ⟨hbehind, horigin⟩ :=
      wordStartAt_of_expanded (fun _ => hmapped.isWordChar_of_mem) hbegins (by omega)
    rw [← List.singleton_append, ← htext] at horigin
    rcases wordStart_cases h0 with ⟨-, -, hlast⟩ | ⟨-, hnone⟩
    · have hbefore := hlast _ horigin (by omega)
      omega
    · have hpast := hnone _ horigin
      omega
  · have hbounds := wordStart_bounds h0
    omega

theorem InBounds.wordStart_capitalizeWord (h : line.InBounds) :
    line.capitalizeWord.wordStart = line.wordStart := by
  obtain ⟨h0, h1⟩ := wordStart_bounds h.cursor_nonneg
  have hmoved := h.withCursor h0 (Int.le_trans h1 h.cursor_le)
  by_cases hat : ({ line with cursor := line.wordStart } : Line).atCharacter = true
  · have hs : Span.Within ⟨line.wordStart, line.wordStart + 1⟩ line.length :=
      hmoved.ahead_within (Int.le_add_one (Int.le_refl _)) (of_decide_eq_true hat)
    obtain ⟨front, piece, back, htext, hstart, hstop, htext'⟩ := modify_pieces hs Text.upcase
    have hone : piece.length = 1 := by
      dsimp only at hstart hstop
      omega
    obtain ⟨c, rfl⟩ := List.length_eq_one_iff.1 hone
    refine wordStart_eq_of_expanded h.cursor_nonneg htext hstart (setsCase_upcase.maps [c]) ?_ rfl
    rw [Line.capitalizeWord, upcaseChar, Line.modifyChar, if_pos hat]
    exact htext'
  · have hkept : line.capitalizeWord = line := by
      rw [Line.capitalizeWord, upcaseChar, Line.modifyChar, if_neg hat]
    rw [hkept]

theorem InBounds.capitalizeWord_capitalizeWord (h : line.InBounds) :
    line.capitalizeWord.capitalizeWord = line.capitalizeWord := by
  obtain ⟨h0, h1⟩ := wordStart_bounds h.cursor_nonneg
  let moved : Line := { line with cursor := line.wordStart }
  have hmoved : moved.InBounds := h.withCursor h0 (Int.le_trans h1 h.cursor_le)
  have hcursor : moved.upcaseChar.cursor = line.wordStart := (hmoved.take_modifyChar Text.upcase).1
  have hback : ({ line.capitalizeWord with cursor := line.wordStart } : Line) = moved.upcaseChar :=
    congrArg (fun place => { moved.upcaseChar with cursor := place }) hcursor.symm
  have hagain : moved.upcaseChar.upcaseChar = moved.upcaseChar :=
    hmoved.modifyChar_modifyChar setsCase_upcase
  rw [Line.capitalizeWord, h.wordStart_capitalizeWord, hback, hagain]
  rfl

end Line

end LineEditor
