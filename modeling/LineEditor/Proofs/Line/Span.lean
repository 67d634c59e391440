import LineEditor.Line.Basic

/-!
# Spans within a text

A span that lies within a text is plain slicing: no place is counted back from the end, and none is
past it. What is deleted then is exactly as long as the span.
-/

namespace LineEditor

/-- A span lies within a text of the given length. -/
structure Span.Within (s : Span) (length : Nat) : Prop where
  /-- It does not begin before the text. -/
  start_nonneg : 0 ≤ s.start
  /-- It does not end before it begins. -/
  start_le : s.start ≤ s.stop
  /-- It does not end past the text. -/
  stop_le : s.stop ≤ length

/-- A place within a text is its own offset. -/
theorem offset_of_within {length : Nat} {place : Int} (h0 : 0 ≤ place) (h : place ≤ length) :
    offset length place = place.toNat := by
  unfold offset
  rw [if_neg (by omega)]
  omega

namespace Span

variable {s : Span} {text : List Char}

theorem Within.start_le_length {length : Nat} (h : s.Within length) : s.start ≤ length :=
  Int.le_trans h.start_le h.stop_le

theorem Within.stop_nonneg {length : Nat} (h : s.Within length) : 0 ≤ s.stop :=
  Int.le_trans h.start_nonneg h.start_le

/-- The characters on a span are a slice of the text. -/
theorem Within.of_eq (h : s.Within text.length) :
    s.of text = (text.take s.stop.toNat).drop s.start.toNat := by
  unfold Span.of
  rw [offset_of_within h.stop_nonneg h.stop_le, offset_of_within h.start_nonneg h.start_le_length]

theorem Within.length_of (h : s.Within text.length) :
    ((s.of text).length : Int) = s.stop - s.start := by
  obtain ⟨h0, h1, h2⟩ := h
  rw [Within.of_eq ⟨h0, h1, h2⟩, List.length_drop, List.length_take]
  omega

/-- Replacing a span keeps the text on either side of it. -/
theorem Within.replace_eq (h : s.Within text.length) (new : List Char) :
    s.replace text new = text.take s.start.toNat ++ (new ++ text.drop s.stop.toNat) := by
  have hle := h.start_le
  unfold Span.replace
  rw [offset_of_within h.stop_nonneg h.stop_le, offset_of_within h.start_nonneg h.start_le_length]
  simp only [show max s.start.toNat s.stop.toNat = s.stop.toNat by omega]

theorem Within.length_replace (h : s.Within text.length) (new : List Char) :
    ((s.replace text new).length : Int) = text.length - (s.stop - s.start) + new.length := by
  obtain ⟨h0, h1, h2⟩ := h
  rw [Within.replace_eq ⟨h0, h1, h2⟩, List.length_append, List.length_append, List.length_take,
    List.length_drop]
  omega

/-! ## Pieces of a text -/

variable {front piece back : List Char} {start stop : Int}

theorem within_of_piece (htext : text = front ++ (piece ++ back)) (hstart : start = front.length)
    (hstop : stop = front.length + piece.length) : Span.Within ⟨start, stop⟩ text.length := by
  have hlength : text.length = front.length + (piece.length + back.length) := by
    rw [htext, List.length_append, List.length_append]
  refine ⟨?_, ?_, ?_⟩ <;> simp only <;> omega

/-- The span of a piece of a text holds that piece. -/
theorem of_piece (htext : text = front ++ (piece ++ back)) (hstart : start = front.length)
    (hstop : stop = front.length + piece.length) : Span.of ⟨start, stop⟩ text = piece := by
  have hstart' : start.toNat = front.length := by omega
  have hstop' : stop.toNat = front.length + piece.length := by omega
  rw [(within_of_piece htext hstart hstop).of_eq]
  dsimp only
  rw [hstart', hstop', htext, List.take_length_add_append, List.drop_left, List.take_left]

/-- Replacing the span of a piece puts something else in the place of that piece. -/
theorem replace_piece (htext : text = front ++ (piece ++ back)) (hstart : start = front.length)
    (hstop : stop = front.length + piece.length) (new : List Char) :
    Span.replace ⟨start, stop⟩ text new = front ++ (new ++ back) := by
  have hstart' : start.toNat = front.length := by omega
  have hstop' : stop.toNat = front.length + piece.length := by omega
  rw [(within_of_piece htext hstart hstop).replace_eq]
  dsimp only
  rw [hstart', hstop', htext, List.take_left, List.drop_length_add_append, List.drop_left]

/-- Replacing the empty span between two pieces puts something between them. -/
theorem replace_empty (front back new : List Char) :
    Span.replace ⟨front.length, front.length⟩ (front ++ back) new = front ++ (new ++ back) := by
  have htext : front ++ back = front ++ ([] ++ back) := rfl
  exact replace_piece htext rfl (Int.add_zero _).symm new

/-- A span within a text cuts it in three, and only what stands on the span is replaced with it. -/
theorem Within.exists_pieces (h : s.Within text.length) :
    ∃ front back, text = front ++ (s.of text ++ back) ∧ s.start = front.length ∧
      s.stop = front.length + (s.of text).length ∧
      ∀ new, s.replace text new = front ++ (new ++ back) := by
  have hlen := h.length_of
  have hof := h.of_eq
  obtain ⟨h0, h1, h2⟩ := h
  have hfront : (text.take s.start.toNat).length = s.start.toNat := by
    rw [List.length_take]
    omega
  have htake : text.take s.start.toNat = (text.take s.stop.toNat).take s.start.toNat := by
    rw [List.take_take, Nat.min_eq_left (by omega)]
  refine ⟨text.take s.start.toNat, text.drop s.stop.toNat, ?_, by omega, by omega,
    Within.replace_eq ⟨h0, h1, h2⟩⟩
  rw [hof, htake, ← List.append_assoc, List.take_append_drop, List.take_append_drop]

/-- An empty span holds nothing, and deleting it leaves the text as it is. -/
theorem Within.of_empty {place : Int} (h : Span.Within ⟨place, place⟩ text.length) :
    Span.of ⟨place, place⟩ text = [] ∧ Span.replace ⟨place, place⟩ text [] = text := by
  obtain ⟨front, back, htext, hstart, hstop, hreplace⟩ := h.exists_pieces
  have hnil : Span.of ⟨place, place⟩ text = [] := by
    refine List.length_eq_zero_iff.1 ?_
    dsimp only at hstart hstop
    omega
  refine ⟨hnil, (hreplace []).trans ?_⟩
  rw [hnil] at htext
  exact htext.symm

/-! ## Any span -/

/-- The characters on a span are characters of the text, in their order. -/
theorem of_sublist (s : Span) (text : List Char) : (s.of text).Sublist text :=
  (List.drop_sublist _ _).trans (List.take_sublist _ _)

/-- Deleting a span, even one that ends before it begins, leaves characters of the text in their
order. -/
theorem replace_nil_sublist (s : Span) (text : List Char) : (s.replace text []).Sublist text := by
  have hle : offset text.length s.start ≤
      max (offset text.length s.start) (offset text.length s.stop) := Nat.le_max_left _ _
  have hkept := List.drop_sublist_drop_left text hle
  calc (s.replace text []).Sublist
        (text.take (offset text.length s.start) ++ text.drop (offset text.length s.start)) :=
        (List.Sublist.refl _).append hkept
    _ = text := List.take_append_drop _ _

end Span

end LineEditor
