import LineEditor.Line.Whole
import LineEditor.Line.WordEdit
import LineEditor.Proofs.Line.Span
import LineEditor.Proofs.Line.WordBounds

/-!
# Transposing

The three transpositions swap two characters, swap two words around what is between them, and move
the start of the line to its end. Each puts the characters of the line in another order, wherever
the cursor stands: none of them is lost or doubled.
-/

namespace LineEditor

namespace Span

variable {s : Span} {text new : List Char}

/-- Two spans of which the second begins where the first ends hold the characters of both. -/
theorem of_append_of {start middle stop : Int} (hfirst : Span.Within ⟨start, middle⟩ text.length)
    (hsecond : Span.Within ⟨middle, stop⟩ text.length) :
    Span.of ⟨start, middle⟩ text ++ Span.of ⟨middle, stop⟩ text = Span.of ⟨start, stop⟩ text := by
  obtain ⟨h0, h1, -⟩ := hfirst
  obtain ⟨-, h2, h3⟩ := hsecond
  have hboth : Span.Within ⟨start, stop⟩ text.length := ⟨h0, Int.le_trans h1 h2, h3⟩
  simp only at h0 h1 h2 h3
  rw [Within.of_eq ⟨h0, h1, by simp only; omega⟩, Within.of_eq ⟨by simp only; omega, h2, h3⟩,
    hboth.of_eq]
  simp only
  have htake : text.take middle.toNat = (text.take stop.toNat).take middle.toNat := by
    rw [List.take_take, Nat.min_eq_left (by omega)]
  have hle : start.toNat ≤ ((text.take stop.toNat).take middle.toNat).length := by
    rw [List.length_take, List.length_take]
    omega
  rw [htake, ← List.drop_append_of_le_length hle, List.take_append_drop]

/-- What stands on a span may be put in another order without changing which characters the text
has. -/
theorem Within.replace_perm (h : s.Within text.length) (hnew : new.Perm (s.of text)) :
    (s.replace text new).Perm text := by
  obtain ⟨front, back, htext, -, -, hreplace⟩ := h.exists_pieces
  calc (s.replace text new).Perm (front ++ (s.of text ++ back)) := by
        rw [hreplace]
        exact (hnew.append_right back).append_left front
    _ = text := htext.symm

end Span

namespace Line

variable {line : Line}

/-- Words that follow one another lie within the line, and the second begins after the first
ends. -/
theorem within_of_drop_wordSpans {index : Nat} {first second : Span} {rest : List Span}
    (hdrop : line.wordSpans.drop index = first :: second :: rest) :
    first.Within line.text.length ∧ second.Within line.text.length ∧
      first.stop < second.start := by
  have hmem : ∀ s ∈ first :: second :: rest, s ∈ line.wordSpans := by
    intro s hs
    rw [← hdrop] at hs
    exact List.mem_of_mem_drop hs
  obtain ⟨hf0, hf1, hf2⟩ := bounds_of_mem_wordSpans (hmem first (by simp))
  obtain ⟨hs0, hs1, hs2⟩ := bounds_of_mem_wordSpans (hmem second (by simp))
  have hpairs := (pairwise_wordSpans line).drop (i := index)
  rw [hdrop] at hpairs
  have hlt : first.stop < second.start := (List.pairwise_cons.1 hpairs).1 second (by simp)
  exact ⟨⟨hf0, Int.le_of_lt hf1, hf2⟩, ⟨hs0, Int.le_of_lt hs1, hs2⟩, hlt⟩

theorem transposeChars_perm (line : Line) : line.transposeChars.text.Perm line.text := by
  unfold transposeChars
  extract_lets place first
  split
  · rename_i a b rest hdrop
    calc (line.text.take first ++ b :: a :: rest).Perm (line.text.take first ++ a :: b :: rest) :=
          (List.Perm.swap a b rest).append_left _
      _ = line.text := by rw [← hdrop, List.take_append_drop]
  · exact .refl _

/-- The swapped words and what is between them are the span from the first to the second. -/
theorem transposeWords_perm (line : Line) : line.transposeWords.text.Perm line.text := by
  unfold transposeWords
  extract_lets spans index
  split
  · rename_i first second rest hdrop
    obtain ⟨hfirst, hsecond, hlt⟩ := within_of_drop_wordSpans hdrop
    have hbetween : Span.Within ⟨first.stop, second.start⟩ line.text.length :=
      ⟨hfirst.stop_nonneg, Int.le_of_lt hlt, hsecond.start_le_length⟩
    have hrest : Span.Within ⟨first.stop, second.stop⟩ line.text.length :=
      ⟨hfirst.stop_nonneg, Int.le_trans hbetween.start_le hsecond.start_le, hsecond.stop_le⟩
    have hboth : Span.Within ⟨first.start, second.stop⟩ line.text.length :=
      ⟨hfirst.start_nonneg, Int.le_trans hfirst.start_le hrest.start_le, hsecond.stop_le⟩
    extract_lets between both swapped
    have hswapped : swapped.Perm (both.of line.text) := by
      calc swapped.Perm (first.of line.text ++ (second.of line.text ++ between.of line.text)) :=
            List.perm_append_comm
        _ |>.Perm (first.of line.text ++ (between.of line.text ++ second.of line.text)) :=
            List.perm_append_comm.append_left _
        _ = both.of line.text := by
            rw [Span.of_append_of hbetween hsecond, Span.of_append_of hfirst hrest]
    exact hboth.replace_perm hswapped
  · exact .refl _

theorem transpose_perm (line : Line) : line.transpose.text.Perm line.text := by
  unfold transpose
  extract_lets count moved kept
  have hmoved : (moved.getLast?.toList ++ moved.dropLast).Perm moved := by
    rcases List.eq_nil_or_concat moved with hnil | ⟨front, c, hconcat⟩
    · rw [hnil]
      exact .refl _
    · have hlast : moved.getLast?.toList ++ moved.dropLast = [c] ++ front := by
        rw [hconcat]
        simp
      rw [hlast, hconcat, List.concat_eq_append]
      exact List.perm_append_comm
  calc (kept ++ moved.getLast?.toList ++ moved.dropLast).Perm (kept ++ moved) := by
        rw [List.append_assoc]
        exact hmoved.append_left kept
    _ |>.Perm (moved ++ kept) := List.perm_append_comm
    _ = line.text := List.take_append_drop count line.text

end Line

end LineEditor
