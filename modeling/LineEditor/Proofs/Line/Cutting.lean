import LineEditor.Proofs.Line.InBounds

/-!
# Cutting and pasting

Cutting takes the region out of the line and leaves an empty one where it was, wherever the mark
stands; so cutting again takes nothing. Pasting what has just been cut puts it back.
-/

namespace LineEditor.Line

variable {line : Line} {p : Int}

/-- A region that is cut leaves an empty one at its start. A mark at its end has come to its start,
and one past the end of the line counts as one at the end, where the cursor then is. -/
theorem InBounds.region_cut (h : line.InBounds) :
    line.cut.region = ⟨line.region.start, line.region.start⟩ := by
  have hlength : (line.cut.length : Int) = line.length - (line.region.stop - line.region.start) :=
    length_remove h.region_within
  obtain ⟨h0, h1, hm⟩ := h
  have hcursor : line.cut.cursor = line.region.start := rfl
  have hmark : line.cut.mark =
      if line.cursor < line.region.stop then some line.region.start else line.mark := rfl
  rw [region, hcursor]
  cases hold : line.mark with
  | none =>
    have hregion : line.region = ⟨line.cursor, line.cursor⟩ := by
      rw [region, hold]
      dsimp only
      rw [Int.min_self, Int.max_self]
    rw [hmark, hregion, if_neg (Int.lt_irrefl _), hold]
    dsimp only
    rw [Int.min_self, Int.max_self]
  | some m =>
    have hm0 := hm m hold
    have hregion : line.region =
        ⟨min (min m line.length) line.cursor, max (min m line.length) line.cursor⟩ := by
      rw [region, hold]
    rw [hregion] at hlength hmark ⊢
    dsimp only at hlength hmark ⊢
    -- With the cursor before the region's end the mark was that end and has moved with it.
    by_cases hbefore : line.cursor < max (min m line.length) line.cursor
    · rw [hmark, if_pos hbefore]
      dsimp only
      congr 1 <;> omega
    · rw [hmark, if_neg hbefore, hold]
      dsimp only
      congr 1 <;> omega

theorem InBounds.cut_of_region_empty (h : line.InBounds) (hregion : line.region = ⟨p, p⟩) :
    line.regionText = [] ∧ line.cut.text = line.text ∧ line.cut.cursor = p := by
  have hwithin := h.region_within
  rw [hregion] at hwithin
  obtain ⟨hof, hreplace⟩ := hwithin.of_empty
  refine ⟨?_, ?_, congrArg Span.start hregion⟩
  · rw [regionText, hregion]
    exact hof
  · show line.region.replace line.text [] = line.text
    rw [hregion]
    exact hreplace

/-- Cutting takes out the region and nothing else, keeps its text as the text copied last, and
leaves the cursor with an empty region where it began, so that cutting once more copies the empty
text and changes neither the text nor the cursor. Pasting what was cut restores the text, with the
cursor where the region ended. The text of the region is copied twice by copying it and cutting
it. -/
theorem cut_then_paste_restores (h : line.InBounds) :
    ∃ front cut back, line.text = front ++ (cut ++ back) ∧
      line.region = ⟨front.length, front.length + cut.length⟩ ∧
      (line.cut.text = front ++ back ∧ line.cut.cursor = front.length ∧
        line.cut.clips = cut :: line.clips ∧ line.cut.done = line.done ∧
        line.cut.region = ⟨front.length, front.length⟩) ∧
      (line.cut.cut.text = front ++ back ∧ line.cut.cut.cursor = front.length ∧
        line.cut.cut.clips = [] :: cut :: line.clips) ∧
      (line.cut.paste.text = line.text ∧ line.cut.paste.cursor = front.length + cut.length ∧
        line.cut.paste.clips = cut :: line.clips) ∧
      line.copy.cut.clips = cut :: cut :: line.clips := by
  obtain ⟨front, back, htext, hstart, hstop, hreplace⟩ := h.region_within.exists_pieces
  have hcut : line.cut.text = front ++ back := hreplace []
  have hcursor : line.cut.cursor = front.length := hstart
  have hempty : line.cut.region = ⟨front.length, front.length⟩ := hstart ▸ h.region_cut
  obtain ⟨hnothing, hagain, hstays⟩ := h.cut.cut_of_region_empty hempty
  have hclips : line.cut.cut.clips = line.cut.regionText :: line.cut.clips := rfl
  have hpaste : line.cut.paste.text =
      Span.replace ⟨line.cut.cursor, line.cut.cursor⟩ line.cut.text line.regionText := rfl
  have hpasted : line.cut.paste.cursor = line.cut.cursor + line.regionText.length := rfl
  refine ⟨front, line.regionText, back, htext, ?_, ⟨hcut, hcursor, rfl, rfl, hempty⟩,
    ⟨hagain.trans hcut, hstays, ?_⟩, ⟨?_, ?_, rfl⟩, rfl⟩
  · exact congr (congrArg Span.mk hstart) hstop
  · rw [hclips, hnothing]
    rfl
  · rw [hpaste, hcursor, hcut, Span.replace_empty]
    exact htext.symm
  · rw [hpasted, hcursor]

/-- A mark past the end, where it counts as one at the end. -/
theorem cut_then_paste_restores_stale :
    let line : Line := { text := "ab, cd".toList, cursor := 2, mark := some 9, clips := [['z']] }
    line.InBounds ∧ line.cut.text = "ab".toList ∧
      line.cut.cut.clips = [[], ", cd".toList, ['z']] ∧ line.cut.paste.text = line.text ∧
      line.cut.paste.cursor = 6 := by
  intro line
  have h : line.InBounds := ⟨by decide, by decide, by simp [line]⟩
  obtain ⟨front, cut, back, htext, hregion, ⟨hcut, -⟩, ⟨-, -, hclips⟩, ⟨hpaste, hcursor, -⟩, -⟩ :=
    cut_then_paste_restores h
  have hspan : line.region = ⟨2, 6⟩ := by decide
  have hstart : (2 : Int) = front.length := congrArg Span.start (hspan.symm.trans hregion)
  have hstop : (6 : Int) = front.length + cut.length :=
    congrArg Span.stop (hspan.symm.trans hregion)
  have hpieces : "ab".toList ++ (", cd".toList ++ []) = front ++ (cut ++ back) := htext
  obtain ⟨hfront, hrest⟩ := List.append_inj hpieces (by simp; omega)
  obtain ⟨hmiddle, hback⟩ := List.append_inj hrest (by simp; omega)
  subst hfront hmiddle hback
  exact ⟨h, hcut, hclips, hpaste, hcursor⟩

end LineEditor.Line
