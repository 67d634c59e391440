import LineEditor.Proofs.Line.SettingCase
import LineEditor.Proofs.Program.InBounds

/-!
# Setting the case of the region

The region is put in upper or lower case where it is, and the cursor stays. A mark past the end,
which earlier commands can leave behind when they delete text, does not: it counts as one at the end
while the case is set, and it is brought back onto the line afterwards.
-/

namespace LineEditor

/-- How a command sets the case of the region; other commands do not. -/
def Verb.regionCase? : Verb → Option (List Char → List Char)
  | .upcaseRegion => some Text.upcase
  | .downcaseRegion => some Text.downcase
  | _ => none

variable {line : Line} {v : Verb} {s : Span} {f : List Char → List Char} {settled : Char → Prop}

theorem Verb.run_of_regionCase? (hv : v.regionCase? = some f) :
    v.run = (fun line => line.modify line.region f) ∧ ∃ settled, LineEditor.SetsCase f settled := by
  cases v with
  | upcaseRegion =>
    obtain rfl := Option.some.inj hv
    exact ⟨rfl, _, setsCase_upcase⟩
  | downcaseRegion =>
    obtain rfl := Option.some.inj hv
    exact ⟨rfl, _, setsCase_downcase⟩
  | _ => cases hv

namespace Line

/-- Bringing the mark back onto the line moves it only if it is past the end. -/
theorem InBounds.mark_clamp (h : line.InBounds) (text : List Char) :
    ({ line with text := text } : Line).clamp.mark =
      line.mark.map fun m => min m (text.length : Int) := by
  refine Option.map_congr fun m hm => ?_
  have hnonneg := h.mark_nonneg m hm
  show max 0 (min m (text.length : Int)) = min m text.length
  omega

/-- A mark on the line stays where it is when the case of a span is set, since the line does not
become shorter. -/
theorem InBounds.mark_modify (hf : SetsCase f settled) (h : line.InBounds)
    (hs : s.Within line.length) (hmark : ∀ m ∈ line.mark, m ≤ line.length) :
    (line.modify s f).mark = line.mark := by
  have hle := length_le_length_modify hf hs
  unfold length at hle
  rw [modify, h.mark_clamp]
  cases hline : line.mark with
  | none => rfl
  | some m =>
    have hm := hmark m hline
    rw [Option.map_some, Int.min_eq_left]
    exact Int.le_trans hm (Int.ofNat_le.2 hle)

end Line

/-- Whatever program has run on whatever text, putting the region of the line that it has left in
upper or lower case replaces the text of the region and nothing else. The cursor stays. So does a
mark on the line; one past its end comes back to the new end, unless the line now reaches as far as
the mark. -/
theorem case_of_region_keeps_cursor (hv : v.regionCase? = some f) (stop : Bool)
    (program : Program) (text : List Char) :
    let line := (Program.run stop program text).line
    let next := v.run line
    (Edit.plain v).attempt line = .ran next ∧
      (∃ front back, line.text = front ++ (line.regionText ++ back) ∧
        line.region.start = front.length ∧
        line.region.stop = front.length + line.regionText.length ∧
        next.text = front ++ (f line.regionText ++ back)) ∧
      next.cursor = line.cursor ∧
      next.mark = line.mark.map (fun m => min m (next.length : Int)) ∧
      ((∀ m ∈ line.mark, m ≤ line.length) → next.mark = line.mark) ∧
      next.clips = line.clips ∧ next.done = line.done := by
  intro line next
  have h : line.InBounds := Program.run_line_inBounds stop program text
  have hs : line.region.Within line.length := h.region_within
  obtain ⟨hrun, settled, hf⟩ := Verb.run_of_regionCase? hv
  have hnext : next = line.modify line.region f := congrFun hrun line
  obtain ⟨front, back, htext, hstart, hstop, hreplace⟩ := Span.Within.exists_pieces hs
  obtain ⟨hattempt, -⟩ := (Edit.plain v).attempt_inBounds h
  rw [hnext]
  exact ⟨hnext ▸ hattempt, ⟨front, back, htext, hstart, hstop, hreplace _⟩, h.cursor_modify hf hs,
    h.mark_clamp _, h.mark_modify hf hs, rfl, rfl⟩

/-- The line has been cut short behind the mark, and it does not become as long again when its sharp
s becomes two characters. -/
theorem case_of_region_keeps_cursor_stale :
    let program : Program := [.edit (.plain .lineEnd), .edit (.plain .mark), .edit (.goto 2),
      .edit (.plain .kill), .edit (.plain .home)]
    let line := (Program.run true program "aßcde".toList).line
    let next := Verb.upcaseRegion.run line
    Verb.upcaseRegion.regionCase? = some Text.upcase ∧ line.mark = some 5 ∧
      next.text = "ASS".toList ∧ next.cursor = 0 ∧ next.mark = some 3 := by
  intro program line next
  have hline : line = { text := "aß".toList, mark := some 5 } := by decide +kernel
  have htext : next.text = "ASS".toList := by decide +kernel
  obtain ⟨-, -, hcursor, hmark, -⟩ :=
    case_of_region_keeps_cursor (v := .upcaseRegion) rfl true program "aßcde".toList
  have hlength : next.length = 3 := congrArg List.length htext
  refine ⟨rfl, congrArg Line.mark hline, htext, hcursor.trans (congrArg Line.cursor hline), ?_⟩
  have hmark : next.mark = line.mark.map fun m => min m (next.length : Int) := hmark
  rw [hmark, hlength, hline]
  rfl

/-- All text behind the cursor has been deleted, and with it the text before the mark. The region is
empty, and setting its case moves the mark nevertheless. -/
theorem case_of_region_moves_mark_past_end :
    let program : Program := [.edit (.plain .lineEnd), .edit (.plain .mark), .edit (.plain .home),
      .edit (.plain .kill)]
    let line := (Program.run true program "abc".toList).line
    line.mark = some 3 ∧ (Verb.upcaseRegion.run line).mark = some 0 ∧
      (Verb.downcaseRegion.run line).mark = some 0 := by
  decide

end LineEditor
