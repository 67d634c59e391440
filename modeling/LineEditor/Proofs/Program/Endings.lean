import LineEditor.Program.Stream
import LineEditor.Proofs.Program.Deleting
import LineEditor.Proofs.Text.Lines

/-!
# Streams whose lines end in different ways

A program runs on the lines without their endings, so what it makes of a text depends on the lines
only. A program that leaves the text of every line alone gives back the lines, all with newlines.
-/

namespace LineEditor

variable {compiled : Compiled} {text : List Char} {lines : List (List Char)}

/-- The stream of a text is made of what the program makes of each line. -/
theorem stream_of_isMadeOf (h : Text.IsMadeOf text lines) :
    compiled.stream text = (lines.length, joinLines (lines.map compiled.apply)) := by
  have hresults : compiled.transform (Text.splitLines text) = lines.map compiled.apply := by
    rw [← Text.map_stripEnding_splitLines h, List.map_map]
    rfl
  rw [Compiled.stream, hresults, List.length_map]

/-- A program of commands that leave the text alone runs to the end on any text, and leaves it. -/
theorem Program.run_of_leavesText {program : Program}
    (hprogram : ∀ c ∈ program, c.BuiltFrom Edit.LeavesText) (stop : Bool) (text : List Char) :
    ∃ last, Program.run stop program text = .ran last ∧ last.text = text := by
  have hstep : ∀ e : Edit, e.LeavesText → ∀ line : Line, line.InBounds → line.text = text →
      (e.run line).text = text := by
    intro e he line _ hline
    rw [e.text_run_of_leavesText he line]
    exact hline
  obtain ⟨last, hlast, -, htext⟩ := Program.run_keeps hstep hprogram rfl
  exact ⟨last, hlast, htext⟩

theorem Compiled.apply_of_leavesText
    (hprogram : ∀ c ∈ compiled.program, c.BuiltFrom Edit.LeavesText) (text : List Char) :
    compiled.apply text = text := by
  obtain ⟨last, hlast, htext⟩ :=
    Program.run_of_leavesText hprogram compiled.stopOnDone text
  rw [apply, execute, hlast]
  exact htext

/-- Two texts made of the same lines are the same to every program: it runs on the same lines, with
the same outcomes, and its output and count are the same. If it leaves the text of lines alone, it
runs to the end on each, the count is that of the lines, and its output has each with a newline. -/
theorem stream_ignores_endings (h : Text.IsMadeOf text lines) :
    (∀ other, Text.IsMadeOf other lines →
        (Text.splitLines other).map (fun line =>
            Program.run compiled.stopOnDone compiled.program (Text.stripEnding line)) =
          (Text.splitLines text).map (fun line =>
            Program.run compiled.stopOnDone compiled.program (Text.stripEnding line)) ∧
        compiled.stream other = compiled.stream text) ∧
      ((∀ c ∈ compiled.program, c.BuiltFrom Edit.LeavesText) →
        (∀ line ∈ lines, ∃ last,
          Program.run compiled.stopOnDone compiled.program line = .ran last ∧ last.text = line) ∧
        compiled.stream text = (lines.length, lines.flatMap fun line => line ++ ['\n'])) := by
  constructor
  · intro other hother
    -- A program sees a line only after its ending is removed.
    have hstripped : (Text.splitLines other).map Text.stripEnding =
        (Text.splitLines text).map Text.stripEnding := by
      rw [Text.map_stripEnding_splitLines hother, Text.map_stripEnding_splitLines h]
    refine ⟨?_, ?_⟩
    · have houtcomes := congrArg
        (List.map (Program.run compiled.stopOnDone compiled.program)) hstripped
      rwa [List.map_map, List.map_map] at houtcomes
    · rw [stream_of_isMadeOf hother, stream_of_isMadeOf h]
  · intro hprogram
    have hkept : lines.map compiled.apply = lines := by
      rw [List.map_congr_left fun line _ => Compiled.apply_of_leavesText hprogram line,
        List.map_id']
    refine ⟨fun line _ => Program.run_of_leavesText hprogram compiled.stopOnDone line, ?_⟩
    rw [stream_of_isMadeOf h, hkept]
    rfl

/-- Three lines, of which one is empty and one has a carriage return in it, come out the same
however they are ended. -/
theorem stream_ignores_endings_mixed :
    let compiled : Compiled := ⟨[.times 2 (.block [.edit (.find ['b']), .edit (.plain .mark),
      .times (-1) (.times (-3) (.edit (.plain .copy))), .edit (.plain .upcaseClip)]),
      .edit (.plain .nextLine)], true⟩
    let lines := [['a', 'b'], [], ['c', '\r', 'd']]
    let text := ['a', 'b', '\r', '\n', '\n', 'c', '\r', 'd']
    let other := ['a', 'b', '\n', '\r', '\n', 'c', '\r', 'd', '\r', '\n']
    Text.IsMadeOf text lines ∧ Text.IsMadeOf other lines ∧
      (∀ c ∈ compiled.program, c.BuiltFrom Edit.LeavesText) ∧
      compiled.stream other = compiled.stream text ∧
      compiled.stream text = (3, ['a', 'b', '\n', '\n', 'c', '\r', 'd', '\n']) := by
  intro compiled lines text other
  have hlast : Text.IsMadeOf ['c', '\r', 'd'] [['c', '\r', 'd']] :=
    .unended (by decide) (by decide) (by decide)
  have hlast' : Text.IsMadeOf (['c', '\r', 'd'] ++ ['\r', '\n']) [['c', '\r', 'd']] :=
    .both (by decide) (by decide) .nil
  have hrest : Text.IsMadeOf ([] ++ '\n' :: ['c', '\r', 'd']) [[], ['c', '\r', 'd']] :=
    .newline (by decide) (by decide) hlast
  have hrest' : Text.IsMadeOf ([] ++ '\r' :: '\n' :: (['c', '\r', 'd'] ++ ['\r', '\n']))
      [[], ['c', '\r', 'd']] := .both (by decide) (by decide) hlast'
  have hab : '\n' ∉ ['a', 'b'] := by decide
  have htext : Text.IsMadeOf text lines := .both hab (by decide) hrest
  have hother : Text.IsMadeOf other lines := .newline hab (by decide) hrest'
  have hprogram : ∀ c ∈ compiled.program, c.BuiltFrom Edit.LeavesText := by
    intro c hc
    simp only [compiled, List.mem_cons, List.not_mem_nil, or_false] at hc
    rcases hc with rfl | rfl
    · refine .times (.block ?_)
      intro c hc
      simp only [List.mem_cons, List.not_mem_nil, or_false] at hc
      rcases hc with rfl | rfl | rfl | rfl
      · exact .edit trivial
      · exact .edit trivial
      · exact .times (.times (.edit trivial))
      · exact .edit trivial
    · exact .edit trivial
  obtain ⟨hsame, hleft⟩ := @stream_ignores_endings compiled text lines htext
  obtain ⟨-, hstream⟩ := hleft hprogram
  exact ⟨htext, hother, hprogram, (hsame other hother).2, hstream⟩

end LineEditor
