import LineEditor.Program.Stream
import LineEditor.Proofs.Line.Unbroken
import LineEditor.Proofs.Program.Clips
import LineEditor.Proofs.Program.Deleting
import LineEditor.Proofs.Program.Transposing
import LineEditor.Proofs.Text.Lines
import Mathlib.Data.List.Forall2

/-!
# One line out for each line in

A program that writes no newline of its own never gets one into a line or a clip: what it pastes has
been copied from lines without newlines, no case mapping makes one, and all else moves or deletes
characters. So the result of each line is one line again, and a stream of lines keeps its framing:
splitting what comes out at the newlines gives the results, in the order of the lines.
-/

namespace LineEditor

/-- A basic command writes no newline: neither the text it inserts nor a character that it puts in
the place of another has one. -/
def Edit.WritesNoNewline : Edit → Prop
  | .insert s => '\n' ∉ s
  | .translate pairs => ∀ pair ∈ pairs, pair.2 ≠ '\n'
  | _ => True

variable {line : Line}

/-! ## One basic command -/

theorem Edit.newline_notMem_text_run {e : Edit} (he : e.WritesNoNewline) (h : line.Unbroken) :
    '\n' ∉ (e.run line).text := by
  by_cases hleaves : e.LeavesText
  · rw [text_run_of_leavesText hleaves]
    exact h.text
  by_cases hdeletes : e.Deletes
  · intro hmem
    exact h.text ((run_sublist_of_deletes hdeletes line).subset hmem)
  by_cases htransposes : e.Transposes
  · intro hmem
    exact h.text ((run_perm_of_transposes htransposes line).subset hmem)
  cases e with
  | insert s => exact Line.newline_notMem_insert h.text he
  | translate pairs => exact Line.newline_notMem_translate he h.text
  | goto | find | findBack => exact absurd trivial hleaves
  | truncateBy => exact absurd trivial hdeletes
  | plain v => cases v with
    | paste => exact h.newline_notMem_paste
    | transposeChars | transposeWords | transpose => exact absurd trivial htransposes
    | upcaseChar =>
      exact Line.newline_notMem_modifyChar (fun _ => Text.newline_notMem_upcase) h.text
    | downcaseChar =>
      exact Line.newline_notMem_modifyChar (fun _ => Text.newline_notMem_downcase) h.text
    | capitalizeWord =>
      have hmoved : '\n' ∉ ({ line with cursor := line.wordStart } : Line).text := h.text
      exact Line.newline_notMem_modifyChar (fun _ => Text.newline_notMem_upcase) hmoved
    | upcaseWord | upcaseRegion =>
      exact Line.newline_notMem_modify (fun _ => Text.newline_notMem_upcase) h.text _
    | downcaseWord | downcaseRegion =>
      exact Line.newline_notMem_modify (fun _ => Text.newline_notMem_downcase) h.text _
    | upcaseLine => exact Text.newline_notMem_upcase h.text
    | downcaseLine => exact Text.newline_notMem_downcase h.text
    | _ => first | exact absurd trivial hleaves | exact absurd trivial hdeletes

theorem Edit.newline_notMem_clips_run (e : Edit) (h : line.Unbroken) :
    ∀ clip ∈ (e.run line).clips, '\n' ∉ clip := by
  have hcopied (s : List Char) (hs : s.Sublist line.text) :
      ∀ clip ∈ s :: line.clips, '\n' ∉ clip := by
    intro clip hclip
    rcases List.mem_cons.1 hclip with rfl | hold
    · exact fun hmem => h.text (hs.subset hmem)
    · exact h.clips clip hold
  have htrimmed {f : List Char → List Char} (hf : ∀ s, (f s).Sublist s) :
      ∀ s, '\n' ∉ s → '\n' ∉ f s := fun s hs hmem => hs ((hf s).subset hmem)
  cases e with
  | goto | insert | truncateBy | find | findBack | translate => exact h.clips
  | plain v => cases v with
    | copy | cut => exact hcopied _ (line.region.of_sublist line.text)
    | copyLine => exact hcopied line.text (List.Sublist.refl _)
    | upcaseClip => exact h.newline_notMem_modifyClip fun _ => Text.newline_notMem_upcase
    | downcaseClip => exact h.newline_notMem_modifyClip fun _ => Text.newline_notMem_downcase
    | capitalizeClip => exact h.newline_notMem_modifyClip fun _ => Text.newline_notMem_capitalize
    | trimClipLeft => exact h.newline_notMem_modifyClip (htrimmed Text.trimLeft_sublist)
    | trimClipRight => exact h.newline_notMem_modifyClip (htrimmed Text.trimRight_sublist)
    | trimClip => exact h.newline_notMem_modifyClip (htrimmed Text.trim_sublist)
    | _ =>
      rw [run, Verb.clips_run rfl rfl line]
      exact h.clips

/-- A basic command that writes no newline keeps a line unbroken. -/
theorem Edit.unbroken_run {e : Edit} (he : e.WritesNoNewline) (h : line.Unbroken) :
    (e.run line).Unbroken where
  text := newline_notMem_text_run he h
  clips := e.newline_notMem_clips_run h

/-! ## Joined lines -/

theorem joinLines_cons (line : List Char) (lines : List (List Char)) :
    joinLines (line :: lines) = line ++ '\n' :: joinLines lines := by
  rw [joinLines, List.flatMap_cons, List.append_assoc]
  rfl

theorem count_newline_joinLines {lines : List (List Char)} (h : ∀ line ∈ lines, '\n' ∉ line) :
    (joinLines lines).count '\n' = lines.length := by
  induction lines with
  | nil => rfl
  | cons line lines ih =>
    have hline : line.count '\n' = 0 := List.count_eq_zero_of_not_mem (h line List.mem_cons_self)
    have hothers : (joinLines lines).count '\n' = lines.length :=
      ih fun other hother => h other (List.mem_cons_of_mem line hother)
    rw [joinLines_cons, List.count_append, List.count_cons_self, hline, hothers, Nat.zero_add,
      List.length_cons]

theorem getLast?_joinLines {lines : List (List Char)} (h : joinLines lines ≠ []) :
    (joinLines lines).getLast? = some '\n' := by
  obtain ⟨front, last, rfl⟩ : ∃ front last, lines = front ++ [last] := by
    rcases List.eq_nil_or_concat lines with rfl | ⟨front, last, rfl⟩
    · exact absurd rfl h
    · exact ⟨front, last, by simp⟩
  rw [joinLines, List.flatMap_append, List.flatMap_singleton, ← List.append_assoc]
  exact List.getLast?_concat

/-- Joined lines without newlines are told apart by the newlines, with nothing after the last. -/
theorem splitOn_joinLines {lines : List (List Char)} (h : ∀ line ∈ lines, '\n' ∉ line) :
    (joinLines lines).splitOn '\n' = lines ++ [[]] := by
  induction lines with
  | nil => exact List.splitOn_nil '\n'
  | cons line lines ih =>
    have hline : '\n' ∉ line := h line List.mem_cons_self
    have hothers : (joinLines lines).splitOn '\n' = lines ++ [[]] :=
      ih fun other hother => h other (List.mem_cons_of_mem line hother)
    rw [joinLines_cons, List.splitOn_append_cons_self_of_not_mem hline, hothers, List.cons_append]

/-! ## A stream of lines -/

variable {compiled : Compiled}

/-- What a program that writes no newline makes of a line without one has none either. -/
theorem Compiled.newline_notMem_apply
    (hprogram : ∀ c ∈ compiled.program, c.BuiltFrom Edit.WritesNoNewline) {text : List Char}
    (htext : '\n' ∉ text) :
    ∃ last, Program.run compiled.stopOnDone compiled.program text = .ran last ∧
      compiled.apply text = last.text ∧ '\n' ∉ last.text := by
  have hstep : ∀ e : Edit, e.WritesNoNewline → ∀ line : Line, line.InBounds → line.Unbroken →
      (e.run line).Unbroken := fun e he line _ h => e.unbroken_run he h
  obtain ⟨last, hlast, -, hunbroken⟩ :=
    Program.run_keeps hstep hprogram (Line.unbroken_ofText htext)
  refine ⟨last, hlast, ?_, hunbroken.text⟩
  rw [Compiled.apply, Compiled.execute, hlast]
  rfl

/-- A program that writes no newline turns each line of a text into one line. The count it gives is
that of the lines, its output has as many newlines and ends in one, and the pieces between them are
what the program makes of each line without its ending. -/
theorem stream_keeps_framing
    (hprogram : ∀ c ∈ compiled.program, c.BuiltFrom Edit.WritesNoNewline) (input : List Char) :
    ∃ lines results count output,
      Text.HasLines input lines ∧ compiled.stream input = (count, output) ∧
      count = lines.length ∧
      count = input.count '\n' +
        (if input ≠ [] ∧ input.getLast? ≠ some '\n' then 1 else 0) ∧
      output.count '\n' = count ∧ (output ≠ [] → output.getLast? = some '\n') ∧
      output.splitOn '\n' = results ++ [[]] ∧
      List.Forall₂ (fun line result => ∃ last,
        Program.run compiled.stopOnDone compiled.program (Text.stripEnding line) = .ran last ∧
          result = last.text) lines results := by
  have hlines := Text.hasLines_splitLines input
  have hran : ∀ line ∈ Text.splitLines input, ∃ last,
      Program.run compiled.stopOnDone compiled.program (Text.stripEnding line) = .ran last ∧
        compiled.apply (Text.stripEnding line) = last.text ∧ '\n' ∉ last.text :=
    fun line hline =>
      Compiled.newline_notMem_apply hprogram (Text.newline_notMem_stripEnding hlines hline)
  have hlength : (compiled.transform (Text.splitLines input)).length =
      (Text.splitLines input).length := List.length_map _
  have hresults : ∀ result ∈ compiled.transform (Text.splitLines input), '\n' ∉ result := by
    intro result hresult
    obtain ⟨line, hline, rfl⟩ := List.mem_map.1 hresult
    obtain ⟨last, -, happly, hlast⟩ := hran line hline
    rw [happly]
    exact hlast
  refine ⟨Text.splitLines input, compiled.transform (Text.splitLines input), _, _, hlines, rfl,
    hlength, hlength.trans hlines.length_eq, count_newline_joinLines hresults,
    getLast?_joinLines, splitOn_joinLines hresults, ?_⟩
  rw [Compiled.transform, List.forall₂_map_right_iff, List.forall₂_same]
  intro line hline
  obtain ⟨last, hlast, happly, -⟩ := hran line hline
  exact ⟨last, hlast, happly⟩

/-- Doubling each line twice over, and writing a carriage return, keeps the framing of two ended
lines and one that is not. -/
theorem stream_keeps_framing_doubled :
    let compiled : Compiled := ⟨[.times 2 (.block [.edit (.plain .copyLine),
      .edit (.plain .lineEnd), .edit (.plain .paste)]), .edit (.insert ['\r']),
      .edit (.translate [('a', 'b')]), .edit (.plain .upcaseLine)], true⟩
    let input := ['a', '\r', '\n', '\n', 'ß', 'c']
    (∀ c ∈ compiled.program, c.BuiltFrom Edit.WritesNoNewline) ∧
      ∃ count output, compiled.stream input = (count, output) ∧ count = 3 ∧
        output.count '\n' = 3 ∧ (output ≠ [] → output.getLast? = some '\n') := by
  intro compiled input
  have hprogram : ∀ c ∈ compiled.program, c.BuiltFrom Edit.WritesNoNewline := by
    intro c hc
    simp only [compiled, List.mem_cons, List.not_mem_nil, or_false] at hc
    rcases hc with rfl | rfl | rfl | rfl
    · refine .times (.block ?_)
      intro c hc
      simp only [List.mem_cons, List.not_mem_nil, or_false] at hc
      rcases hc with rfl | rfl | rfl <;> exact .edit trivial
    · have hinsert : (Edit.insert ['\r']).WritesNoNewline := by simp [Edit.WritesNoNewline]
      exact .edit hinsert
    · have htranslate : (Edit.translate [('a', 'b')]).WritesNoNewline := by
        simp [Edit.WritesNoNewline]
      exact .edit htranslate
    · exact .edit trivial
  obtain ⟨lines, results, count, output, -, hstream, -, hcount, hnewlines, hends, -, -⟩ :=
    stream_keeps_framing hprogram input
  have hthree : count = 3 := hcount.trans (by decide)
  exact ⟨hprogram, count, output, hstream, hthree, hnewlines.trans hthree, hends⟩

end LineEditor
