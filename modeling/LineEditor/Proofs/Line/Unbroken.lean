import LineEditor.Line.Whole
import LineEditor.Line.WordEdit
import LineEditor.Proofs.Line.Deleting
import LineEditor.Proofs.Text.Case

/-!
# Lines without newlines

A line that is being edited is unbroken if there is no newline in its text or in its clips. The
clips count too, since a newline in one of them would come into the text when it is pasted.
-/

namespace LineEditor

/-- There is no newline in a line or in its clips. -/
structure Line.Unbroken (line : Line) : Prop where
  /-- The text is unbroken. -/
  text : '\n' ∉ line.text
  /-- So is each text that has been copied. -/
  clips : ∀ clip ∈ line.clips, '\n' ∉ clip

theorem Line.unbroken_ofText {text : List Char} (htext : '\n' ∉ text) :
    Line.Unbroken { text } where
  text := htext
  clips _ hclip := absurd hclip List.not_mem_nil

theorem Span.notMem_of {c : Char} {text : List Char} (htext : c ∉ text) (s : Span) :
    c ∉ s.of text :=
  fun hmem => htext ((s.of_sublist text).subset hmem)

/-- What replaces a span is all that can bring in a character. -/
theorem Span.notMem_replace {c : Char} {text new : List Char} (htext : c ∉ text) (hnew : c ∉ new)
    (s : Span) : c ∉ s.replace text new := by
  intro hmem
  rcases List.mem_append.1 hmem with hbefore | hmem
  · exact htext (List.mem_of_mem_take hbefore)
  rcases List.mem_append.1 hmem with hwithin | hafter
  · exact hnew hwithin
  · exact htext (List.mem_of_mem_drop hafter)

namespace Line

variable {line : Line}

/-! ## Inserted and replaced characters -/

theorem newline_notMem_insert {s : List Char} (htext : '\n' ∉ line.text) (hs : '\n' ∉ s) :
    '\n' ∉ (line.insert s).text :=
  Span.notMem_replace htext hs _

theorem Unbroken.newline_notMem_paste (h : line.Unbroken) : '\n' ∉ line.paste.text := by
  unfold paste
  cases htop : line.topClip? with
  | none => exact h.text
  | some s =>
    have hs : '\n' ∉ s := h.clips s (List.mem_of_head? htop)
    exact newline_notMem_insert h.text hs

/-- Pairs that lead to no newline turn no other character into one. -/
theorem translateChar_ne_newline {pairs : List (Char × Char)}
    (hpairs : ∀ pair ∈ pairs, pair.2 ≠ '\n') {c : Char} (hc : c ≠ '\n') :
    translateChar pairs c ≠ '\n' := by
  unfold translateChar
  cases hlookup : pairs.reverse.lookup c with
  | none => exact hc
  | some new =>
    have hpair : (c, new) ∈ pairs := List.mem_reverse.1 (Text.mem_of_lookup hlookup)
    exact hpairs (c, new) hpair

theorem newline_notMem_translate {pairs : List (Char × Char)}
    (hpairs : ∀ pair ∈ pairs, pair.2 ≠ '\n') (htext : '\n' ∉ line.text) :
    '\n' ∉ (line.translate pairs).text := by
  intro hmem
  obtain ⟨c, hc, hnewline⟩ := List.mem_map.1 hmem
  have hne : c ≠ '\n' := by
    rintro rfl
    exact htext hc
  exact translateChar_ne_newline hpairs hne hnewline

/-! ## Characters changed by a function -/

section

variable {f : List Char → List Char} (hf : ∀ s, '\n' ∉ s → '\n' ∉ f s)

include hf

theorem newline_notMem_modify (htext : '\n' ∉ line.text) (s : Span) :
    '\n' ∉ (line.modify s f).text := by
  have hof : '\n' ∉ s.of line.text := Span.notMem_of htext s
  exact Span.notMem_replace htext (hf _ hof) s

theorem newline_notMem_modifyChar (htext : '\n' ∉ line.text) : '\n' ∉ (line.modifyChar f).text := by
  unfold modifyChar
  split
  · exact newline_notMem_modify hf htext _
  · exact htext

theorem Unbroken.newline_notMem_modifyClip (h : line.Unbroken) :
    ∀ clip ∈ (line.modifyClip f).clips, '\n' ∉ clip := by
  unfold modifyClip
  split
  · exact h.clips
  · rename_i top below hclips
    have hold : ∀ clip ∈ top :: below, '\n' ∉ clip := hclips ▸ h.clips
    intro clip hclip
    rcases List.mem_cons.1 hclip with rfl | hbelow
    · exact hf top (hold top List.mem_cons_self)
    · exact hold clip (List.mem_cons_of_mem top hbelow)

end

end Line

end LineEditor
