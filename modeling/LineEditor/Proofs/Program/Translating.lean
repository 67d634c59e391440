import LineEditor.Proofs.Command.RoundTrip
import LineEditor.Proofs.Line.Translating
import LineEditor.Proofs.Program.Sequence

/-!
# Translating, from the text of a program to the line

A program text that says to translate one string into another of the same length is parsed, whatever
characters the strings have and however they are escaped, and replaces the characters of a line all
at once.
-/

namespace LineEditor

/-- A text says to translate one string into another: it is the keyword and the two strings, in
quotes and escaped, with white space between them. -/
def SaysTranslate (s t text : List Char) : Prop :=
  ∃ source target, Escapes source s ∧ Escapes target t ∧
    Spaced [Keyword.translate.spelling.toList, '"' :: (source ++ ['"']), '"' :: (target ++ ['"'])]
      text

variable {stop : Bool} {line : Line} {s t text gap backText : List Char}

/-! ## Parsing -/

/-- All strings can be so written, with a backslash before every quote and backslash. -/
theorem saysTranslate_writeString (s t : List Char) :
    SaysTranslate s t
      ([' '].intercalate [Keyword.translate.spelling.toList, writeString s, writeString t]) :=
  ⟨escape s, escape t, escapes_escape s, escapes_escape t, spaced_intercalate _⟩

theorem SaysTranslate.exists_pieces (h : SaysTranslate s t text) :
    ∃ pieces, Spaced pieces text ∧ pieces ≠ [] ∧
      List.Forall₂ Writes pieces
        [(.word, Keyword.translate.spelling.toList), (.string, s), (.string, t)] := by
  obtain ⟨source, target, hsource, htarget, htext⟩ := h
  exact ⟨_, htext, List.cons_ne_nil _ _,
    .cons (.spelling .translate) (.cons (.quoted hsource) (.cons (.quoted htarget) .nil))⟩

theorem SaysTranslate.parse (h : SaysTranslate s t text) (hlength : s.length = t.length) :
    parse text = .ok [.edit (.translate (pairUp s t))] := by
  obtain ⟨pieces, htext, -, hwrites⟩ := h.exists_pieces
  exact parse_of_writes htext hwrites (.cons (readingsSpell_translate hlength) .nil)

theorem SaysTranslate.parse_append (h : SaysTranslate s t text) (hback : SaysTranslate t s backText)
    (hlength : s.length = t.length) (hne : gap ≠ []) (hgap : ∀ c ∈ gap, isSeparator c = true) :
    LineEditor.parse (text ++ gap ++ backText) =
      .ok [.edit (.translate (pairUp s t)), .edit (.translate (pairUp t s))] := by
  obtain ⟨pieces, htext, hpieces, hwrites⟩ := h.exists_pieces
  obtain ⟨more, hmore, hmore', hwrites'⟩ := hback.exists_pieces
  exact parse_of_writes (htext.append hpieces hne hgap hmore hmore')
    (List.rel_append hwrites hwrites')
    (.cons (readingsSpell_translate hlength) (.cons (readingsSpell_translate hlength.symm) .nil))

/-! ## Running -/

/-- Replacing characters can be run on every line, wherever the cursor is. -/
theorem runAll_translate_cons (hgo : ¬ (stop && line.done) = true) (pairs : List (Char × Char))
    (commands : List Command) :
    Command.runAll stop (.edit (.translate pairs) :: commands) line =
      Command.runAll stop commands (line.translate pairs) := by
  have hrun : Command.run stop (.edit (.translate pairs)) line = .ran (line.translate pairs) := by
    rw [Command.run]
    rfl
  rw [runAll_cons hgo, hrun, ran_andThen]

theorem runAll_translate (hgo : ¬ (stop && line.done) = true) (pairs : List (Char × Char)) :
    Command.runAll stop [.edit (.translate pairs)] line = .ran (line.translate pairs) := by
  rw [runAll_translate_cons hgo, runAll_nil]

theorem runAll_translate_translate (h : s.Nodup) (hperm : s.Perm t) (stop : Bool) (line : Line) :
    Command.runAll stop [.edit (.translate (pairUp s t)), .edit (.translate (pairUp t s))] line =
      .ran line := by
  by_cases hgo : (stop && line.done) = true
  · exact runAll_of_done hgo _
  · have hgo' : ¬ (stop && (line.translate (pairUp s t)).done) = true := hgo
    rw [runAll_translate_cons hgo, runAll_translate hgo', Line.translate_translate h hperm]

/-- Two strings of the same length say what becomes of each character: a character of the first
becomes what stands in the second where it stands last in the first, and every other one stays. A
text that says to translate the one into the other is parsed as a program that does this to all
characters of a line and nothing else, if the run has not stopped. If the second string is the first
in another order, and has no character twice, a text that goes on to translate back is parsed as a
program that leaves every line as it is. -/
theorem translating_maps_characters_and_back (hlength : s.length = t.length) :
    SaysTranslate s t
        ([' '].intercalate [Keyword.translate.spelling.toList, writeString s, writeString t]) ∧
      ∃ f : Char → Char, (∀ c, c ∉ s → f c = c) ∧
        (∀ (j : Nat) c d, s[j]? = some c → t[j]? = some d → c ∉ s.drop (j + 1) → f c = d) ∧
        ∀ text, SaysTranslate s t text → ∃ program, parse text = .ok program ∧
          (∀ stop line, (stop && line.done) = false →
            Command.runAll stop program line = .ran { line with text := line.text.map f }) ∧
          (s.Nodup → s.Perm t → ∀ gap backText, gap ≠ [] → (∀ c ∈ gap, isSeparator c = true) →
            SaysTranslate t s backText → ∃ back, parse backText = .ok back ∧
              parse (text ++ gap ++ backText) = .ok (program ++ back) ∧
              ∀ stop line, Command.runAll stop (program ++ back) line = .ran line) := by
  refine ⟨saysTranslate_writeString s t, Line.translateChar (pairUp s t),
    fun c hc => Line.translateChar_of_not_mem hc t,
    fun j c d hs ht hlast => Line.translateChar_of_last hs ht hlast, fun text htext => ?_⟩
  refine ⟨_, htext.parse hlength, fun stop line hgo => ?_, ?_⟩
  · exact runAll_translate (Bool.eq_false_iff.1 hgo) _
  · intro hnodup hperm gap backText hne hgap hback
    exact ⟨_, hback.parse hlength.symm, htext.parse_append hback hlength hne hgap,
      runAll_translate_translate hnodup hperm⟩

/-- A cycle of a letter, a quote and a backslash, where one backslash more than needed is written,
and a string that has one character twice. -/
theorem translating_maps_characters_and_back_cycle :
    let s : List Char := ['a', '"', '\\']
    let t : List Char := ['"', '\\', 'a']
    let text := "translate \"a\\\"\\\\\"\t\"\\\"\\\\\\a\"".toList
    let backText := "translate \"\\\"\\\\a\" \"a\\\"\\\\\"".toList
    let line : Line := { text := ['"', 'b', 'a', '\\'], cursor := 9 }
    s.length = t.length ∧ s.Nodup ∧ s.Perm t ∧ SaysTranslate s t text ∧ SaysTranslate t s backText ∧
      (∃ program back, parse text = .ok program ∧ parse backText = .ok back ∧
        parse (text ++ ['\n'] ++ backText) = .ok (program ++ back) ∧
        Command.runAll true program line = .ran { line with text := ['\\', 'b', '"', 'a'] } ∧
        Command.runAll true (program ++ back) line = .ran line) ∧
      ∃ f : Char → Char, f 'a' = 'z' ∧ f 'b' = 'y' ∧ f 'c' = 'c' ∧
        ∀ text, SaysTranslate ['a', 'b', 'a'] ['x', 'y', 'z'] text → ∃ program,
          parse text = .ok program ∧
          Command.runAll true program line = .ran { line with text := line.text.map f } := by
  intro s t text backText line
  have hnodup : s.Nodup := by decide
  have hperm : s.Perm t := by decide
  have htext : SaysTranslate s t text := by
    refine ⟨"a\\\"\\\\".toList, "\\\"\\\\\\a".toList, ?_, ?_, ?_⟩
    · exact .plain (by decide) (by decide) (.escaped _ (.escaped _ .nil))
    · exact .escaped _ (.escaped _ (.escaped _ .nil))
    · exact @Spaced.cons [' '] _ _ _ _ (by simp) (by simp [isSeparator])
        (@Spaced.cons ['\t'] _ _ _ _ (by simp) (by simp [isSeparator]) (.single _))
  have hback : SaysTranslate t s backText := by
    refine ⟨"\\\"\\\\a".toList, "a\\\"\\\\".toList, ?_, ?_, ?_⟩
    · exact .escaped _ (.escaped _ (.plain (by decide) (by decide) .nil))
    · exact .plain (by decide) (by decide) (.escaped _ (.escaped _ .nil))
    · exact @Spaced.cons [' '] _ _ _ _ (by simp) (by simp [isSeparator])
        (@Spaced.cons [' '] _ _ _ _ (by simp) (by simp [isSeparator]) (.single _))
  refine ⟨rfl, hnodup, hperm, htext, hback, ?_, ?_⟩
  · obtain ⟨-, f, hothers, hmap, hparse⟩ := @translating_maps_characters_and_back s t rfl
    obtain ⟨program, hprogram, hrun, hrestore⟩ := hparse text htext
    obtain ⟨back, hbackprogram, hboth, hkept⟩ :=
      hrestore hnodup hperm ['\n'] backText (by simp) (by simp [isSeparator]) hback
    have hline : line.text.map f = ['\\', 'b', '"', 'a'] := by
      simp [line, hothers 'b' (by decide), hmap 0 'a' '"' rfl rfl (by decide),
        hmap 1 '"' '\\' rfl rfl (by decide), hmap 2 '\\' 'a' rfl rfl (by decide)]
    exact ⟨program, back, hprogram, hbackprogram, hboth, hline ▸ hrun true line rfl,
      hkept true line⟩
  · obtain ⟨-, f, hothers, hmap, hparse⟩ :=
      @translating_maps_characters_and_back ['a', 'b', 'a'] ['x', 'y', 'z'] rfl
    refine ⟨f, hmap 2 'a' 'z' rfl rfl (by decide), hmap 1 'b' 'y' rfl rfl (by decide),
      hothers 'c' (by decide), fun text htext => ?_⟩
    obtain ⟨program, hprogram, hrun, -⟩ := hparse text htext
    exact ⟨program, hprogram, hrun true line rfl⟩

end LineEditor
