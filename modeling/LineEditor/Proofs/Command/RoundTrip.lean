import LineEditor.Proofs.Command.Grammar
import LineEditor.Proofs.Command.Writable
import LineEditor.Proofs.Token.Reading

/-!
# Printing and parsing

A program of commands that have a written form is parsed back from what is written, whatever white
space stands between the tokens. Every program that is parsed has a written form, so printing it and
parsing again changes nothing.
-/

namespace LineEditor

/-! ## From commands to text and back -/

/-- A text that is made of pieces that can be read can be read. -/
theorem readable_of_spaced {pieces : List (List Char)} {text : List Char}
    {readings : List (Kind × List Char)} (h : Spaced pieces text)
    (hwrites : List.Forall₂ Writes pieces readings) : Readable text := by
  intro l hl hkind hword
  have hreadable := (lexemes_of_spaced h hwrites 0).2 l hl hkind
  simpa [tooManyDigits?, hword] using hreadable

/-- A text is parsed as the program that the readings of its pieces spell. -/
theorem parse_of_writes {program : Program} {pieces : List (List Char)} {text : List Char}
    {readings : List (Kind × List Char)} (htext : Spaced pieces text)
    (hwrites : List.Forall₂ Writes pieces readings)
    (hspell : ReadingsSpellProgram readings program) : parse text = .ok program := by
  have hreadable := readable_of_spaced htext hwrites
  have htokens : (Lexer.ofSource text).tokens.map (fun t => (t.kind, t.text)) = readings := by
    rw [tokens_of_readable hreadable, List.map_map]
    exact (lexemes_of_spaced htext hwrites 0).1
  rw [parse, Lexer.parse, ending_of_readable hreadable]
  exact parseTokens_of_spells (hspell _ htokens)

/-- What is written is parsed back. -/
theorem parse_of_spaced {program : Program} {text : List Char} (h : ∀ c ∈ program, c.Writable)
    (htext : Spaced program.written text) : parse text = .ok program := by
  obtain ⟨readings, hwrites, hspell⟩ := spelled_of_writable h
  exact parse_of_writes htext hwrites hspell

/-- One space between pieces is white space between them. -/
theorem spaced_intercalate (pieces : List (List Char)) :
    Spaced pieces ([' '].intercalate pieces) := by
  induction pieces with
  | nil => exact .nil
  | cons piece pieces ih =>
    rcases pieces with _ | ⟨next, pieces⟩
    · simpa using Spaced.single piece
    · rw [List.intercalate_cons_cons]
      exact .cons piece (List.cons_ne_nil ' ' []) (by simp [isSeparator]) ih

/-! ## From text to commands and back -/

/-- The integers among the tokens of a text have at most 32 bits. -/
theorem inRange_of_mem_tokens {source : List Char} {t : Token}
    (h : t ∈ (Lexer.ofSource source).tokens) : t.InRange := by
  intro hkind n hn
  obtain ⟨l, hl, -, rfl⟩ := Lexer.exists_lexeme_of_mem_tokens h
  refine isInt32_of_writtenKind (writtenKind_of_mem_lexemesFrom hl hkind) ?_
  unfold Token.integer at hn
  split at hn
  · rename_i hread
    rw [Except.ok.injEq] at hn
    rw [hn] at hread
    exact hread
  · cases hn
  · cases hn

/-- Every command of a program that is parsed has a written form. -/
theorem writable_of_parse {source : List Char} {program : Program}
    (h : parse source = .ok program) : ∀ c ∈ program, c.Writable :=
  writable_of_spellsProgram (spells_of_parseTokens h) fun _ ht => inRange_of_mem_tokens ht

/-- A program that has a written form is parsed back from it, with any white space between the
tokens. A program that is parsed has a written form and is parsed back from what is printed. -/
theorem print_parse_roundtrip :
    (∀ (program : Program) (text : List Char), (∀ c ∈ program, c.Writable) →
        Spaced program.written text → parse text = .ok program) ∧
      ∀ (source : List Char) (program : Program), parse source = .ok program →
        (∀ c ∈ program, c.Writable) ∧ parse program.print = .ok program := by
  refine ⟨fun program text h htext => parse_of_spaced h htext, ?_⟩
  intro source program h
  have hwritable := writable_of_parse h
  exact ⟨hwritable, parse_of_spaced hwritable (spaced_intercalate program.written)⟩

/-- Nested repetitions are read back over tabs and line ends, and the inserted quote and backslash
with them. Of two pairs for one character the parser keeps one, in the place of the first. -/
theorem print_parse_roundtrip_nested :
    parse "repeat\t2 repeat\n 0 insert\r\n\"\\\"\\\\\"".toList =
        .ok [.times 2 (.times 0 (.edit (.insert ['"', '\\'])))] ∧
      parse (Program.print [.edit (.translate [('a', 'z'), ('b', 'y')])]) =
        .ok [.edit (.translate [('a', 'z'), ('b', 'y')])] := by
  refine ⟨?_, ?_⟩
  · refine print_parse_roundtrip.1 _ _ ?_ ?_
    · intro c hc
      rw [List.mem_singleton.1 hc]
      exact .times (by decide) (.times (by decide) (.insert _))
    · have hgap : ∀ gap : List Char, gap.all isSeparator = true →
          ∀ c ∈ gap, isSeparator c = true := fun gap h => List.all_eq_true.1 h
      have htext : "repeat\t2 repeat\n 0 insert\r\n\"\\\"\\\\\"".toList =
          Keyword.times.spelling.toList ++ ['\t'] ++ (writeInt 2 ++ [' '] ++
            (Keyword.times.spelling.toList ++ ['\n', ' '] ++ (writeInt 0 ++ [' '] ++
              (Keyword.insert.spelling.toList ++ ['\r', '\n'] ++ writeString ['"', '\\'])))) := by
        decide +kernel
      rw [htext]
      exact .cons _ (by simp) (hgap _ rfl) (.cons _ (by simp) (hgap _ rfl)
        (.cons _ (by simp) (hgap _ rfl) (.cons _ (by simp) (hgap _ rfl)
          (.cons _ (by simp) (hgap _ rfl) (.single _)))))
  · have hparse : parse "translate \"aba\"\"xyz\"".toList =
        .ok [.edit (.translate [('a', 'z'), ('b', 'y')])] := by
      decide +kernel
    exact (print_parse_roundtrip.2 _ _ hparse).2

end LineEditor
