import LineEditor.Program.Compile
import LineEditor.Proofs.Command.EarliestError
import LineEditor.Proofs.Command.Written
import LineEditor.Proofs.Program.Kept

/-!
# What can go wrong in compiling

A program text is compiled, or it holds no commands, or it is refused with an error that says what
is wrong, where, and what is expected there. One thing more can go wrong: the text is not read past
an integer that has more digits than the limit, so it is neither accepted nor refused then. Once a
text is compiled, nothing goes wrong any more: the program runs to its end on every line.
-/

namespace LineEditor

open Text (digitLimit)

variable {ending : Lexer.Ending} {tokens : List Token} {failure : Failure} {source : List Char}

/-! ## Why tokens are not parsed -/

/-- A command is refused, unless its tokens end at an integer that cannot be read. -/
theorem Refused.refused_or_tooLong (h : Refused ending tokens failure) :
    (∃ e, failure = .refused e) ∨
      ∃ digits, ending = .tooLong digits ∧ failure = .tooLong digits := by
  cases h with
  | stuck => exact .inl ⟨_, rfl⟩
  | unfinished => cases ending with
    | endOfText => exact .inl ⟨_, rfl⟩
    | tooLong digits => exact .inr ⟨digits, rfl, rfl⟩

/-- So is a program. -/
theorem refused_or_tooLong_of_parseTokens (hreadable : ∀ t ∈ tokens, t.Readable)
    (h : parseTokens ending tokens = .error failure) :
    (∃ e, failure = .refused e) ∨
      ∃ digits, ending = .tooLong digits ∧ failure = .tooLong digits := by
  rcases refused_or_ended_of_parseTokens hreadable h with ⟨-, back, -, -, -, hback⟩ | hended
  · exact hback.refused_or_tooLong
  · exact .inr hended

/-! ## Compiling -/

/-- A program text is compiled if it is parsed and holds a command. Otherwise it is empty of
commands, or refused with the error of the parser, unless it holds an integer of too many digits at
which reading it stops. -/
theorem compiled_or_refused_unless_tooLong (source : List Char) (stop : Bool) :
    (∃ program, program ≠ [] ∧ parse source = .ok program ∧
        compile source stop = .ok ⟨program, stop⟩) ∨
      (parse source = .ok [] ∧ compile source stop = .error .empty) ∨
      (∃ e : ParseError, parse source = .error (.refused e) ∧
        compile source stop = .error (.failed (.refused e)) ∧
        (CompileError.failed (.refused e)).message = e.message) ∨
      ∃ l ∈ lexemes source, l.kind ≠ .string ∧ isIntegerWord l.text = true ∧
        digitLimit < (unsigned l.text).length ∧
        parse source = .error (.tooLong (unsigned l.text).length) ∧
        compile source stop = .error (.failed (.tooLong (unsigned l.text).length)) := by
  unfold compile
  cases hparse : parse source with
  | ok program => cases program with
    | nil => exact .inr (.inl ⟨rfl, rfl⟩)
    | cons c program => exact .inl ⟨c :: program, List.cons_ne_nil c program, rfl, rfl⟩
  | error failure =>
    have hfail : parseTokens (Lexer.ofSource source).ending (Lexer.ofSource source).tokens =
        .error failure := hparse
    rcases refused_or_tooLong_of_parseTokens (fun t => readable_of_mem_tokens) hfail with
      ⟨e, rfl⟩ | ⟨digits, hending, rfl⟩
    · exact .inr (.inr (.inl ⟨e, rfl, rfl, rfl⟩))
    · obtain ⟨l, hl, hdigits⟩ := Lexer.exists_lexeme_of_ending hending
      obtain ⟨hkind, hword, hlimit, rfl⟩ := Lexeme.unreadable?_eq_some_iff.1 hdigits
      exact .inr (.inr (.inr ⟨l, hl, hkind, hword, hlimit, rfl, rfl⟩))

/-! ## What is compiled runs -/

theorem supported_of_spells {c : Command} (h : Spells tokens c) : c.Supported := by
  induction h with
  | plain | goto | insert | truncateBy | find | findBack | translate => exact .edit trivial
  | times _ _ _ ih => exact .times ih

theorem supported_of_spellsProgram {program : Program} (h : SpellsProgram tokens program) :
    ∀ c ∈ program, c.Supported := by
  induction h with
  | nil => exact nofun
  | cons hc _ ih =>
    intro d hd
    rcases List.mem_cons.1 hd with rfl | hd
    · exact supported_of_spells hc
    · exact ih d hd

/-- A program that is compiled runs to its end on every line. -/
theorem run_eq_ran_of_compile {stop : Bool} {compiled : Compiled}
    (h : compile source stop = .ok compiled) (line : List Char) :
    Program.run compiled.stopOnDone compiled.program line = .ran (compiled.execute line) := by
  have hparse : parse source = .ok compiled.program := by
    unfold compile at h
    split at h
    · cases h
    · cases h
    · rename_i hok
      cases h
      exact hok
  have hsupported := supported_of_spellsProgram (spells_of_parseTokens hparse)
  obtain ⟨last, hrun, -⟩ : ∃ last, Program.run compiled.stopOnDone compiled.program line =
      .ran last ∧ last.InBounds ∧ True :=
    Program.run_keeps (fun _ _ _ _ _ => trivial) hsupported trivial
  rw [Compiled.execute, hrun]
  rfl

/-! ## Integers of too many digits -/

theorem isPieceChar_of_mem_integerWord {word : List Char} (h : isIntegerWord word = true) :
    ∀ c ∈ word, isPieceChar c = true := by
  obtain ⟨-, hdigits⟩ := digits_of_isIntegerWord h
  intro c hc
  unfold unsigned at hdigits
  split at hdigits
  · rcases List.mem_cons.1 hc with rfl | hc
    · decide
    · exact isPieceChar_of_isDigit (hdigits c hc)
  · rcases List.mem_cons.1 hc with rfl | hc
    · decide
    · exact isPieceChar_of_isDigit (hdigits c hc)
  · exact isPieceChar_of_isDigit (hdigits c hc)

/-- A program text that begins with an integer of too many digits is neither accepted nor refused,
whatever follows. -/
theorem parse_of_long_integer {word rest : List Char} (hword : isIntegerWord word = true)
    (hlimit : digitLimit < (unsigned word).length) (hrest : IsGap rest) :
    parse (word ++ rest) = .error (.tooLong (unsigned word).length) := by
  have hne : word ≠ [] := by
    rintro rfl
    exact absurd hword (by decide)
  have hlexemes : lexemes (word ++ rest) = ⟨writtenKind word, word, 0 + word.length⟩ ::
      lexemesFrom (0 + word.length) rest :=
    lexemesFrom_pieceChars hne (isPieceChar_of_mem_integerWord hword) hrest 0
  have hunreadable : Lexeme.unreadable? ⟨writtenKind word, word, 0 + word.length⟩ =
      some (unsigned word).length :=
    Lexeme.unreadable?_eq_some_iff.2 ⟨writtenKind_ne_string word, hword, hlimit, rfl⟩
  have hahead := Lexer.ahead_ofSource (word ++ rest)
  rw [hlexemes] at hahead
  obtain ⟨hsteps, hending⟩ := Lexer.run_of_ahead hahead
  rw [List.takeWhile_cons_of_neg (by rw [hunreadable]; simp), List.map_nil,
    List.map_eq_nil_iff] at hsteps
  rw [Lexeme.ending, List.findSome?_cons, hunreadable] at hending
  rw [parse, Lexer.parse, Lexer.tokens, hsteps, Lexer.ending, hending, List.map_nil, parseTokens]

/-- So not every program text is accepted or refused: one digit more than the limit is enough. -/
theorem not_refused_of_long_integer :
    let source := List.replicate 4301 '1'
    ¬ ((∃ program, parse source = .ok program) ∨ ∃ e, parse source = .error (.refused e)) := by
  intro source
  have hcons : source = '1' :: List.replicate 4300 '1' := List.replicate_succ
  have hunsigned : unsigned source = source := by
    rw [hcons]
    exact unsigned_of_ne (by decide) (by decide)
  have hne : source ≠ [] := by
    rw [hcons]
    exact List.cons_ne_nil _ _
  have hdigits : ∀ c ∈ source, c.isDigit = true := by
    intro c hc
    rw [List.eq_of_mem_replicate hc]
    decide
  have hword : isIntegerWord source = true := by
    simp only [isIntegerWord, hunsigned, Bool.and_eq_true, Bool.not_eq_true',
      List.isEmpty_eq_false_iff, List.all_eq_true]
    exact ⟨hne, hdigits⟩
  have hlimit : digitLimit < (unsigned source).length := by
    rw [hunsigned, List.length_replicate]
    decide
  have hparse := parse_of_long_integer hword hlimit isGap_nil
  rw [List.append_nil] at hparse
  rw [hparse]
  rintro (⟨program, hok⟩ | ⟨e, herror⟩)
  · cases hok
  · cases herror

end LineEditor
