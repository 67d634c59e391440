import LineEditor.Command.Streaming
import LineEditor.Proofs.Command.Refusal
import LineEditor.Proofs.Token.Places

/-!
# Parsing while reading comes to the same

A lexer that is read token by token has its tokens still ahead of it, whatever it holds between two
of them. So taking each token when it is asked for parses what taking them all beforehand does. Only
the place of an error at the end tells where the tokens came from.
-/

namespace LineEditor

variable {α : Type} {ending : Lexer.Ending} {lexer rest : Lexer} {t : Token} {issue : Issue}
  {k : Keyword}

/-! ## The tokens ahead of a lexer -/

theorem Lexer.tokens_of_token (h : lexer.next = .token t rest) :
    lexer.tokens = t :: rest.tokens ∧ rest.ending = lexer.ending := by
  have hrun := run_of_token h
  refine ⟨?_, ?_⟩
  · rw [tokens, hrun]
    rfl
  · rw [ending, ending, hrun]

theorem Lexer.tokens_of_finished {last : Lexer} (h : lexer.next = .finished last) :
    lexer.tokens = [] ∧ lexer.ending = .endOfText last.reach := by
  rw [tokens, ending, run_of_finished h]
  exact ⟨rfl, rfl⟩

theorem Lexer.tokens_of_tooLong {digits : Nat} (h : lexer.next = .tooLong digits) :
    lexer.tokens = [] ∧ lexer.ending = .tooLong digits := by
  rw [tokens, ending, run_of_tooLong h]
  exact ⟨rfl, rfl⟩

/-! ## What is taken from a lexer and what is taken from its tokens -/

/-- Taking something from a lexer comes to the same as taking it from some tokens, which end as
given: both fail alike, or leave a lexer and the tokens ahead of it. -/
inductive SameTaken (ending : Lexer.Ending) :
    Except Failure (α × Lexer) → Except Failure (α × List Token) → Prop where
  | error (e : Failure) : SameTaken ending (.error e) (.error e)
  | ok (a : α) {rest : Lexer} (h : rest.ending = ending) :
      SameTaken ending (.ok (a, rest)) (.ok (a, rest.tokens))

theorem SameTaken.of_error {e : Failure} {taken : Except Failure (α × List Token)}
    (h : SameTaken ending (.error e) taken) : taken = .error e := by
  cases h with
  | error => rfl

theorem SameTaken.of_ok {a : α} {taken : Except Failure (α × List Token)}
    (h : SameTaken ending (.ok (a, rest)) taken) :
    taken = .ok (a, rest.tokens) ∧ rest.ending = ending := by
  cases h with
  | ok _ hrest => exact ⟨rfl, hrest⟩

/-- Taking a token from a lexer takes the first of the tokens ahead, or fails as they end. -/
inductive Pulled (issue : Issue) (ending : Lexer.Ending) :
    Except Failure (Token × Lexer) → List Token → Prop where
  | missing : Pulled issue ending (.error (ending.failure issue)) []
  | token (t : Token) {rest : Lexer} (h : rest.ending = ending) :
      Pulled issue ending (.ok (t, rest)) (t :: rest.tokens)

theorem Lexer.pull_pulled (issue : Issue) (lexer : Lexer) :
    Pulled issue lexer.ending (lexer.pull issue) lexer.tokens := by
  rw [pull]
  cases hnext : lexer.next with
  | token t rest =>
    obtain ⟨htokens, hending⟩ := tokens_of_token hnext
    rw [htokens]
    exact .token t hending
  | finished last =>
    obtain ⟨htokens, hending⟩ := tokens_of_finished hnext
    rw [htokens, hending]
    exact .missing
  | tooLong digits =>
    obtain ⟨htokens, hending⟩ := tokens_of_tooLong hnext
    rw [htokens, hending]
    exact .missing

/-- What is made of what was taken is the same too. -/
theorem SameTaken.map {β : Type} (f : α → β) {pulled : Except Failure (α × Lexer)}
    {taken : Except Failure (α × List Token)} (h : SameTaken ending pulled taken) :
    SameTaken ending (pulled.map fun (a, rest) => (f a, rest))
      (taken.map fun (a, rest) => (f a, rest)) := by
  cases h with
  | error e => exact .error e
  | ok a hrest => exact .ok (f a) hrest

theorem Lexer.pullKind_same (kind : Kind) (issue : Issue) (lexer : Lexer) :
    SameTaken lexer.ending (lexer.pullKind kind issue)
      (expect lexer.ending kind issue lexer.tokens) := by
  have h := pull_pulled issue lexer
  unfold pullKind
  -- The lexer is forgotten, as the cases of `Pulled` are about the tokens ahead.
  generalize lexer.pull issue = pulled, lexer.tokens = tokens at h ⊢
  cases h with
  | missing => exact .error _
  | token t hrest =>
    rw [expect]
    by_cases hkind : t.kind = kind
    · simp only [if_pos hkind]
      exact .ok t hrest
    · simp only [if_neg hkind]
      exact .error _

theorem Lexer.pullCount_same (k : Keyword) (lexer : Lexer) :
    SameTaken lexer.ending (lexer.pullCount k) (expectCount lexer.ending k lexer.tokens) := by
  have h := pull_pulled (.integerExpected k) lexer
  unfold pullCount
  generalize lexer.pull (.integerExpected k) = pulled, lexer.tokens = tokens at h ⊢
  cases h with
  | missing => exact .error _
  | token t hrest =>
    rw [expectCount]
    dsimp only
    cases t.count k with
    | error e => exact .error e
    | ok n => exact .ok n hrest

theorem Lexer.pullChar_same (k : Keyword) (lexer : Lexer) :
    SameTaken lexer.ending (lexer.pullChar k) (expectChar lexer.ending k lexer.tokens) := by
  have h := pullKind_same .string (.stringExpected k) lexer
  unfold pullChar expectChar
  generalize lexer.pullKind .string (.stringExpected k) = pulled,
    expect lexer.ending .string (.stringExpected k) lexer.tokens = taken at h ⊢
  cases h with
  | error e => exact .error e
  | ok t hrest =>
    dsimp only
    split
    · exact .ok t.text hrest
    · exact .error _

theorem Lexer.pullPairs_same (lexer : Lexer) :
    SameTaken lexer.ending lexer.pullPairs (expectPairs lexer.ending lexer.tokens) := by
  have h := pullKind_same .string (.stringExpected .translate) lexer
  unfold pullPairs expectPairs
  generalize lexer.pullKind .string (.stringExpected .translate) = pulled,
    expect lexer.ending .string (.stringExpected .translate) lexer.tokens = taken at h ⊢
  cases h with
  | error e => exact .error e
  | @ok source rest hrest =>
    have h := pullKind_same .string .secondStringExpected rest
    rw [hrest] at h
    dsimp only
    generalize rest.pullKind .string .secondStringExpected = pulled,
      expect lexer.ending .string .secondStringExpected rest.tokens = taken at h ⊢
    cases h with
    | error e => exact .error e
    | ok target hlast =>
      dsimp only
      split
      · exact .ok _ hlast
      · exact .error _

/-! ## Commands and programs -/

/-- A count that can be taken is followed by what is to be repeated. -/
theorem parseCommand_of_expectCount {tokens others : List Token} {n : Int}
    (ht : t.IsWord Keyword.times.spelling)
    (hcount : expectCount ending .times tokens = .ok (n, others)) :
    (others = [] → parseCommand ending t tokens = .error (ending.failure (.bodyExpected n))) ∧
      ∀ body rest, others = body :: rest → parseCommand ending t tokens =
        (parseCommand ending body rest).map fun (c, rest) => (.times n c, rest) := by
  rw [parseCommand_times ht]
  cases tokens with
  | nil => cases hcount
  | cons u tokens =>
    obtain ⟨count, hu, hpair⟩ := exists_of_map_eq_ok hcount
    cases hpair
    simp only [hu]
    refine ⟨?_, ?_⟩
    · rintro rfl
      rfl
    · rintro body rest rfl
      rfl

theorem parseCommand_of_expectCount_error {tokens : List Token} {e : Failure}
    (ht : t.IsWord Keyword.times.spelling) (h : expectCount ending .times tokens = .error e) :
    parseCommand ending t tokens = .error e := by
  rw [parseCommand_times ht]
  cases tokens with
  | nil =>
    cases h
    rfl
  | cons u tokens =>
    rw [expectCount] at h
    simp only [exists_of_map_eq_error h]

/-- Reading a command token by token comes to the same as parsing the tokens ahead. -/
theorem Lexer.pullCommand_same (t : Token) (lexer : Lexer) :
    SameTaken lexer.ending (lexer.pullCommand t) (parseCommand lexer.ending t lexer.tokens) := by
  -- Only the body of a repetition is a command again; its first token has been taken from what the
  -- count left, where the tokens still end as those of the whole do.
  fun_induction pullCommand t lexer with
  | case1 t lexer hword v hverb =>
    rw [parseCommand.eq_def, if_pos hword, hverb]
    exact .ok _ rfl
  | case2 t lexer hword hkeyword hverb =>
    rw [parseCommand.eq_def, if_pos hword, hverb, hkeyword]
    exact .error _
  | case3 t lexer hword hkeyword hverb =>
    rw [parseCommand.eq_def, if_pos hword, hverb, hkeyword]
    exact (pullKind_same .string (.stringExpected .insert) lexer).map fun s =>
      Command.edit (.insert s.text)
  | case4 t lexer hword hkeyword hverb =>
    rw [parseCommand.eq_def, if_pos hword, hverb, hkeyword]
    exact (pullCount_same .truncateBy lexer).map fun n => Command.edit (.truncateBy n)
  | case5 t lexer hword hkeyword hverb e hcolumn =>
    have hsame := pullKind_same .int (.integerExpected .goto) lexer
    rw [hcolumn] at hsame
    rw [parseCommand.eq_def, if_pos hword, hverb, hkeyword]
    simp only [hsame.of_error]
    exact .error e
  | case6 t lexer hword hkeyword hverb n rest hcolumn =>
    have hsame := pullKind_same .int (.integerExpected .goto) lexer
    rw [hcolumn] at hsame
    obtain ⟨hexpect, hrest⟩ := hsame.of_ok
    rw [parseCommand.eq_def, if_pos hword, hverb, hkeyword]
    simp only [hexpect]
    cases n.integer with
    | error e => exact .error e
    | ok column => exact .ok _ hrest
  | case7 t lexer hword hkeyword hverb =>
    rw [parseCommand.eq_def, if_pos hword, hverb, hkeyword]
    exact (pullChar_same .find lexer).map fun c => Command.edit (.find c)
  | case8 t lexer hword hkeyword hverb =>
    rw [parseCommand.eq_def, if_pos hword, hverb, hkeyword]
    exact (pullChar_same .findBack lexer).map fun c => Command.edit (.findBack c)
  | case9 t lexer hword hkeyword hverb =>
    rw [parseCommand.eq_def, if_pos hword, hverb, hkeyword]
    exact (pullPairs_same lexer).map fun pairs => Command.edit (.translate pairs)
  | case10 t lexer hword hkeyword hverb e hcount =>
    have hsame := pullCount_same .times lexer
    rw [hcount] at hsame
    rw [parseCommand_of_expectCount_error ⟨hword, Keyword.eq_spelling_of_ofWord? hkeyword⟩
      hsame.of_error]
    exact .error e
  | case11 t lexer hword hkeyword hverb n middle hcount e hbody =>
    have hsame := pullCount_same .times lexer
    have hpulled := pull_pulled (.bodyExpected n) middle
    rw [hcount] at hsame
    rw [hbody] at hpulled
    obtain ⟨hexpect, hmiddle⟩ := hsame.of_ok
    obtain ⟨hnone, -⟩ := parseCommand_of_expectCount
      ⟨hword, Keyword.eq_spelling_of_ofWord? hkeyword⟩ hexpect
    generalize middle.tokens = tokens at hpulled hnone
    cases hpulled with
    | missing =>
      rw [hnone rfl, hmiddle]
      exact .error _
  | case12 t lexer hword hkeyword hverb n middle hcount body rest hbody ih =>
    have hsame := pullCount_same .times lexer
    have hpulled := pull_pulled (.bodyExpected n) middle
    rw [hcount] at hsame
    rw [hbody] at hpulled
    obtain ⟨hexpect, hmiddle⟩ := hsame.of_ok
    obtain ⟨-, hsome⟩ := parseCommand_of_expectCount
      ⟨hword, Keyword.eq_spelling_of_ofWord? hkeyword⟩ hexpect
    generalize middle.tokens = tokens at hpulled hsome
    cases hpulled with
    | token _ hrest =>
      rw [hrest, hmiddle] at ih
      rw [hsome body rest.tokens rfl]
      exact ih.map fun c => Command.times n c
  | case13 t lexer hword =>
    rw [parseCommand.eq_def, if_neg hword]
    exact .error _

/-- Parsing while reading comes to the same as parsing all tokens that are still to be read. -/
theorem Lexer.pullProgram_eq_parse (lexer : Lexer) : lexer.pullProgram = lexer.parse := by
  fun_induction pullProgram lexer with
  | case1 lexer last hnext =>
    obtain ⟨htokens, hending⟩ := tokens_of_finished hnext
    rw [parse, htokens, hending, parseTokens]
  | case2 lexer digits hnext =>
    obtain ⟨htokens, hending⟩ := tokens_of_tooLong hnext
    rw [parse, htokens, hending, parseTokens]
  | case3 lexer t rest hnext e hcommand =>
    obtain ⟨htokens, hending⟩ := tokens_of_token hnext
    have hsame := pullCommand_same t rest
    rw [hcommand, hending] at hsame
    rw [parse, htokens, parseTokens_of_command_error hsame.of_error]
  | case4 lexer t rest hnext c last hcommand ih =>
    obtain ⟨htokens, hending⟩ := tokens_of_token hnext
    have hsame := pullCommand_same t rest
    rw [hcommand, hending] at hsame
    obtain ⟨hparse, hlast⟩ := hsame.of_ok
    rw [ih, parse, parse, htokens, parseTokens_of_command hparse, hlast]

/-! ## Tokens that have been taken before -/

/-- A lexer from which tokens have been taken has the others ahead, and they end in the same way. -/
theorem Lexer.skip_of_le {count : Nat} (h : count ≤ lexer.tokens.length) :
    ∃ reached, lexer.skip count = .ok reached ∧ reached.tokens = lexer.tokens.drop count ∧
      reached.ending = lexer.ending := by
  induction count generalizing lexer with
  | zero => exact ⟨lexer, rfl, rfl, rfl⟩
  | succ count ih =>
    rw [skip]
    cases hnext : lexer.next with
    | token t rest =>
      obtain ⟨htokens, hending⟩ := tokens_of_token hnext
      rw [htokens] at h
      obtain ⟨reached, hskip, hreached, hlast⟩ := ih (Nat.le_of_succ_le_succ h)
      rw [htokens, List.drop_succ_cons]
      exact ⟨reached, hskip, hreached, hlast.trans hending⟩
    | finished last =>
      rw [(tokens_of_finished hnext).1] at h
      cases h
    | tooLong digits =>
      rw [(tokens_of_tooLong hnext).1] at h
      cases h

/-- Where tokens end matters only to an error that is met there. -/
theorem parseTokens_endings {tokens : List Token} (hreadable : ∀ u ∈ tokens, u.Readable)
    (p q : Position) :
    (∃ program, parseTokens (.endOfText p) tokens = .ok program ∧
        parseTokens (.endOfText q) tokens = .ok program) ∨
      ∃ issue found,
        parseTokens (.endOfText p) tokens =
            .error (.refused ⟨issue, found.elim p Token.position, found⟩) ∧
          parseTokens (.endOfText q) tokens =
            .error (.refused ⟨issue, found.elim q Token.position, found⟩) := by
  cases hparse : parseTokens (.endOfText p) tokens with
  | ok program => exact Or.inl ⟨program, rfl, parseTokens_of_spells (spells_of_parseTokens hparse)⟩
  | error failure =>
    -- The tokens say why they are refused, whatever place their end has.
    obtain ⟨front, back, program, rfl, hfront, hback⟩ := refused_of_parseTokens hreadable hparse
    cases hback with
    | @unfinished _ issue h =>
      exact Or.inr ⟨issue, none, rfl, parseTokens_of_refused hfront (.unfinished h)⟩
    | @stuck _ _ u issue h =>
      exact Or.inr ⟨issue, some u, rfl, parseTokens_of_refused hfront (.stuck h)⟩

/-- Some tokens of a text, perhaps none, have been taken from a lexer. What is then parsed while
reading is what the list of the other tokens is parsed as: the same program, or the same error about
the same token. Only if no token is found is the error at the end of the text while reading, and at
no line of it for the list. If no token has been taken, the whole text is parsed. -/
theorem streaming_parse_agrees {source : List Char} (hsource : Readable source) {count : Nat}
    (hcount : count ≤ (Lexer.ofSource source).tokens.length) :
    ∃ lexer, (Lexer.ofSource source).skip count = .ok lexer ∧
      ((∃ program, lexer.pullProgram = .ok program ∧
          parseTokens (.endOfText ⟨0, 0⟩) ((Lexer.ofSource source).tokens.drop count) =
            .ok program) ∨
        ∃ issue found,
          lexer.pullProgram = .error (.refused
              ⟨issue, found.elim (.ofIndex source source.length) Token.position, found⟩) ∧
            parseTokens (.endOfText ⟨0, 0⟩) ((Lexer.ofSource source).tokens.drop count) =
              .error (.refused ⟨issue, found.elim ⟨0, 0⟩ Token.position, found⟩)) ∧
      (count = 0 → lexer.pullProgram = parse source) := by
  obtain ⟨lexer, hskip, htokens, hending⟩ := Lexer.skip_of_le hcount
  have hreadable : ∀ u ∈ (Lexer.ofSource source).tokens.drop count, u.Readable := by
    intro u hu
    exact readable_of_mem_tokens (List.mem_of_mem_drop hu)
  have hparse : lexer.pullProgram = parseTokens (.endOfText (.ofIndex source source.length))
      ((Lexer.ofSource source).tokens.drop count) := by
    rw [Lexer.pullProgram_eq_parse, Lexer.parse, htokens, hending, ending_of_readable hsource]
  refine ⟨lexer, hskip, ?_, ?_⟩
  · rw [hparse]
    exact parseTokens_endings hreadable _ _
  · rintro rfl
    cases hskip
    exact Lexer.pullProgram_eq_parse _

/-- The bracket that ends the word begins the next one, which is taken too. Then a string is
missing, and the text has ended on its second line. -/
theorem streaming_parse_agrees_missing :
    let source := "home(x\ninsert".toList
    Readable source ∧ 2 ≤ (Lexer.ofSource source).tokens.length ∧
      ∃ lexer, (Lexer.ofSource source).skip 2 = .ok lexer ∧
        lexer.pullProgram = .error (.refused ⟨.stringExpected .insert, ⟨2, 7⟩, none⟩) ∧
        parseTokens (.endOfText ⟨0, 0⟩) ((Lexer.ofSource source).tokens.drop 2) =
          .error (.refused ⟨.stringExpected .insert, ⟨0, 0⟩, none⟩) := by
  intro source
  have hsource : Readable source := by decide +kernel
  have hcount : 2 ≤ (Lexer.ofSource source).tokens.length := by decide +kernel
  have hlist : parseTokens (.endOfText ⟨0, 0⟩) ((Lexer.ofSource source).tokens.drop 2) =
      .error (.refused ⟨.stringExpected .insert, ⟨0, 0⟩, none⟩) := by decide +kernel
  obtain ⟨lexer, hskip, hagree, -⟩ := streaming_parse_agrees hsource hcount
  refine ⟨hsource, hcount, lexer, hskip, ?_, hlist⟩
  rcases hagree with ⟨program, -, hparse⟩ | ⟨issue, found, hstream, hparse⟩
  · rw [hlist] at hparse
    cases hparse
  · rw [hlist] at hparse
    injection hparse with hrefused
    injection hrefused with herror
    injection herror with hissue _ hfound
    rw [hstream, ← hissue, ← hfound]
    decide +kernel

end LineEditor
