import LineEditor.Proofs.Command.Refusal
import LineEditor.Proofs.Command.RepeatPrefix

/-!
# The earliest error

The parser accepts the tokens that spell a program. Other tokens it reads as far as a program can
still come of them: if it fails at their end, more tokens would make them a program, and if it fails
at a token, the tokens before that one can be completed, but not together with it.
-/

namespace LineEditor

variable {k : Keyword} {o : Operand} {t u : Token} {tokens before operands : List Token}
  {issue : Issue}

/-! ## Completing a command -/

/-- A token that comes from no text. -/
def Token.loose (kind : Kind) (text : List Char) : Token :=
  ⟨kind, text, .start⟩

/-- Tokens that can be read complete other tokens to those of a command. -/
def CompletesCommand (tokens more : List Token) : Prop :=
  (∀ t ∈ more, t.Readable) ∧ ∃ c, Spells (tokens ++ more) c

theorem Token.readable_loose {kind : Kind} (h : kind ≠ .int) (text : List Char) :
    (Token.loose kind text).Readable :=
  fun hkind => absurd hkind h

theorem Token.readable_zero : (Token.loose .int ['0']).Readable :=
  fun _ => by decide

theorem Token.isInt_zero : (Token.loose .int ['0']).IsInt 0 :=
  ⟨rfl, by decide⟩

/-- A token that is a command by itself. -/
def Token.home : Token :=
  .loose .word Verb.home.keyword.toList

theorem Token.readable_of_mem_home : ∀ t ∈ [Token.home], t.Readable := by
  intro t ht
  rw [List.mem_singleton.1 ht]
  exact Token.readable_loose (by decide) _

theorem spells_home : Spells [Token.home] (.edit (.plain .home)) :=
  .plain ⟨rfl, rfl⟩

/-- Whatever operand a keyword asks for, some tokens complete the command. -/
theorem Keyword.Asks.completable (ho : k.Asks operands o) (ht : t.IsWord k.spelling) :
    ∃ more, more ≠ [] ∧ CompletesCommand (t :: operands) more := by
  have hstring : ∀ s : List Char, ∀ u ∈ [Token.loose .string s], u.Readable := by
    intro s u hu
    rw [List.mem_singleton.1 hu]
    exact Token.readable_loose (by decide) s
  have hzero : ∀ u ∈ [Token.loose .int ['0']], u.Readable := by
    intro u hu
    rw [List.mem_singleton.1 hu]
    exact Token.readable_zero
  cases ho with
  | insert => exact ⟨_, by simp, hstring [], _, .insert ht ⟨rfl, rfl⟩⟩
  | truncateBy => exact ⟨_, by simp, hzero, _, .truncateBy ht Token.isInt_zero⟩
  | goto => exact ⟨_, by simp, hzero, _, .goto ht Token.isInt_zero⟩
  | find => exact ⟨_, by simp, hstring ['a'], _, .find ht ⟨rfl, rfl⟩⟩
  | findBack => exact ⟨_, by simp, hstring ['a'], _, .findBack ht ⟨rfl, rfl⟩⟩
  | source =>
    have hboth : ∀ u ∈ [Token.loose .string [], Token.loose .string []], u.Readable :=
      List.forall_mem_cons.2 ⟨hstring [] _ (by simp), hstring []⟩
    exact ⟨_, by simp, hboth, _, .translate ht ⟨rfl, rfl⟩ ⟨rfl, rfl⟩ rfl⟩
  | @target u hu =>
    exact ⟨_, by simp, hstring u.text, _, .translate ht ⟨hu, rfl⟩ ⟨rfl, rfl⟩ rfl⟩
  | times =>
    have hboth : ∀ u ∈ [Token.loose .int ['0'], Token.home], u.Readable :=
      List.forall_mem_cons.2 ⟨hzero _ (by simp), Token.readable_of_mem_home⟩
    exact ⟨_, by simp, hboth, _, .times ht Token.isInt_zero spells_home⟩

/-- Tokens that begin a command but do not finish it can be completed. -/
theorem Unfinished.completable (h : Unfinished tokens issue) :
    ∃ more, more ≠ [] ∧ CompletesCommand tokens more := by
  induction h with
  | operand ht ho => exact ho.completable ht
  | noBody ht hu =>
    exact ⟨_, by simp, Token.readable_of_mem_home, _, .times ht hu spells_home⟩
  | body ht hu h ih =>
    obtain ⟨more, hne, hreadable, c, hspells⟩ := ih
    exact ⟨more, hne, hreadable, _, .times ht hu hspells⟩

/-- The tokens before one that is stuck can be completed. -/
theorem Stuck.completable (h : Stuck before u issue) : ∃ more, CompletesCommand before more := by
  induction h with
  | noWord | unknown => exact ⟨_, Token.readable_of_mem_home, _, spells_home⟩
  | operand ht ho =>
    obtain ⟨more, -, hmore⟩ := ho.completable ht
    exact ⟨more, hmore⟩
  | body ht hu h ih =>
    obtain ⟨more, hreadable, c, hspells⟩ := ih
    exact ⟨more, hreadable, _, .times ht hu hspells⟩

/-! ## Completing a program -/

/-- Tokens that can be read complete other tokens to those of a program. -/
def Completes (tokens more : List Token) : Prop :=
  (∀ t ∈ more, t.Readable) ∧ ∃ program, SpellsProgram (tokens ++ more) program

/-- What completes a command completes the program that it ends. -/
theorem CompletesCommand.completes {front back more : List Token} {program : Program}
    (hfront : SpellsProgram front program) (h : CompletesCommand back more) :
    Completes (front ++ back) more := by
  obtain ⟨hreadable, c, hspells⟩ := h
  refine ⟨hreadable, program ++ [c], ?_⟩
  rw [List.append_assoc]
  induction hfront with
  | nil =>
    have hsingle := SpellsProgram.cons hspells .nil
    rw [List.append_nil] at hsingle
    exact hsingle
  | cons hc hprogram ih =>
    rw [List.append_assoc]
    exact .cons hc ih

/-- Tokens that end with one that is stuck cannot be completed. -/
theorem not_viable_of_stuck {front : List Token} {program : Program}
    (hfront : SpellsProgram front program) (h : Stuck before u issue) :
    ¬ Viable (front ++ before ++ [u]) := by
  rintro ⟨more, other, hspells⟩
  have hok : parseTokens (.endOfText .start) (front ++ before ++ [u] ++ more) = .ok other :=
    parseTokens_of_spells hspells
  have hrefused : Refused (.endOfText .start) (before ++ u :: more) (u.failure issue) := .stuck h
  have hsplit : front ++ before ++ [u] ++ more = front ++ (before ++ u :: more) := by simp
  rw [hsplit, parseTokens_of_refused hfront hrefused] at hok
  cases hok

/-! ## Parsing -/

theorem eq_nil_of_spells_nil (h : SpellsProgram tokens []) : tokens = [] := by
  cases h
  rfl

/-- The parser accepts the tokens that spell a program, and no others. What it refuses at the end of
the tokens is a proper part of what it accepts. A token that it refuses is the first one with which
no program can begin. Reading the counts of repetitions in a loop comes to the same. -/
theorem accepted_or_earliest_error (position : Position)
    (hreadable : ∀ t ∈ tokens, t.Readable) :
    (∀ program, parseTokens (.endOfText position) tokens = .ok program ↔
        SpellsProgram tokens program) ∧
      (parseTokens (.endOfText position) tokens = .ok [] ↔ tokens = []) ∧
      (∀ t rest, parseCommand (.endOfText position) t rest =
          parseFlat (.endOfText position) t rest ∧
        ∀ counts first others,
          readCounts (.endOfText position) [] t rest = .ok (counts, first, others) →
            ¬ first.IsWord Keyword.times.spelling) ∧
      ∀ failure, parseTokens (.endOfText position) tokens = .error failure →
        ∃ issue,
          (failure = .refused ⟨issue, position, none⟩ ∧
            ∃ more, more ≠ [] ∧ Completes tokens more) ∨
          ∃ before t after, tokens = before ++ t :: after ∧
            failure = .refused ⟨issue, t.position, some t⟩ ∧
            (∃ more, Completes before more) ∧ ¬ Viable (before ++ [t]) := by
  refine ⟨fun program => ⟨spells_of_parseTokens, parseTokens_of_spells⟩, ⟨fun h => ?_, ?_⟩,
    fun t rest => ⟨parseCommand_eq_parseFlat t rest, fun _ _ _ => not_times_of_readCounts⟩,
    fun failure h => ?_⟩
  · exact eq_nil_of_spells_nil (spells_of_parseTokens h)
  · rintro rfl
    exact parseTokens_of_spells .nil
  · obtain ⟨front, back, program, rfl, hfront, hback⟩ := refused_of_parseTokens hreadable h
    cases hback with
    | @unfinished _ issue hunfinished =>
      obtain ⟨more, hne, hmore⟩ := hunfinished.completable
      exact ⟨issue, Or.inl ⟨rfl, more, hne, hmore.completes hfront⟩⟩
    | @stuck before after t issue hstuck =>
      obtain ⟨more, hmore⟩ := hstuck.completable
      refine ⟨issue, Or.inr ⟨front ++ before, t, after, ?_, rfl, ?_, ?_⟩⟩
      · rw [List.append_assoc]
      · exact ⟨more, hmore.completes hfront⟩
      · exact not_viable_of_stuck hfront hstuck

/-- Of a negative amount in a command that is repeated, the parser knows that no program goes on
with it, wherever the token is said to stand. -/
theorem accepted_or_earliest_error_negative :
    (∀ t ∈ [⟨.word, "repeat".toList, ⟨1, 7⟩⟩, ⟨.int, "+02".toList, ⟨0, 0⟩⟩,
        ⟨.word, "truncate_by".toList, ⟨1, 1⟩⟩, ⟨.int, "-1".toList, ⟨-3, 0⟩⟩, Token.home],
      t.Readable) ∧
    ∃ before t after,
      [⟨.word, "repeat".toList, ⟨1, 7⟩⟩, ⟨.int, "+02".toList, ⟨0, 0⟩⟩,
        ⟨.word, "truncate_by".toList, ⟨1, 1⟩⟩, ⟨.int, "-1".toList, ⟨-3, 0⟩⟩, Token.home] =
          before ++ t :: after ∧
      t.position = ⟨-3, 0⟩ ∧ (∃ more, Completes before more) ∧ ¬ Viable (before ++ [t]) := by
  have hreadable : ∀ t ∈ [⟨.word, "repeat".toList, ⟨1, 7⟩⟩, ⟨.int, "+02".toList, ⟨0, 0⟩⟩,
      ⟨.word, "truncate_by".toList, ⟨1, 1⟩⟩, ⟨.int, "-1".toList, ⟨-3, 0⟩⟩, Token.home],
      t.Readable := by
    decide +kernel
  have hfail : parseTokens (.endOfText ⟨0, 0⟩) [⟨.word, "repeat".toList, ⟨1, 7⟩⟩,
      ⟨.int, "+02".toList, ⟨0, 0⟩⟩, ⟨.word, "truncate_by".toList, ⟨1, 1⟩⟩,
      ⟨.int, "-1".toList, ⟨-3, 0⟩⟩, Token.home] =
        .error (.refused ⟨.countExpected .truncateBy, ⟨-3, 0⟩,
          some ⟨.int, "-1".toList, ⟨-3, 0⟩⟩⟩) := by
    decide +kernel
  refine ⟨hreadable, ?_⟩
  obtain ⟨-, -, -, hearliest⟩ := accepted_or_earliest_error ⟨0, 0⟩ hreadable
  obtain ⟨issue, ⟨hended, -⟩ | ⟨before, t, after, hsplit, hrefused, hbefore, ht⟩⟩ :=
    hearliest _ hfail
  · cases hended
  · obtain ⟨-, hposition, -⟩ := ParseError.mk.inj (Failure.refused.inj hrefused)
    exact ⟨before, t, after, hsplit, hposition.symm, hbefore, ht⟩

end LineEditor
