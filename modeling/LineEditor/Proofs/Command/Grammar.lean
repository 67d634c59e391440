import LineEditor.Command.Grammar
import LineEditor.Proofs.Command.Keyword

/-!
# The parser and the grammar

The parser takes exactly the tokens that spell a command, and yields that command. So it accepts the
tokens that spell a program and no others.
-/

namespace LineEditor

/-! ## What is spelled is parsed -/

variable {ending : Lexer.Ending} {t : Token} {tokens rest : List Token}

theorem expect_of_kind {kind : Kind} {issue : Issue} (h : t.kind = kind) :
    expect ending kind issue (t :: tokens) = .ok (t, tokens) := by
  rw [expect, if_pos h]

theorem Token.count_of_isInt {k : Keyword} {count : Nat} (h : t.IsInt count) :
    t.count k = .ok count := by
  rw [Token.count, if_pos h.1, h.2]
  simp

theorem expectCount_of_isInt {k : Keyword} {count : Nat} (h : t.IsInt count) :
    expectCount ending k (t :: tokens) = .ok ((count : Int), tokens) := by
  rw [expectCount, Token.count_of_isInt h]
  rfl

theorem expectChar_of_isString {k : Keyword} {c : Char} (h : t.IsString [c]) :
    expectChar ending k (t :: tokens) = .ok ([c], tokens) := by
  rw [expectChar, expect_of_kind h.1]
  simp [h.2]

theorem expectPairs_of_isString {u : Token} {source target : List Char} (ht : t.IsString source)
    (hu : u.IsString target) (hlength : source.length = target.length) :
    expectPairs ending (t :: u :: tokens) = .ok (pairUp source target, tokens) := by
  rw [expectPairs, expect_of_kind ht.1]
  simp only [expect_of_kind hu.1]
  rw [ht.2, hu.2, if_pos hlength]

/-- The tokens that spell a command are parsed as that command, whatever follows them. -/
theorem parseCommand_of_spells {front : List Token} {c : Command} (h : Spells front c) :
    ∃ t tokens, front = t :: tokens ∧
      parseCommand ending t (tokens ++ rest) = .ok (c, rest) := by
  induction h with
  | @plain t v ht =>
    refine ⟨t, [], rfl, ?_⟩
    rw [parseCommand.eq_def, if_pos ht.1, ht.2, Verb.ofKeyword?_keyword]
    rfl
  | @goto t u column ht hu =>
    refine ⟨t, [u], rfl, ?_⟩
    rw [parseCommand.eq_def, if_pos ht.1, ht.2, Verb.ofKeyword?_spelling, Keyword.ofWord?_spelling]
    simp only [List.singleton_append, expect_of_kind hu.1, hu.2]
    rfl
  | @insert t u s ht hu =>
    refine ⟨t, [u], rfl, ?_⟩
    rw [parseCommand.eq_def, if_pos ht.1, ht.2, Verb.ofKeyword?_spelling, Keyword.ofWord?_spelling]
    simp only [List.singleton_append, expect_of_kind hu.1]
    rw [← hu.2]
    rfl
  | @truncateBy t u amount ht hu =>
    refine ⟨t, [u], rfl, ?_⟩
    rw [parseCommand.eq_def, if_pos ht.1, ht.2, Verb.ofKeyword?_spelling, Keyword.ofWord?_spelling]
    simp only [List.singleton_append, expectCount_of_isInt hu]
    rfl
  | @find t u c ht hu =>
    refine ⟨t, [u], rfl, ?_⟩
    rw [parseCommand.eq_def, if_pos ht.1, ht.2, Verb.ofKeyword?_spelling, Keyword.ofWord?_spelling]
    simp only [List.singleton_append, expectChar_of_isString hu]
    rfl
  | @findBack t u c ht hu =>
    refine ⟨t, [u], rfl, ?_⟩
    rw [parseCommand.eq_def, if_pos ht.1, ht.2, Verb.ofKeyword?_spelling, Keyword.ofWord?_spelling]
    simp only [List.singleton_append, expectChar_of_isString hu]
    rfl
  | @translate t u w source target ht hu hw hlength =>
    refine ⟨t, [u, w], rfl, ?_⟩
    rw [parseCommand.eq_def, if_pos ht.1, ht.2, Verb.ofKeyword?_spelling, Keyword.ofWord?_spelling]
    simp only [List.cons_append, List.nil_append, expectPairs_of_isString hu hw hlength]
    rfl
  | @times t u count body c ht hu hbody ih =>
    obtain ⟨first, others, rfl, hparse⟩ := ih
    refine ⟨t, u :: first :: others, rfl, ?_⟩
    rw [parseCommand.eq_def, if_pos ht.1, ht.2, Verb.ofKeyword?_spelling, Keyword.ofWord?_spelling]
    simp only [List.cons_append, Token.count_of_isInt hu, hparse]
    rfl

/-- The commands after the first one are parsed from what it leaves. -/
theorem parseTokens_of_command {rest : List Token} {c : Command}
    (h : parseCommand ending t tokens = .ok (c, rest)) :
    parseTokens ending (t :: tokens) = (parseTokens ending rest).map (c :: ·) := by
  rw [parseTokens]
  split
  · rename_i hfail
    rw [h] at hfail
    cases hfail
  · rename_i hok
    rw [h] at hok
    cases hok
    rfl

theorem parseTokens_of_command_error {failure : Failure}
    (h : parseCommand ending t tokens = .error failure) :
    parseTokens ending (t :: tokens) = .error failure := by
  rw [parseTokens]
  split
  · rename_i hfail
    rw [h] at hfail
    cases hfail
    rfl
  · rename_i hok
    rw [h] at hok
    cases hok

/-- The tokens that spell a program are parsed as that program. -/
theorem parseTokens_of_spells {position : Position} {program : Program}
    (h : SpellsProgram tokens program) :
    parseTokens (.endOfText position) tokens = .ok program := by
  induction h with
  | nil => rw [parseTokens]
  | @cons front back c program hc hprogram ih =>
    obtain ⟨t, rest, rfl, hparse⟩ := parseCommand_of_spells hc
    rw [List.cons_append, parseTokens_of_command hparse, ih]
    rfl

/-- After `repeat` come a count and a command. -/
theorem parseCommand_times (ht : t.IsWord Keyword.times.spelling) :
    parseCommand ending t tokens =
      match tokens with
      | [] => .error (ending.failure (.integerExpected .times))
      | n :: rest =>
        match n.count .times with
        | .error e => .error e
        | .ok count =>
          match rest with
          | [] => .error (ending.failure (.bodyExpected count))
          | first :: rest =>
            (parseCommand ending first rest).map fun (c, rest) => (.times count c, rest) := by
  have hparse := parseCommand.eq_def ending t tokens
  rw [if_pos ht.1, ht.2, Verb.ofKeyword?_spelling, Keyword.ofWord?_spelling] at hparse
  exact hparse

/-! ## What is parsed is spelled -/

theorem kind_of_expect {kind : Kind} {issue : Issue}
    (h : expect ending kind issue tokens = .ok (t, rest)) :
    tokens = t :: rest ∧ t.kind = kind := by
  cases tokens with
  | nil => cases h
  | cons u tokens =>
    rw [expect] at h
    split at h
    · cases h
      exact ⟨rfl, ‹_›⟩
    · cases h

theorem Token.isInt_of_count {k : Keyword} {n : Int} (h : t.count k = .ok n) :
    t.IsInt n ∧ 0 ≤ n := by
  unfold Token.count at h
  split at h
  · rename_i hkind
    split at h
    · cases h
    · rename_i m hinteger
      split at h
      · cases h
      · cases h
        exact ⟨⟨hkind, hinteger⟩, by omega⟩
  · cases h

theorem isInt_of_expectCount {k : Keyword} {n : Int}
    (h : expectCount ending k tokens = .ok (n, rest)) :
    ∃ u, tokens = u :: rest ∧ u.IsInt n ∧ 0 ≤ n := by
  cases tokens with
  | nil => cases h
  | cons u tokens =>
    rw [expectCount] at h
    obtain ⟨m, hcount, hm⟩ := exists_of_map_eq_ok h
    cases hm
    exact ⟨u, rfl, Token.isInt_of_count hcount⟩

theorem isString_of_expectChar {k : Keyword} {target : List Char}
    (h : expectChar ending k tokens = .ok (target, rest)) :
    ∃ u c, tokens = u :: rest ∧ target = [c] ∧ u.IsString [c] := by
  unfold expectChar at h
  split at h
  · cases h
  · rename_i u others hexpect
    obtain ⟨rfl, hkind⟩ := kind_of_expect hexpect
    split at h
    · rename_i hlength
      cases h
      obtain ⟨c, hc⟩ := List.length_eq_one_iff.1 hlength
      exact ⟨u, c, rfl, hc, hkind, hc⟩
    · cases h

theorem isString_of_expectPairs {pairs : List (Char × Char)}
    (h : expectPairs ending tokens = .ok (pairs, rest)) :
    ∃ u w : Token, tokens = u :: w :: rest ∧ u.kind = .string ∧ w.kind = .string ∧
      u.text.length = w.text.length ∧ pairs = pairUp u.text w.text := by
  unfold expectPairs at h
  split at h
  · cases h
  · rename_i u others hsource
    obtain ⟨rfl, hu⟩ := kind_of_expect hsource
    split at h
    · cases h
    · rename_i w others htarget
      obtain ⟨rfl, hw⟩ := kind_of_expect htarget
      split at h
      · rename_i hlength
        cases h
        exact ⟨u, w, rfl, hu, hw, hlength, rfl⟩
      · cases h

/-- A command that is parsed is spelled by the tokens that were taken for it. -/
theorem spells_of_parseCommand {c : Command}
    (h : parseCommand ending t tokens = .ok (c, rest)) :
    ∃ front, tokens = front ++ rest ∧ Spells (t :: front) c := by
  fun_induction parseCommand ending t tokens generalizing c with
  | case1 tokens t hword v hverb =>
    cases h
    exact ⟨[], rfl, .plain ⟨hword, Verb.eq_keyword_of_ofKeyword? hverb⟩⟩
  | case2 | case5 | case10 | case11 | case12 | case14 => cases h
  | case3 tokens t hword hkeyword =>
    obtain ⟨⟨u, others⟩, hu, hc⟩ := exists_of_map_eq_ok h
    cases hc
    obtain ⟨rfl, hkind⟩ := kind_of_expect hu
    exact ⟨[u], rfl, .insert ⟨hword, Keyword.eq_spelling_of_ofWord? hkeyword⟩ ⟨hkind, rfl⟩⟩
  | case4 tokens t hword hkeyword =>
    obtain ⟨⟨n, others⟩, hn, hc⟩ := exists_of_map_eq_ok h
    cases hc
    obtain ⟨u, rfl, hu, hnonneg⟩ := isInt_of_expectCount hn
    obtain ⟨amount, rfl⟩ := Int.eq_ofNat_of_zero_le hnonneg
    exact ⟨[u], rfl, .truncateBy ⟨hword, Keyword.eq_spelling_of_ofWord? hkeyword⟩ hu⟩
  | case6 tokens t hword hkeyword _ u others hu =>
    obtain ⟨column, hcolumn, hc⟩ := exists_of_map_eq_ok h
    cases hc
    obtain ⟨rfl, hkind⟩ := kind_of_expect hu
    exact ⟨[u], rfl, .goto ⟨hword, Keyword.eq_spelling_of_ofWord? hkeyword⟩ ⟨hkind, hcolumn⟩⟩
  | case7 tokens t hword hkeyword =>
    obtain ⟨⟨target, others⟩, htarget, hc⟩ := exists_of_map_eq_ok h
    cases hc
    obtain ⟨u, c, rfl, rfl, hu⟩ := isString_of_expectChar htarget
    exact ⟨[u], rfl, .find ⟨hword, Keyword.eq_spelling_of_ofWord? hkeyword⟩ hu⟩
  | case8 tokens t hword hkeyword =>
    obtain ⟨⟨target, others⟩, htarget, hc⟩ := exists_of_map_eq_ok h
    cases hc
    obtain ⟨u, c, rfl, rfl, hu⟩ := isString_of_expectChar htarget
    exact ⟨[u], rfl, .findBack ⟨hword, Keyword.eq_spelling_of_ofWord? hkeyword⟩ hu⟩
  | case9 tokens t hword hkeyword =>
    obtain ⟨⟨pairs, others⟩, hpairs, hc⟩ := exists_of_map_eq_ok h
    cases hc
    obtain ⟨u, w, rfl, hu, hw, hlength, rfl⟩ := isString_of_expectPairs hpairs
    exact ⟨[u, w], rfl, .translate ⟨hword, Keyword.eq_spelling_of_ofWord? hkeyword⟩ ⟨hu, rfl⟩
      ⟨hw, rfl⟩ hlength⟩
  | case13 t hword hkeyword _ u n hn first others ih =>
    obtain ⟨⟨body, rest⟩, hbody, hc⟩ := exists_of_map_eq_ok h
    cases hc
    obtain ⟨front, rfl, hspells⟩ := ih hbody
    obtain ⟨hu, hnonneg⟩ := Token.isInt_of_count hn
    obtain ⟨count, rfl⟩ := Int.eq_ofNat_of_zero_le hnonneg
    exact ⟨u :: first :: front, rfl,
      .times ⟨hword, Keyword.eq_spelling_of_ofWord? hkeyword⟩ hu hspells⟩

/-- A program that is parsed is spelled by the tokens. -/
theorem spells_of_parseTokens {program : Program} (h : parseTokens ending tokens = .ok program) :
    SpellsProgram tokens program := by
  fun_induction parseTokens ending tokens generalizing program with
  | case1 =>
    cases h
    exact .nil
  | case2 => cases h
  | case3 => cases h
  | case4 t tokens c rest hc ih =>
    obtain ⟨others, hothers, hprogram⟩ := exists_of_map_eq_ok h
    obtain ⟨front, rfl, hspells⟩ := spells_of_parseCommand hc
    subst hprogram
    exact .cons hspells (ih hothers)

end LineEditor
