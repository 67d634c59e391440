import LineEditor.Proofs.Command.Grammar
import LineEditor.Proofs.Token.Reading

/-!
# What is refused

The grammar says which tokens spell a command. Here it is said, again without parsing, at which
token that becomes impossible, and which tokens begin a command that is not finished. The parser
fails for these reasons and for no others.
-/

namespace LineEditor

/-! ## Operands -/

/-- What a keyword asks for next. -/
inductive Operand where
  /-- Any integer. -/
  | integer
  /-- An integer that is not negative. -/
  | count
  /-- Any string. -/
  | string
  /-- A string of one character. -/
  | char
  /-- A second string, of the given length. -/
  | secondString (length : Nat)

/-- The kind of token that an operand is. -/
def Operand.kind : Operand → Kind
  | .integer | .count => .int
  | .string | .char | .secondString _ => .string

/-- What is wrong if there is no token of that kind. -/
def Operand.missing (k : Keyword) : Operand → Issue
  | .integer | .count => .integerExpected k
  | .string | .char => .stringExpected k
  | .secondString _ => .secondStringExpected

/-- After a keyword and some operands another operand is asked for. -/
inductive Keyword.Asks : Keyword → List Token → Operand → Prop where
  | insert : Asks .insert [] .string
  | truncateBy : Asks .truncateBy [] .count
  | goto : Asks .goto [] .integer
  | find : Asks .find [] .char
  | findBack : Asks .findBack [] .char
  | source : Asks .translate [] .string
  | target {u : Token} (hu : u.kind = .string) :
      Asks .translate [u] (.secondString u.text.length)
  | times : Asks .times [] .count

/-- A token is not the operand that is asked for. -/
inductive Operand.Wrong (k : Keyword) : Operand → Token → Issue → Prop where
  | kind {a : Operand} {t : Token} (h : t.kind ≠ a.kind) : Wrong k a t (a.missing k)
  | negative {t : Token} {n : Int} (hint : t.IsInt n) (hn : n < 0) :
      Wrong k .count t (.countExpected k)
  | notChar {t : Token} (hstring : t.kind = .string) (hlength : t.text.length ≠ 1) :
      Wrong k .char t (.charExpected k)
  | length {t : Token} {length : Nat} (hstring : t.kind = .string)
      (hlength : length ≠ t.text.length) : Wrong k (.secondString length) t .lengthsDiffer

/-! ## Commands -/

/-- A token cannot continue the command that the tokens before it begin. -/
inductive Stuck : List Token → Token → Issue → Prop where
  /-- A command must begin there, and it is no word. -/
  | noWord {t : Token} (h : t.kind ≠ .word) : Stuck [] t .commandExpected
  /-- A command must begin there, and it is a word but no keyword. -/
  | unknown {t : Token} (hword : t.kind = .word) (h : t.text ∉ keywords) :
      Stuck [] t (.unknownCommand t.text)
  /-- It is not the operand that is asked for. -/
  | operand {k : Keyword} {t u : Token} {operands : List Token} {a : Operand} {issue : Issue}
      (ht : t.IsWord k.spelling) (ha : k.Asks operands a) (hu : a.Wrong k u issue) :
      Stuck (t :: operands) u issue
  /-- It cannot continue the command that is to be repeated. -/
  | body {t u w : Token} {count : Nat} {before : List Token} {issue : Issue}
      (ht : t.IsWord Keyword.times.spelling) (hu : u.IsInt count) (h : Stuck before w issue) :
      Stuck (t :: u :: before) w issue

/-- Tokens begin a command but do not finish it. -/
inductive Unfinished : List Token → Issue → Prop where
  /-- An operand is missing. -/
  | operand {k : Keyword} {t : Token} {operands : List Token} {a : Operand}
      (ht : t.IsWord k.spelling) (ha : k.Asks operands a) : Unfinished (t :: operands) (a.missing k)
  /-- The command that is to be repeated is missing. -/
  | noBody {t u : Token} {count : Nat} (ht : t.IsWord Keyword.times.spelling)
      (hu : u.IsInt count) : Unfinished [t, u] (.bodyExpected count)
  /-- The command that is to be repeated is not finished. -/
  | body {t u : Token} {count : Nat} {tokens : List Token} {issue : Issue}
      (ht : t.IsWord Keyword.times.spelling) (hu : u.IsInt count) (h : Unfinished tokens issue) :
      Unfinished (t :: u :: tokens) issue

/-- Tokens, which end as given, do not begin with a command, and fail for a reason. -/
inductive Refused (ending : Lexer.Ending) : List Token → Failure → Prop where
  /-- They end before the command does. -/
  | unfinished {tokens : List Token} {issue : Issue} (h : Unfinished tokens issue) :
      Refused ending tokens (ending.failure issue)
  /-- One of them cannot continue the command. -/
  | stuck {before after : List Token} {u : Token} {issue : Issue} (h : Stuck before u issue) :
      Refused ending (before ++ u :: after) (u.failure issue)

variable {ending : Lexer.Ending} {k : Keyword} {a : Operand} {t : Token}
  {tokens rest operands : List Token} {failure : Failure}

/-! ## Words that begin no command -/

theorem Verb.ofKeyword?_eq_none {word : List Char} (h : word ∉ keywords) :
    Verb.ofKeyword? word = none := by
  rcases hlookup : Verb.ofKeyword? word with _ | v
  · rfl
  · rw [Verb.eq_keyword_of_ofKeyword? hlookup] at h
    exact absurd v.keyword_mem_keywords h

theorem Keyword.ofWord?_eq_none {word : List Char} (h : word ∉ keywords) :
    Keyword.ofWord? word = none := by
  rcases hlookup : Keyword.ofWord? word with _ | k
  · rfl
  · rw [Keyword.eq_spelling_of_ofWord? hlookup] at h
    exact absurd k.spelling_mem_keywords h

theorem not_mem_keywords {word : List Char} (hverb : Verb.ofKeyword? word = none)
    (hkeyword : Keyword.ofWord? word = none) : word ∉ keywords := by
  intro hword
  rcases List.mem_append.1 hword with h | h
  · obtain ⟨⟨_, v⟩, hv, rfl⟩ := List.mem_map.1 h
    obtain ⟨w, -, hw⟩ := List.mem_map.1 hv
    obtain ⟨rfl, rfl⟩ := Prod.mk.inj hw
    rw [Verb.ofKeyword?_keyword] at hverb
    cases hverb
  · obtain ⟨⟨_, k⟩, hk, rfl⟩ := List.mem_map.1 h
    obtain ⟨j, -, hj⟩ := List.mem_map.1 hk
    obtain ⟨rfl, rfl⟩ := Prod.mk.inj hj
    rw [Keyword.ofWord?_spelling] at hkeyword
    cases hkeyword

/-! ## Integers that are read -/

/-- If a token is an integer, it is written as one, with no more digits than are read. -/
def Token.Readable (t : Token) : Prop :=
  t.kind = .int → isIntegerWord t.text = true ∧ (unsigned t.text).length ≤ Text.digitLimit

instance Token.decidableReadable (t : Token) : Decidable t.Readable :=
  inferInstanceAs (Decidable (_ → _))

theorem Token.Readable.exists_integer (h : t.Readable) (hkind : t.kind = .int) :
    ∃ n, t.IsInt n := by
  obtain ⟨hword, hlimit⟩ := h hkind
  obtain ⟨n, -, hread⟩ := readInt_of_isIntegerWord hword
  rw [if_neg (by omega)] at hread
  exact ⟨n, hkind, by rw [Token.integer, hread]⟩

/-- The integers among the tokens of a text can be read: at the first one of too many digits the
tokens end. -/
theorem readable_of_mem_tokens {source : List Char} (ht : t ∈ (Lexer.ofSource source).tokens) :
    t.Readable := by
  obtain ⟨l, hl, hreadable, rfl⟩ := Lexer.exists_lexeme_of_mem_tokens ht
  intro hkind
  have hint : l.kind = .int := hkind
  have hword : isIntegerWord l.text = true := by
    have hwritten := writtenKind_of_mem_lexemesFrom hl hint
    by_contra hword
    simp [writtenKind, writtenInt?, hword] at hwritten
  refine ⟨hword, Nat.le_of_not_lt fun hlimit => ?_⟩
  have htooLong := Lexeme.unreadable?_eq_some_iff.2 ⟨by simp [hint], hword, hlimit, rfl⟩
  rw [hreadable] at htooLong
  cases htooLong

/-! ## Operands that are refused -/

/-- Tokens do not begin with the operand that is asked for. -/
inductive Operand.Refused (ending : Lexer.Ending) (k : Keyword) (a : Operand) :
    List Token → Failure → Prop where
  | ended : Refused ending k a [] (ending.failure (a.missing k))
  | wrong {u : Token} {after : List Token} {issue : Issue} (hu : a.Wrong k u issue) :
      Refused ending k a (u :: after) (u.failure issue)

/-- A keyword whose next operand is refused begins no command. -/
theorem Refused.operand (ht : t.IsWord k.spelling) (ha : k.Asks operands a)
    (h : a.Refused ending k rest failure) : Refused ending (t :: (operands ++ rest)) failure := by
  cases h with
  | ended =>
    rw [List.append_nil]
    exact .unfinished (.operand ht ha)
  | wrong hu => exact .stuck (.operand ht ha hu)

theorem refused_of_expect
    (h : expect ending a.kind (a.missing k) tokens = .error failure) :
    a.Refused ending k tokens failure := by
  cases tokens with
  | nil =>
    cases h
    exact .ended
  | cons u tokens =>
    rw [expect] at h
    split at h
    · cases h
    · rename_i hkind
      cases h
      exact .wrong (.kind hkind)

theorem expect_of_kind_ne {kind : Kind} {issue : Issue} (h : t.kind ≠ kind) :
    expect ending kind issue (t :: tokens) = .error (t.failure issue) := by
  rw [expect, if_neg h]

theorem expect_of_refused (ha : a = .integer ∨ a = .string)
    (h : a.Refused ending k tokens failure) :
    expect ending a.kind (a.missing k) tokens = .error failure := by
  cases h with
  | ended => rfl
  | wrong hu =>
    cases hu with
    | kind hkind => exact expect_of_kind_ne hkind
    | negative | notChar | length => simp at ha

theorem refused_of_expectCount (hreadable : ∀ u ∈ tokens, u.Readable)
    (h : expectCount ending k tokens = .error failure) :
    Operand.count.Refused ending k tokens failure := by
  cases tokens with
  | nil =>
    cases h
    exact .ended
  | cons u tokens =>
    rw [expectCount, Token.count] at h
    by_cases hkind : u.kind = .int
    · obtain ⟨n, hint⟩ := (hreadable u (by simp)).exists_integer hkind
      rw [if_pos hkind, hint.2] at h
      by_cases hn : n < 0
      · simp only [if_pos hn] at h
        cases h
        exact .wrong (.negative hint hn)
      · simp only [if_neg hn] at h
        cases h
    · rw [if_neg hkind] at h
      cases h
      exact .wrong (.kind hkind)

theorem expectCount_of_refused (h : Operand.count.Refused ending k tokens failure) :
    expectCount ending k tokens = .error failure := by
  cases h with
  | ended => rfl
  | @wrong u _ _ hu =>
    cases hu with
    | kind hkind =>
      have hint : u.kind ≠ .int := hkind
      rw [expectCount, Token.count, if_neg hint]
      rfl
    | negative hint hn =>
      rw [expectCount, Token.count, if_pos hint.1, hint.2]
      simp only [if_pos hn]
      rfl

theorem refused_of_expectChar (h : expectChar ending k tokens = .error failure) :
    Operand.char.Refused ending k tokens failure := by
  unfold expectChar at h
  split at h
  · rename_i e hexpect
    cases h
    exact refused_of_expect hexpect
  · rename_i u after hexpect
    obtain ⟨rfl, hkind⟩ := kind_of_expect hexpect
    split at h
    · cases h
    · rename_i hlength
      cases h
      exact .wrong (.notChar hkind hlength)

theorem expectChar_of_refused (h : Operand.char.Refused ending k tokens failure) :
    expectChar ending k tokens = .error failure := by
  cases h with
  | ended => rfl
  | @wrong u _ _ hu =>
    cases hu with
    | kind hkind =>
      have hstring : u.kind ≠ .string := hkind
      rw [expectChar, expect_of_kind_ne hstring]
      rfl
    | notChar hkind hlength =>
      rw [expectChar, expect_of_kind hkind]
      simp only [if_neg hlength]

/-- Of two strings the first is refused, or the second one after it. -/
theorem refused_of_expectPairs (h : expectPairs ending tokens = .error failure) :
    Operand.string.Refused ending .translate tokens failure ∨
      ∃ u after, tokens = u :: after ∧ u.kind = .string ∧
        (Operand.secondString u.text.length).Refused ending .translate after failure := by
  unfold expectPairs at h
  split at h
  · rename_i e hexpect
    cases h
    exact Or.inl (refused_of_expect hexpect)
  · rename_i u after hsource
    obtain ⟨rfl, hkind⟩ := kind_of_expect hsource
    refine Or.inr ⟨u, after, rfl, hkind, ?_⟩
    split at h
    · rename_i e hexpect
      cases h
      exact refused_of_expect hexpect
    · rename_i w others htarget
      obtain ⟨rfl, hkind⟩ := kind_of_expect htarget
      split at h
      · cases h
      · rename_i hlength
        cases h
        exact .wrong (.length hkind hlength)

theorem expectPairs_of_refused_source
    (h : Operand.string.Refused ending .translate tokens failure) :
    expectPairs ending tokens = .error failure := by
  have hexpect := expect_of_refused (Or.inr rfl) h
  rw [Operand.kind, Operand.missing] at hexpect
  rw [expectPairs, hexpect]

theorem expectPairs_of_refused_target {u : Token} (hu : u.kind = .string)
    (h : (Operand.secondString u.text.length).Refused ending .translate tokens failure) :
    expectPairs ending (u :: tokens) = .error failure := by
  rw [expectPairs, expect_of_kind hu]
  cases h with
  | ended => rfl
  | @wrong w _ _ hw =>
    cases hw with
    | kind hkind =>
      have hstring : w.kind ≠ .string := hkind
      simp only [expect_of_kind_ne hstring]
      rfl
    | length hkind hlength =>
      simp only [expect_of_kind hkind]
      rw [if_neg hlength]

/-! ## Commands that are refused -/

/-- What is refused after the start of a command that is repeated is refused after the count. -/
theorem Refused.body {u : Token} {count : Nat} (ht : t.IsWord Keyword.times.spelling)
    (hu : u.IsInt count) (h : Refused ending tokens failure) :
    Refused ending (t :: u :: tokens) failure := by
  cases h with
  | unfinished h => exact .unfinished (.body ht hu h)
  | stuck h => exact .stuck (.body ht hu h)

theorem exists_of_map_eq_error {α β : Type} {f : α → β} {x : Except Failure α}
    (h : x.map f = .error failure) : x = .error failure := by
  cases x with
  | error e =>
    cases h
    rfl
  | ok a => cases h

/-- If a command is not parsed, its tokens are refused. -/
theorem refused_of_parseCommand (hreadable : ∀ u ∈ tokens, u.Readable)
    (h : parseCommand ending t tokens = .error failure) : Refused ending (t :: tokens) failure := by
  fun_induction parseCommand ending t tokens with
  | case1 => cases h
  | case2 tokens t hword hkeyword hverb =>
    cases h
    exact .stuck (.unknown hword (not_mem_keywords hverb hkeyword))
  | case3 tokens t hword hkeyword =>
    have hrefused := refused_of_expect (a := .string) (exists_of_map_eq_error h)
    exact .operand ⟨hword, Keyword.eq_spelling_of_ofWord? hkeyword⟩ .insert hrefused
  | case4 tokens t hword hkeyword =>
    have hrefused := refused_of_expectCount hreadable (exists_of_map_eq_error h)
    exact .operand ⟨hword, Keyword.eq_spelling_of_ofWord? hkeyword⟩ .truncateBy hrefused
  | case5 tokens t hword hkeyword _ e he =>
    cases h
    have hrefused := refused_of_expect (a := .integer) he
    exact .operand ⟨hword, Keyword.eq_spelling_of_ofWord? hkeyword⟩ .goto hrefused
  | case6 tokens t hword hkeyword _ u others hu =>
    obtain ⟨rfl, hkind⟩ := kind_of_expect hu
    obtain ⟨n, hint⟩ := (hreadable u (by simp)).exists_integer hkind
    rw [hint.2] at h
    cases h
  | case7 tokens t hword hkeyword =>
    have hrefused := refused_of_expectChar (exists_of_map_eq_error h)
    exact .operand ⟨hword, Keyword.eq_spelling_of_ofWord? hkeyword⟩ .find hrefused
  | case8 tokens t hword hkeyword =>
    have hrefused := refused_of_expectChar (exists_of_map_eq_error h)
    exact .operand ⟨hword, Keyword.eq_spelling_of_ofWord? hkeyword⟩ .findBack hrefused
  | case9 tokens t hword hkeyword =>
    have ht : t.IsWord Keyword.translate.spelling :=
      ⟨hword, Keyword.eq_spelling_of_ofWord? hkeyword⟩
    rcases refused_of_expectPairs (exists_of_map_eq_error h) with h | ⟨u, after, rfl, hu, h⟩
    · exact .operand ht .source h
    · exact .operand ht (.target hu) h
  | case10 t hword hkeyword =>
    cases h
    exact .operand ⟨hword, Keyword.eq_spelling_of_ofWord? hkeyword⟩ .times .ended
  | case11 t hword hkeyword _ u rest e he =>
    cases h
    have hcount : expectCount ending .times (u :: rest) = .error failure := by
      rw [expectCount, he]
      rfl
    have hrefused := refused_of_expectCount hreadable hcount
    exact .operand ⟨hword, Keyword.eq_spelling_of_ofWord? hkeyword⟩ .times hrefused
  | case12 t hword hkeyword _ u n hn =>
    cases h
    obtain ⟨hu, hnonneg⟩ := Token.isInt_of_count hn
    obtain ⟨count, rfl⟩ := Int.eq_ofNat_of_zero_le hnonneg
    exact .unfinished (.noBody ⟨hword, Keyword.eq_spelling_of_ofWord? hkeyword⟩ hu)
  | case13 t hword hkeyword _ u n hn first others ih =>
    obtain ⟨hu, hnonneg⟩ := Token.isInt_of_count hn
    obtain ⟨count, rfl⟩ := Int.eq_ofNat_of_zero_le hnonneg
    have hrefused := ih (fun w hw => hreadable w (by simp [hw])) (exists_of_map_eq_error h)
    exact hrefused.body ⟨hword, Keyword.eq_spelling_of_ofWord? hkeyword⟩ hu
  | case14 tokens t hword =>
    cases h
    exact .stuck (.noWord hword)

/-- If the next operand of a keyword is refused, the command is not parsed. -/
theorem parseCommand_of_asks (ht : t.IsWord k.spelling) (ha : k.Asks operands a)
    (h : a.Refused ending k rest failure) :
    parseCommand ending t (operands ++ rest) = .error failure := by
  rw [parseCommand.eq_def, if_pos ht.1, ht.2, Verb.ofKeyword?_spelling, Keyword.ofWord?_spelling]
  cases ha with
  | insert =>
    have hexpect : expect ending .string (.stringExpected .insert) rest = .error failure :=
      expect_of_refused (Or.inr rfl) h
    simp only [List.nil_append, hexpect]
    rfl
  | truncateBy =>
    simp only [List.nil_append, expectCount_of_refused h]
    rfl
  | goto =>
    have hexpect : expect ending .int (.integerExpected .goto) rest = .error failure :=
      expect_of_refused (Or.inl rfl) h
    simp only [List.nil_append, hexpect]
  | find | findBack =>
    simp only [List.nil_append, expectChar_of_refused h]
    rfl
  | source =>
    simp only [List.nil_append, expectPairs_of_refused_source h]
    rfl
  | target hu =>
    simp only [List.singleton_append, expectPairs_of_refused_target hu h]
    rfl
  | times =>
    have hcount := expectCount_of_refused h
    rw [List.nil_append]
    cases h with
    | ended => rfl
    | wrong hu =>
      rw [expectCount] at hcount
      simp only [exists_of_map_eq_error hcount]

/-- If the start of a command that is repeated is not parsed, the repetition is not. -/
theorem parseCommand_of_body {u first : Token} {count : Nat}
    (ht : t.IsWord Keyword.times.spelling) (hu : u.IsInt count)
    (h : parseCommand ending first tokens = .error failure) :
    parseCommand ending t (u :: first :: tokens) = .error failure := by
  rw [parseCommand_times ht]
  simp only [Token.count_of_isInt hu, h]
  rfl

/-- A command in which a token is stuck is not parsed, whatever follows that token. -/
theorem parseCommand_of_stuck {before : List Token} {u : Token} {issue : Issue}
    (h : Stuck before u issue) (after : List Token) :
    ∃ t tokens, before ++ u :: after = t :: tokens ∧
      parseCommand ending t tokens = .error (u.failure issue) := by
  induction h with
  | @noWord t h =>
    refine ⟨t, after, rfl, ?_⟩
    rw [parseCommand.eq_def, if_neg h]
  | @unknown t hword h =>
    refine ⟨t, after, rfl, ?_⟩
    rw [parseCommand.eq_def, if_pos hword, Verb.ofKeyword?_eq_none h, Keyword.ofWord?_eq_none h]
  | @operand k t u operands a issue ht ha hu =>
    exact ⟨t, operands ++ u :: after, rfl, parseCommand_of_asks ht ha (.wrong hu)⟩
  | @body t u w count before issue ht hu h ih =>
    obtain ⟨first, others, hsplit, hparse⟩ := ih
    refine ⟨t, u :: first :: others, ?_, parseCommand_of_body ht hu hparse⟩
    rw [List.cons_append, List.cons_append, hsplit]

/-- A command that the tokens do not finish is not parsed. -/
theorem parseCommand_of_unfinished {issue : Issue} (h : Unfinished tokens issue) :
    ∃ t rest, tokens = t :: rest ∧
      parseCommand ending t rest = .error (ending.failure issue) := by
  induction h with
  | @operand k t operands a ht ha =>
    have hparse : parseCommand ending t (operands ++ []) = .error (ending.failure (a.missing k)) :=
      parseCommand_of_asks ht ha .ended
    rw [List.append_nil] at hparse
    exact ⟨t, operands, rfl, hparse⟩
  | @noBody t u count ht hu =>
    refine ⟨t, [u], rfl, ?_⟩
    rw [parseCommand_times ht]
    simp only [Token.count_of_isInt hu]
  | @body t u count tokens issue ht hu h ih =>
    obtain ⟨first, others, rfl, hparse⟩ := ih
    exact ⟨t, u :: first :: others, rfl, parseCommand_of_body ht hu hparse⟩

/-- A command whose tokens are refused is not parsed. -/
theorem parseCommand_of_refused (h : Refused ending tokens failure) :
    ∃ t rest, tokens = t :: rest ∧ parseCommand ending t rest = .error failure := by
  cases h with
  | unfinished h => exact parseCommand_of_unfinished h
  | stuck h => exact parseCommand_of_stuck h _

/-! ## Programs that are refused -/

/-- The tokens of commands are parsed before the tokens that follow them. -/
theorem parseTokens_append_of_spells {front back : List Token} {program : Program}
    (h : SpellsProgram front program) :
    parseTokens ending (front ++ back) = (parseTokens ending back).map (program ++ ·) := by
  induction h with
  | nil =>
    rw [List.nil_append]
    cases parseTokens ending back <;> rfl
  | @cons front others c program hc hprogram ih =>
    obtain ⟨t, rest, rfl, hparse⟩ := parseCommand_of_spells hc
    rw [List.append_assoc, List.cons_append, parseTokens_of_command hparse, ih]
    cases parseTokens ending back <;> rfl

/-- If tokens follow the commands of a program that are refused as a command, no program is
parsed. -/
theorem parseTokens_of_refused {front back : List Token} {program : Program}
    (hfront : SpellsProgram front program) (h : Refused ending back failure) :
    parseTokens ending (front ++ back) = .error failure := by
  obtain ⟨t, rest, rfl, hparse⟩ := parseCommand_of_refused h
  rw [parseTokens_append_of_spells hfront, parseTokens_of_command_error hparse]
  rfl

/-- If no program is parsed, tokens that are refused follow those of some commands, or else the
tokens end, after commands, at an integer that cannot be read. -/
theorem refused_or_ended_of_parseTokens (hreadable : ∀ u ∈ tokens, u.Readable)
    (h : parseTokens ending tokens = .error failure) :
    (∃ front back program, tokens = front ++ back ∧ SpellsProgram front program ∧
        Refused ending back failure) ∨
      ∃ digits, ending = .tooLong digits ∧ failure = .tooLong digits := by
  fun_induction parseTokens ending tokens with
  | case1 => cases h
  | case2 digits hending =>
    cases h
    exact Or.inr ⟨digits, hending, rfl⟩
  | case3 t tokens e he =>
    cases h
    have hrefused := refused_of_parseCommand (fun u hu => hreadable u (by simp [hu])) he
    exact Or.inl ⟨[], t :: tokens, [], rfl, .nil, hrefused⟩
  | case4 t tokens c rest hc ih =>
    obtain ⟨first, rfl, hspells⟩ := spells_of_parseCommand hc
    have hrest : ∀ u ∈ rest, u.Readable := fun u hu => hreadable u (by simp [hu])
    rcases ih hrest (exists_of_map_eq_error h) with
      ⟨front, back, program, rfl, hfront, hback⟩ | hlong
    · refine Or.inl ⟨t :: first ++ front, back, c :: program, ?_, .cons hspells hfront, hback⟩
      rw [List.cons_append, List.cons_append, List.append_assoc]
    · exact Or.inr hlong

theorem refused_of_parseTokens {position : Position} (hreadable : ∀ u ∈ tokens, u.Readable)
    (h : parseTokens (.endOfText position) tokens = .error failure) :
    ∃ front back program, tokens = front ++ back ∧ SpellsProgram front program ∧
      Refused (.endOfText position) back failure := by
  rcases refused_or_ended_of_parseTokens hreadable h with hrefused | ⟨digits, hending, -⟩
  · exact hrefused
  · cases hending

/-- If parsing fails at a token, that token is stuck after the start of a command, which follows
those of some commands. -/
theorem stuck_of_parseTokens {issue : Issue} (hreadable : ∀ u ∈ tokens, u.Readable)
    (h : parseTokens ending tokens = .error (t.failure issue)) :
    ∃ front before after program, tokens = front ++ (before ++ t :: after) ∧
      SpellsProgram front program ∧ Stuck before t issue := by
  rcases refused_or_ended_of_parseTokens hreadable h with
    ⟨front, back, program, rfl, hfront, hback⟩ | ⟨digits, -, htooLong⟩
  · generalize hfailure : t.failure issue = failure at hback
    cases hback with
    | unfinished => cases ending <;> cases hfailure
    | @stuck before after u issue hstuck =>
      obtain ⟨rfl, -, hfound⟩ := ParseError.mk.inj (Failure.refused.inj hfailure)
      cases Option.some.inj hfound
      exact ⟨front, before, after, program, rfl, hfront, hstuck⟩
  · cases htooLong

end LineEditor
