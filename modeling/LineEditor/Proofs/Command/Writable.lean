import LineEditor.Command.Grammar
import LineEditor.Proofs.Command.Pairs
import LineEditor.Proofs.Command.Written

/-!
# Commands that can be written

Not every command has a written form: a block has none, nor has a search for anything but one
character. A command that has one is spelled by the tokens that it is written as, and only such
commands are spelled by the tokens of a text.
-/

namespace LineEditor

/-- A command has a written form. -/
inductive Command.Writable : Command → Prop where
  /-- A keyword by itself. -/
  | plain (v : Verb) : Writable (.edit (.plain v))
  /-- A column of at most 32 bits. -/
  | goto {column : Int} (h : isInt32 column = true) : Writable (.edit (.goto column))
  /-- Any text to insert. -/
  | insert (s : List Char) : Writable (.edit (.insert s))
  /-- An amount that is not negative, of at most 32 bits. -/
  | truncateBy {amount : Nat} (h : isInt32 amount = true) : Writable (.edit (.truncateBy amount))
  /-- A character to search for. -/
  | find (c : Char) : Writable (.edit (.find [c]))
  /-- A character to search for. -/
  | findBack (c : Char) : Writable (.edit (.findBack [c]))
  /-- Pairs that have no character twice. -/
  | translate {pairs : List (Char × Char)} (h : (keys pairs).Nodup) :
      Writable (.edit (.translate pairs))
  /-- A count that is not negative, of at most 32 bits, and a command that has a written form. -/
  | times {count : Nat} {body : Command} (h : isInt32 count = true) (hbody : Writable body) :
      Writable (.times count body)

/-! ## What is written spells the command -/

/-- Readings of tokens spell a command, wherever the tokens stand. -/
def ReadingsSpell (readings : List (Kind × List Char)) (c : Command) : Prop :=
  ∀ tokens : List Token, tokens.map (fun t => (t.kind, t.text)) = readings → Spells tokens c

/-- Readings of tokens spell a program, wherever the tokens stand. -/
def ReadingsSpellProgram (readings : List (Kind × List Char)) (program : Program) : Prop :=
  ∀ tokens : List Token, tokens.map (fun t => (t.kind, t.text)) = readings →
    SpellsProgram tokens program

theorem ReadingsSpellProgram.nil : ReadingsSpellProgram [] [] := by
  intro tokens htokens
  rw [List.map_eq_nil_iff.1 htokens]
  exact .nil

theorem ReadingsSpellProgram.cons {front back : List (Kind × List Char)} {c : Command}
    {program : Program} (h : ReadingsSpell front c) (hprogram : ReadingsSpellProgram back program) :
    ReadingsSpellProgram (front ++ back) (c :: program) := by
  intro tokens htokens
  obtain ⟨ts, us, rfl, hts, hus⟩ := List.map_eq_append_iff.1 htokens
  exact .cons (h ts hts) (hprogram us hus)

theorem Token.isInt_of_reading {t : Token} {n : Int} (h : isInt32 n = true)
    (ht : (t.kind, t.text) = (.int, writeInt n)) : t.IsInt n := by
  obtain ⟨hkind, htext⟩ := Prod.mk.inj ht
  refine ⟨hkind, ?_⟩
  rw [Token.integer, htext, readInt_writeInt h]

theorem Token.isWord_of_reading {t : Token} {word : String}
    (ht : (t.kind, t.text) = (.word, word.toList)) : t.IsWord word :=
  Prod.mk.inj ht

theorem Token.isString_of_reading {t : Token} {s : List Char}
    (ht : (t.kind, t.text) = (.string, s)) : t.IsString s :=
  Prod.mk.inj ht

theorem tokens_of_readings {tokens : List Token} {a b : Kind × List Char}
    (h : tokens.map (fun t => (t.kind, t.text)) = [a, b]) :
    ∃ t u : Token, tokens = [t, u] ∧ (t.kind, t.text) = a ∧ (u.kind, u.text) = b := by
  obtain ⟨t, others, rfl, ht, hothers⟩ := List.map_eq_cons_iff.1 h
  obtain ⟨u, rfl, hu⟩ := List.map_eq_singleton_iff.1 hothers
  exact ⟨t, u, rfl, ht, hu⟩

theorem readingsSpell_translate {source target : List Char}
    (hlength : source.length = target.length) :
    ReadingsSpell [(.word, Keyword.translate.spelling.toList), (.string, source), (.string, target)]
      (.edit (.translate (pairUp source target))) := by
  intro tokens htokens
  obtain ⟨t, others, rfl, ht, hothers⟩ := List.map_eq_cons_iff.1 htokens
  obtain ⟨u, w, rfl, hu, hw⟩ := tokens_of_readings hothers
  exact .translate (Token.isWord_of_reading ht) (Token.isString_of_reading hu)
    (Token.isString_of_reading hw) hlength

/-- A command that has a written form is spelled by what is written. -/
theorem Command.Writable.spelled {c : Command} (h : c.Writable) :
    ∃ readings, List.Forall₂ Writes c.written readings ∧ ReadingsSpell readings c := by
  induction h with
  | plain v =>
    refine ⟨_, .cons (.keyword v) .nil, ?_⟩
    intro tokens htokens
    obtain ⟨t, rfl, ht⟩ := List.map_eq_singleton_iff.1 htokens
    exact .plain (Token.isWord_of_reading ht)
  | @goto column h =>
    refine ⟨_, .cons (.spelling .goto) (.cons (.int h) .nil), ?_⟩
    intro tokens htokens
    obtain ⟨t, u, rfl, ht, hu⟩ := tokens_of_readings htokens
    exact .goto (Token.isWord_of_reading ht) (Token.isInt_of_reading h hu)
  | insert s =>
    refine ⟨_, .cons (.spelling .insert) (.cons (.string s) .nil), ?_⟩
    intro tokens htokens
    obtain ⟨t, u, rfl, ht, hu⟩ := tokens_of_readings htokens
    exact .insert (Token.isWord_of_reading ht) (Token.isString_of_reading hu)
  | @truncateBy amount h =>
    refine ⟨_, .cons (.spelling .truncateBy) (.cons (.int h) .nil), ?_⟩
    intro tokens htokens
    obtain ⟨t, u, rfl, ht, hu⟩ := tokens_of_readings htokens
    exact .truncateBy (Token.isWord_of_reading ht) (Token.isInt_of_reading h hu)
  | find c =>
    refine ⟨_, .cons (.spelling .find) (.cons (.string [c]) .nil), ?_⟩
    intro tokens htokens
    obtain ⟨t, u, rfl, ht, hu⟩ := tokens_of_readings htokens
    exact .find (Token.isWord_of_reading ht) (Token.isString_of_reading hu)
  | findBack c =>
    refine ⟨_, .cons (.spelling .findBack) (.cons (.string [c]) .nil), ?_⟩
    intro tokens htokens
    obtain ⟨t, u, rfl, ht, hu⟩ := tokens_of_readings htokens
    exact .findBack (Token.isWord_of_reading ht) (Token.isString_of_reading hu)
  | @translate pairs h =>
    refine ⟨_, .cons (.spelling .translate) (.cons (.string (pairs.map Prod.fst))
      (.cons (.string (pairs.map Prod.snd)) .nil)), ?_⟩
    have hlength : (pairs.map Prod.fst).length = (pairs.map Prod.snd).length := by simp
    have hspell := readingsSpell_translate hlength
    rw [pairUp_of_nodup h] at hspell
    exact hspell
  | @times count body h hbody ih =>
    obtain ⟨readings, hwrites, hspell⟩ := ih
    refine ⟨_, .cons (.spelling .times) (.cons (.int h) hwrites), ?_⟩
    intro tokens htokens
    obtain ⟨t, others, rfl, ht, hothers⟩ := List.map_eq_cons_iff.1 htokens
    obtain ⟨u, others, rfl, hu, hothers⟩ := List.map_eq_cons_iff.1 hothers
    exact .times (Token.isWord_of_reading ht) (Token.isInt_of_reading h hu) (hspell others hothers)

/-- A program of commands that have a written form is spelled by what is written. -/
theorem spelled_of_writable {program : Program} (h : ∀ c ∈ program, c.Writable) :
    ∃ readings, List.Forall₂ Writes program.written readings ∧
      ReadingsSpellProgram readings program := by
  induction program with
  | nil => exact ⟨[], .nil, .nil⟩
  | cons c program ih =>
    obtain ⟨front, hfront, hspell⟩ := (h c (by simp)).spelled
    obtain ⟨back, hback, hspells⟩ := ih fun d hd => h d (by simp [hd])
    exact ⟨front ++ back, List.rel_append hfront hback, .cons hspell hspells⟩

/-! ## What is spelled in a text is written -/

/-- An integer among the tokens of a text has at most 32 bits. -/
def Token.InRange (t : Token) : Prop :=
  t.kind = .int → ∀ n, t.integer = .ok n → isInt32 n = true

/-- Tokens of a text spell no command but one that has a written form. -/
theorem writable_of_spells {tokens : List Token} {c : Command} (h : Spells tokens c)
    (hrange : ∀ t ∈ tokens, t.InRange) : c.Writable := by
  induction h with
  | plain ht => exact .plain _
  | goto ht hu => exact .goto (hrange _ (by simp) hu.1 _ hu.2)
  | insert ht hu => exact .insert _
  | truncateBy ht hu => exact .truncateBy (hrange _ (by simp) hu.1 _ hu.2)
  | find ht hu => exact .find _
  | findBack ht hu => exact .findBack _
  | translate ht hu hw hlength => exact .translate (nodup_keys_pairUp _ _)
  | times ht hu hbody ih =>
    exact .times (hrange _ (by simp) hu.1 _ hu.2) (ih fun t ht => hrange t (by simp [ht]))

theorem writable_of_spellsProgram {tokens : List Token} {program : Program}
    (h : SpellsProgram tokens program) (hrange : ∀ t ∈ tokens, t.InRange) :
    ∀ c ∈ program, c.Writable := by
  induction h with
  | nil =>
    intro c hc
    cases hc
  | @cons front back c program hc hprogram ih =>
    intro d hd
    rcases List.mem_cons.1 hd with rfl | hd
    · exact writable_of_spells hc fun t ht => hrange t (List.mem_append_left back ht)
    · exact ih (fun t ht => hrange t (List.mem_append_right front ht)) d hd

end LineEditor
