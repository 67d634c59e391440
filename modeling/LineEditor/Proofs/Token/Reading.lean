import LineEditor.Proofs.Token.IntegerWord
import LineEditor.Proofs.Token.Lexemes
import LineEditor.Proofs.Token.Position

/-!
# Tokens are lexemes

A lexer that stands somewhere in a text has lexemes ahead. Each step reads the first of them and
leaves the others ahead, so from the start of the text a lexer yields all its lexemes, up to an
integer that has too many digits to be read.
-/

namespace LineEditor

/-! ## What a lexeme tells about reading it -/

/-- How many digits a lexeme has, if they are too many to be read. -/
def Lexeme.unreadable? (l : Lexeme) : Option Nat :=
  if l.kind = .string then none else tooManyDigits? l.text

/-- The place just past the character that completes a lexeme, or the end of the text. -/
def Lexeme.reach (source : List Char) (l : Lexeme) : Position :=
  if l.stop < source.length then (Position.ofIndex source l.stop).right
  else .ofIndex source l.stop

theorem Lexeme.unreadable?_string (text : List Char) (stop : Nat) :
    Lexeme.unreadable? ⟨.string, text, stop⟩ = none := rfl

theorem Lexeme.unreadable?_word (word : List Char) (stop : Nat) :
    Lexeme.unreadable? ⟨writtenKind word, word, stop⟩ = tooManyDigits? word := by
  simp [unreadable?, writtenKind_ne_string word]

theorem Lexeme.unreadable?_bracket {c : Char} {kind : Kind} (h : bracketKind? c = some kind)
    (stop : Nat) : Lexeme.unreadable? ⟨kind, [c], stop⟩ = none := by
  have hword : isIntegerWord [c] = false := by
    unfold bracketKind? at h
    split at h
    · rfl
    · rfl
    · rfl
    · rfl
    · exact absurd h (by simp)
  simp [unreadable?, tooManyDigits?, hword]

/-- What cannot be read is an integer outside of any literal, of more digits than the limit. -/
theorem Lexeme.unreadable?_eq_some_iff {l : Lexeme} {digits : Nat} :
    l.unreadable? = some digits ↔
      l.kind ≠ .string ∧ isIntegerWord l.text = true ∧
        Text.digitLimit < (unsigned l.text).length ∧ (unsigned l.text).length = digits := by
  unfold unreadable? tooManyDigits?
  by_cases hkind : l.kind = .string
  · simp [hkind]
  · simp [hkind, and_assoc]

/-! ## Lexemes ahead of a lexer -/

/-- The lexemes of a text that are ahead of a lexer that stands in it. What the lexer holds is the
first character of the first of them. -/
inductive Lexer.Ahead (source : List Char) : Lexer → List Lexeme → Prop where
  /-- It stands outside of any literal and any word. -/
  | nothing {index : Nat} {rest : List Char} {reach : Position} (h : source.drop index = rest) :
      Ahead source ⟨rest, .ofIndex source index, .nothing, reach⟩ (lexemesFrom index rest)
  /-- It stands after the bracket that begins a word. -/
  | bracket {index : Nat} {c : Char} {rest : List Char} {reach : Position}
      (h : source.drop (index + 1) = rest) :
      Ahead source ⟨rest, .ofIndex source (index + 1), .bracket c, reach⟩
        (lexemesInWord index [c] rest)
  /-- It stands after the quote that opens a literal. -/
  | quote {index : Nat} {rest : List Char} {reach : Position} (h : source.drop index = rest) :
      Ahead source ⟨rest, .ofIndex source index, .quote, reach⟩ (lexemesInLiteral index [] rest)

/-- A step reads the first of some lexemes and leaves the others ahead. -/
inductive Step.Reads (source : List Char) : Step → List Lexeme → Prop where
  /-- Without any lexeme it meets the end of the text. -/
  | finished : Reads source (.finished (.exhausted (.ofIndex source source.length))) []
  /-- It stops at an integer that has too many digits. -/
  | tooLong {l : Lexeme} {ls : List Lexeme} {digits : Nat} (h : l.unreadable? = some digits) :
      Reads source (.tooLong digits) (l :: ls)
  /-- It yields the lexeme. -/
  | token {l : Lexeme} {ls : List Lexeme} {next : Lexer} (h : l.unreadable? = none)
      (hreach : next.reach = l.reach source) (hnext : next.Ahead source ls) :
      Reads source (.token (l.token source) next) (l :: ls)

theorem Lexer.ahead_ofSource (source : List Char) :
    (Lexer.ofSource source).Ahead source (lexemes source) := by
  rw [ofSource, ← Position.ofIndex_zero source]
  exact .nothing rfl

/-! ## Where a step ends -/

variable {source rest : List Char} {index : Nat}

theorem Lexer.ahead_exhausted (h : source.drop index = []) :
    (Lexer.exhausted (.ofIndex source index)).Ahead source [] := by
  rw [← lexemesFrom_nil index]
  exact .nothing h

theorem Lexeme.reach_of_drop_nil (h : source.drop index = []) (kind : Kind) (text : List Char) :
    Lexeme.reach source ⟨kind, text, index⟩ = .ofIndex source index := by
  have hlength := length_le_of_drop h
  rw [reach, if_neg (by simpa using hlength)]

theorem Lexeme.reach_of_drop_cons {c : Char} (h : source.drop index = c :: rest) (kind : Kind)
    (text : List Char) :
    Lexeme.reach source ⟨kind, text, index⟩ = (Position.ofIndex source index).right := by
  rw [reach, if_pos (lt_length_of_drop h)]

theorem Lexer.past_ofIndex {c : Char} (h : source.drop index = c :: rest) (held : Held) :
    past (.ofIndex source index) c rest held =
      ⟨rest, .ofIndex source (index + 1), held, (Position.ofIndex source index).right⟩ := by
  rw [past, ← Position.ofIndex_succ h]

/-- A word is yielded unless it is an integer that has too many digits. -/
theorem Lexer.yieldWord_reads {word : List Char} {ls : List Lexeme} {next : Lexer}
    (hreach : next.reach = Lexeme.reach source ⟨writtenKind word, word, index⟩)
    (hnext : next.Ahead source ls) :
    (yieldWord word.reverse (.ofIndex source index) next).Reads source
      (⟨writtenKind word, word, index⟩ :: ls) := by
  unfold yieldWord
  rw [List.reverse_reverse, wordKind_eq]
  rcases hdigits : tooManyDigits? word with _ | digits
  · exact .token (by rw [Lexeme.unreadable?_word, hdigits]) hreach hnext
  · exact .tooLong (by rw [Lexeme.unreadable?_word, hdigits])

/-! ## One step -/

theorem Lexer.readString_reads (read : List Char) (h : source.drop index = rest) :
    (readString read.reverse false (.ofIndex source index) rest).Reads source
      (lexemesInLiteral index read rest) := by
  fun_induction literalLength rest generalizing index read with
  | case1 =>
    rw [lexemesInLiteral_nil, readString, List.reverse_reverse]
    exact .token (Lexeme.unreadable?_string _ _) (Lexeme.reach_of_drop_nil h _ _).symm
      (ahead_exhausted h)
  | case2 =>
    have hend := drop_succ_of_drop h
    have hstep (p : Position) :
        readString read.reverse false p ['\\'] =
          .token ⟨.string, read, p.after '\\'⟩ (exhausted (p.after '\\')) := by
      simp [readString]
    rw [lexemesInLiteral_backslash, hstep, ← Position.ofIndex_succ h]
    exact .token (Lexeme.unreadable?_string _ _) (Lexeme.reach_of_drop_nil hend _ _).symm
      (ahead_exhausted hend)
  | case3 c rest ih =>
    have hnext := drop_succ_of_drop h
    have hread := ih (read ++ [c]) (drop_succ_of_drop hnext)
    rw [Position.ofIndex_succ hnext, Position.ofIndex_succ h, List.reverse_concat] at hread
    rw [lexemesInLiteral_escape]
    exact hread
  | case4 rest =>
    have hnext := drop_succ_of_drop h
    rw [lexemesInLiteral_quote, readString, List.reverse_reverse, past_ofIndex h]
    exact .token (Lexeme.unreadable?_string _ _) (Lexeme.reach_of_drop_cons h _ _).symm
      (.nothing hnext)
  | case5 c rest hnil hcons hquote ih =>
    have hbackslash := ne_backslash hnil hcons
    have hread := ih (read ++ [c]) (drop_succ_of_drop h)
    rw [Position.ofIndex_succ h, List.reverse_concat] at hread
    rw [lexemesInLiteral_cons hbackslash hquote, readString, if_neg (by simp), if_neg hbackslash,
      if_neg hquote]
    exact hread

theorem Lexer.readWord_reads {word : List Char} (hword : word ≠ [])
    (h : source.drop (index + word.length) = rest) :
    (readWord word.reverse (.ofIndex source (index + word.length)) rest).Reads source
      (lexemesInWord index word rest) := by
  have hempty : ¬word.reverse.isEmpty = true := by simpa using hword
  induction rest generalizing word with
  | nil =>
    rw [lexemesInWord_nil, readWord, if_neg hempty]
    exact yieldWord_reads (Lexeme.reach_of_drop_nil h _ _).symm (ahead_exhausted h)
  | cons c rest ih =>
    have hnext := drop_succ_of_drop h
    have hreach := fun kind text => (Lexeme.reach_of_drop_cons h kind text).symm
    rcases hkind : bracketKind? c with _ | kind
    · by_cases hquote : c = '"'
      · subst hquote
        rw [lexemesInWord_stop (by decide), lexemesFrom_quote, readWord, hkind]
        simp only [if_true, if_neg hempty]
        refine yieldWord_reads (hreach _ _) ?_
        rw [past_ofIndex h]
        exact .quote hnext
      · by_cases hseparator : isSeparator c = true
        · have hrun : isRunChar c = false := by simp [isRunChar, hseparator]
          rw [lexemesInWord_stop hrun, lexemesFrom_separator hseparator, readWord, hkind]
          simp only [if_neg hquote, if_pos hseparator, if_neg hempty]
          refine yieldWord_reads (hreach _ _) ?_
          rw [past_ofIndex h]
          exact .nothing hnext
        · have hrun : isRunChar c = true := by
            simpa [isRunChar, hquote] using hseparator
          have hlength : index + (word ++ [c]).length = index + word.length + 1 := by
            simp only [List.length_append, List.length_singleton]
            omega
          rw [lexemesInWord_cons hrun hkind, readWord, hkind]
          simp only [if_neg hquote, if_neg hseparator]
          have hread := @ih (word ++ [c]) (by simp) (by rw [hlength, hnext]) (by simp)
          rw [hlength, Position.ofIndex_succ h, List.reverse_concat] at hread
          exact hread
    · rw [lexemesInWord_bracket hkind, readWord, hkind]
      simp only [if_neg hempty]
      refine yieldWord_reads (hreach _ _) ?_
      rw [past_ofIndex h]
      exact .bracket hnext

/-- Between tokens the first lexeme from there is read. -/
theorem Lexer.readWord_nil_reads (h : source.drop index = rest) :
    (readWord [] (.ofIndex source index) rest).Reads source (lexemesFrom index rest) := by
  induction rest generalizing index with
  | nil =>
    rw [lexemesFrom_nil, readWord, if_pos List.isEmpty_nil,
      Position.ofIndex_of_length_le (length_le_of_drop h)]
    exact .finished
  | cons c rest ih =>
    have hnext := drop_succ_of_drop h
    rcases hkind : bracketKind? c with _ | kind
    · by_cases hquote : c = '"'
      · subst hquote
        rw [lexemesFrom_quote, readWord, hkind]
        simp only [if_true, List.isEmpty_nil]
        rw [← Position.ofIndex_succ h]
        exact readString_reads [] hnext
      · by_cases hseparator : isSeparator c = true
        · rw [lexemesFrom_separator hseparator, readWord, hkind]
          simp only [if_neg hquote, if_pos hseparator, List.isEmpty_nil, if_true]
          rw [← Position.ofIndex_succ h]
          exact ih hnext
        · have hrun : isRunChar c = true := by
            simpa [isRunChar, hquote] using hseparator
          rw [lexemesFrom_wordChar hrun hkind, readWord, hkind]
          simp only [if_neg hquote, if_neg hseparator]
          rw [← Position.ofIndex_succ h]
          exact readWord_reads (List.cons_ne_nil c []) hnext
    · rw [lexemesFrom_bracket hkind, readWord, hkind]
      simp only [List.isEmpty_nil, if_true]
      rw [past_ofIndex h]
      exact .token (Lexeme.unreadable?_bracket hkind index)
        (Lexeme.reach_of_drop_cons h _ _).symm (.nothing hnext)

/-- Every step reads the first of the lexemes ahead. -/
theorem Lexer.next_reads {lexer : Lexer} {ls : List Lexeme} (h : lexer.Ahead source ls) :
    lexer.next.Reads source ls := by
  cases h with
  | nothing h => exact readWord_nil_reads h
  | bracket h => exact readWord_reads (List.cons_ne_nil _ []) h
  | quote h => exact readString_reads [] h

/-! ## All steps -/

/-- How the tokens of a text end if these lexemes are still ahead: with the text, unless one of them
cannot be read. -/
def Lexeme.ending (source : List Char) (ls : List Lexeme) : Lexer.Ending :=
  match ls.findSome? Lexeme.unreadable? with
  | some digits => .tooLong digits
  | none => .endOfText (.ofIndex source source.length)

theorem Lexer.run_of_token {lexer next : Lexer} {t : Token} (h : lexer.next = .token t next) :
    lexer.run = ((t, next) :: next.run.1, next.run.2) := by
  rw [run]
  split
  · rename_i hnext
    cases hnext.symm.trans h
    rfl
  · rename_i hnext
    cases hnext.symm.trans h
  · rename_i hnext
    cases hnext.symm.trans h

theorem Lexer.run_of_finished {lexer last : Lexer} (h : lexer.next = .finished last) :
    lexer.run = ([], .endOfText last.reach) := by
  rw [run]
  split
  · rename_i hnext
    cases hnext.symm.trans h
  · rename_i hnext
    cases hnext.symm.trans h
    rfl
  · rename_i hnext
    cases hnext.symm.trans h

theorem Lexer.run_of_tooLong {lexer : Lexer} {digits : Nat} (h : lexer.next = .tooLong digits) :
    lexer.run = ([], .tooLong digits) := by
  rw [run]
  split
  · rename_i hnext
    cases hnext.symm.trans h
  · rename_i hnext
    cases hnext.symm.trans h
  · rename_i hnext
    cases hnext.symm.trans h
    rfl

/-- A lexer yields the lexemes ahead, up to one that cannot be read. After each of them it has
reached the place just past it. -/
theorem Lexer.run_of_ahead {lexer : Lexer} {ls : List Lexeme} (h : lexer.Ahead source ls) :
    lexer.run.1.map (fun step => (step.1, step.2.reach)) =
        (ls.takeWhile (·.unreadable?.isNone)).map (fun l => (l.token source, l.reach source)) ∧
      lexer.run.2 = Lexeme.ending source ls := by
  induction ls generalizing lexer with
  | nil =>
    have hstep := next_reads h
    generalize hnext : lexer.next = step at hstep
    cases hstep with
    | finished =>
      rw [run_of_finished hnext]
      exact ⟨rfl, rfl⟩
  | cons l ls ih =>
    have hstep := next_reads h
    generalize hnext : lexer.next = step at hstep
    cases hstep with
    | token hreadable hreach hahead =>
      obtain ⟨hsteps, hending⟩ := ih hahead
      rw [run_of_token hnext]
      refine ⟨?_, ?_⟩
      · rw [List.takeWhile_cons_of_pos (by simp [hreadable])]
        simp only [List.map_cons, hsteps, hreach]
      · rw [Lexeme.ending, List.findSome?_cons, hreadable]
        exact hending
    | tooLong hdigits =>
      rw [run_of_tooLong hnext]
      refine ⟨?_, ?_⟩
      · rw [List.takeWhile_cons_of_neg (by simp [hdigits])]
        rfl
      · rw [Lexeme.ending, List.findSome?_cons, hdigits]

/-- The tokens of a text are its lexemes, up to one that cannot be read. -/
theorem Lexer.tokens_ofSource (source : List Char) :
    (Lexer.ofSource source).tokens =
      ((lexemes source).takeWhile (·.unreadable?.isNone)).map (Lexeme.token source) := by
  have hfst := congrArg (List.map Prod.fst) (run_of_ahead (ahead_ofSource source)).1
  rw [List.map_map, List.map_map] at hfst
  exact hfst

/-- Every token of a text is a lexeme of it that can be read. -/
theorem Lexer.exists_lexeme_of_mem_tokens {t : Token} (h : t ∈ (Lexer.ofSource source).tokens) :
    ∃ l ∈ lexemes source, l.unreadable? = none ∧ t = l.token source := by
  rw [tokens_ofSource] at h
  obtain ⟨l, hl, rfl⟩ := List.mem_map.1 h
  have hreadable : l.unreadable?.isNone = true := (List.mem_takeWhile_imp hl : _)
  exact ⟨l, (List.takeWhile_sublist _).subset hl, Option.isNone_iff_eq_none.1 hreadable, rfl⟩

/-- Reading a text stops early only at an integer in it that has too many digits. -/
theorem Lexer.exists_lexeme_of_ending {digits : Nat}
    (h : (Lexer.ofSource source).ending = .tooLong digits) :
    ∃ l ∈ lexemes source, l.unreadable? = some digits := by
  have hending : Lexeme.ending source (lexemes source) = .tooLong digits :=
    (run_of_ahead (ahead_ofSource source)).2.symm.trans h
  unfold Lexeme.ending at hending
  split at hending
  · rename_i found hfound
    cases hending
    exact List.exists_of_findSome?_eq_some hfound
  · cases hending

theorem takeWhile_readable {ls : List Lexeme} (hreadable : ∀ l ∈ ls, l.unreadable? = none) :
    ls.takeWhile (·.unreadable?.isNone) = ls := by
  refine List.takeWhile_eq_self_iff.2 ?_
  intro l hl
  simp [hreadable l hl]

/-- A text is read to its end if none of its integers has too many digits. -/
theorem Lexer.run_of_readable {lexer : Lexer} {ls : List Lexeme} (h : lexer.Ahead source ls)
    (hreadable : ∀ l ∈ ls, l.unreadable? = none) :
    lexer.run.1.map (fun step => (step.1, step.2.reach)) =
        ls.map (fun l => (l.token source, l.reach source)) ∧
      lexer.run.2 = .endOfText (.ofIndex source source.length) := by
  have hnone : ls.findSome? Lexeme.unreadable? = none := List.findSome?_eq_none_iff.2 hreadable
  have hrun := run_of_ahead h
  rw [takeWhile_readable hreadable, Lexeme.ending, hnone] at hrun
  exact hrun

/-- A text has no integer of more digits than are read. -/
def Readable (source : List Char) : Prop :=
  ∀ l ∈ lexemes source,
    l.kind ≠ .string → isIntegerWord l.text = true → (unsigned l.text).length ≤ Text.digitLimit

instance (source : List Char) : Decidable (Readable source) :=
  inferInstanceAs (Decidable (∀ l ∈ lexemes source, _ → _ → _))

theorem Readable.unreadable?_eq_none (h : Readable source) :
    ∀ l ∈ lexemes source, l.unreadable? = none := by
  intro l hl
  refine Option.eq_none_iff_forall_ne_some.2 fun digits hdigits => ?_
  obtain ⟨hkind, hword, hlimit, -⟩ := Lexeme.unreadable?_eq_some_iff.1 hdigits
  exact absurd (h l hl hkind hword) (by omega)

/-- A text that is read to its end has its lexemes as tokens. -/
theorem tokens_of_readable (h : Readable source) :
    (Lexer.ofSource source).tokens = (lexemes source).map (Lexeme.token source) := by
  rw [Lexer.tokens_ofSource, takeWhile_readable h.unreadable?_eq_none]

theorem ending_of_readable (h : Readable source) :
    (Lexer.ofSource source).ending = .endOfText (.ofIndex source source.length) :=
  (Lexer.run_of_readable (Lexer.ahead_ofSource source) h.unreadable?_eq_none).2

/-- A lexer yields the kinds and texts of the lexemes of a text, one token for each, and then meets
the end of the text. -/
theorem kinds_and_texts_of_tokens (h : Readable source) :
    (Lexer.ofSource source).tokens.map (fun t => (t.kind, t.text)) =
        (lexemes source).map (fun l => (l.kind, l.text)) ∧
      ∃ p, (Lexer.ofSource source).ending = .endOfText p := by
  refine ⟨?_, _, ending_of_readable h⟩
  rw [tokens_of_readable h, List.map_map]
  rfl

/-- A quote ends the first word and opens a string with an escaped quote in it. Two brackets stand
by themselves and the third one begins a word. The last string is never closed. -/
theorem kinds_and_texts_of_tokens_mixed :
    (Lexer.ofSource "ab\"c\\\"\"\x7b(x)y +07 -2147483649\"\\".toList).tokens.map
        (fun t => (t.kind, t.text)) =
      [(.word, ['a', 'b']), (.string, ['c', '"']), (.leftBrace, ['\x7b']), (.leftParen, ['(']),
        (.word, ['x']), (.word, [')', 'y']), (.int, ['+', '0', '7']),
        (.word, "-2147483649".toList), (.string, [])] := by
  have hreadable : Readable "ab\"c\\\"\"\x7b(x)y +07 -2147483649\"\\".toList := by decide +kernel
  rw [(kinds_and_texts_of_tokens hreadable).1]
  decide +kernel

end LineEditor
