import LineEditor.Command.Parser

/-!
# Parsing while reading

A program text need not be read to its end before it is parsed. Here the parser takes each token
from the lexer when it asks for it, and what follows a token that is wrong is never read. If a token
is missing, the lexer has met the end of the text by then, and the error stands there.
-/

namespace LineEditor

namespace Lexer

/-- Takes the next token; the issue is that there is none. -/
def pull (issue : Issue) (lexer : Lexer) : Except Failure (Token × Lexer) :=
  match lexer.next with
  | .token t rest => .ok (t, rest)
  | .finished last => .error (.refused ⟨issue, last.reach, none⟩)
  | .tooLong digits => .error (.tooLong digits)

/-- Takes a token of the given kind. -/
def pullKind (kind : Kind) (issue : Issue) (lexer : Lexer) : Except Failure (Token × Lexer) :=
  match lexer.pull issue with
  | .error e => .error e
  | .ok (t, rest) => if t.kind = kind then .ok (t, rest) else .error (t.failure issue)

/-- Takes the count after a keyword. -/
def pullCount (k : Keyword) (lexer : Lexer) : Except Failure (Int × Lexer) :=
  match lexer.pull (.integerExpected k) with
  | .error e => .error e
  | .ok (t, rest) => (t.count k).map fun n => (n, rest)

/-- Takes the string of one character after a keyword. -/
def pullChar (k : Keyword) (lexer : Lexer) : Except Failure (List Char × Lexer) :=
  match lexer.pullKind .string (.stringExpected k) with
  | .error e => .error e
  | .ok (t, rest) =>
    if t.text.length = 1 then .ok (t.text, rest) else .error (t.failure (.charExpected k))

/-- Takes two strings of the same length after `translate`. -/
def pullPairs (lexer : Lexer) : Except Failure (List (Char × Char) × Lexer) :=
  match lexer.pullKind .string (.stringExpected .translate) with
  | .error e => .error e
  | .ok (source, rest) =>
    match rest.pullKind .string .secondStringExpected with
    | .error e => .error e
    | .ok (target, rest) =>
      if source.text.length = target.text.length then
        .ok (pairUp source.text target.text, rest)
      else
        .error (target.failure .lengthsDiffer)

/-! ## Every token that is taken leaves less to read -/

variable {lexer rest : Lexer} {t : Token} {issue : Issue} {k : Keyword}

theorem size_lt_of_pull (h : lexer.pull issue = .ok (t, rest)) : rest.size < lexer.size := by
  unfold pull at h
  split at h
  · rename_i hnext
    cases h
    exact size_lt_of_next hnext
  · cases h
  · cases h

theorem size_lt_of_pullKind {kind : Kind} (h : lexer.pullKind kind issue = .ok (t, rest)) :
    rest.size < lexer.size := by
  unfold pullKind at h
  split at h
  · cases h
  · rename_i hpull
    split at h
    · cases h
      exact size_lt_of_pull hpull
    · cases h

theorem size_lt_of_pullCount {n : Int} (h : lexer.pullCount k = .ok (n, rest)) :
    rest.size < lexer.size := by
  unfold pullCount at h
  split at h
  · cases h
  · rename_i hpull
    obtain ⟨_, _, hpair⟩ := exists_of_map_eq_ok h
    cases hpair
    exact size_lt_of_pull hpull

theorem size_lt_of_pullChar {c : List Char} (h : lexer.pullChar k = .ok (c, rest)) :
    rest.size < lexer.size := by
  unfold pullChar at h
  split at h
  · cases h
  · rename_i hpull
    split at h
    · cases h
      exact size_lt_of_pullKind hpull
    · cases h

theorem size_lt_of_pullPairs {pairs : List (Char × Char)}
    (h : lexer.pullPairs = .ok (pairs, rest)) : rest.size < lexer.size := by
  unfold pullPairs at h
  split at h
  · cases h
  · rename_i hsource
    split at h
    · cases h
    · rename_i htarget
      split at h
      · cases h
        exact Nat.lt_trans (size_lt_of_pullKind htarget) (size_lt_of_pullKind hsource)
      · cases h

/-! ## Commands and programs -/

/-- Parses a command whose first token is `t`. -/
def pullCommand (t : Token) (lexer : Lexer) : Except Failure (Command × Lexer) :=
  if t.kind = .word then
    match Verb.ofKeyword? t.text, Keyword.ofWord? t.text with
    | some v, _ => .ok (.edit (.plain v), lexer)
    | none, none => .error (t.failure (.unknownCommand t.text))
    | none, some .insert =>
      (lexer.pullKind .string (.stringExpected .insert)).map fun (s, rest) =>
        (.edit (.insert s.text), rest)
    | none, some .truncateBy =>
      (lexer.pullCount .truncateBy).map fun (n, rest) => (.edit (.truncateBy n), rest)
    | none, some .goto =>
      match lexer.pullKind .int (.integerExpected .goto) with
      | .error e => .error e
      | .ok (n, rest) => n.integer.map fun column => (.edit (.goto column), rest)
    | none, some .find =>
      (lexer.pullChar .find).map fun (c, rest) => (.edit (.find c), rest)
    | none, some .findBack =>
      (lexer.pullChar .findBack).map fun (c, rest) => (.edit (.findBack c), rest)
    | none, some .translate =>
      lexer.pullPairs.map fun (pairs, rest) => (.edit (.translate pairs), rest)
    | none, some .times =>
      match _hcount : lexer.pullCount .times with
      | .error e => .error e
      | .ok (count, rest) =>
        match _hbody : rest.pull (.bodyExpected count) with
        | .error e => .error e
        | .ok (body, rest) => (rest.pullCommand body).map fun (c, rest) => (.times count c, rest)
  else
    .error (t.failure .commandExpected)
termination_by lexer.size
decreasing_by exact Nat.lt_trans (size_lt_of_pull _hbody) (size_lt_of_pullCount _hcount)

/-- What is left to read after a command is no more than what was left after its first token. -/
theorem size_le_of_pullCommand {c : Command} (h : lexer.pullCommand t = .ok (c, rest)) :
    rest.size ≤ lexer.size := by
  fun_induction pullCommand t lexer generalizing c with
  | case1 => cases h; exact Nat.le_refl _
  | case2 | case5 | case10 | case11 | case13 => cases h
  | case3 =>
    obtain ⟨_, hpull, hc⟩ := exists_of_map_eq_ok h
    cases hc; exact Nat.le_of_lt (size_lt_of_pullKind hpull)
  | case4 =>
    obtain ⟨_, hpull, hc⟩ := exists_of_map_eq_ok h
    cases hc; exact Nat.le_of_lt (size_lt_of_pullCount hpull)
  | case6 _ _ _ _ _ _ _ hpull =>
    obtain ⟨_, _, hc⟩ := exists_of_map_eq_ok h
    cases hc; exact Nat.le_of_lt (size_lt_of_pullKind hpull)
  | case7 | case8 =>
    obtain ⟨_, hpull, hc⟩ := exists_of_map_eq_ok h
    cases hc; exact Nat.le_of_lt (size_lt_of_pullChar hpull)
  | case9 =>
    obtain ⟨_, hpull, hc⟩ := exists_of_map_eq_ok h
    cases hc; exact Nat.le_of_lt (size_lt_of_pullPairs hpull)
  | case12 =>
    rename_i hcount _ _ hbody ih
    obtain ⟨_, hbody', hc⟩ := exists_of_map_eq_ok h
    cases hc
    exact Nat.le_of_lt (Nat.lt_of_le_of_lt (ih hbody')
      (Nat.lt_trans (size_lt_of_pull hbody) (size_lt_of_pullCount hcount)))

/-- Parses the rest of a program text while reading it. -/
def pullProgram (lexer : Lexer) : Except Failure Program :=
  match _hnext : lexer.next with
  | .finished _ => .ok []
  | .tooLong digits => .error (.tooLong digits)
  | .token t rest =>
    match _hcommand : rest.pullCommand t with
    | .error e => .error e
    | .ok (c, rest) => rest.pullProgram.map (c :: ·)
termination_by lexer.size
decreasing_by
  exact Nat.lt_of_le_of_lt (size_le_of_pullCommand _hcommand) (size_lt_of_next _hnext)

end Lexer

end LineEditor
