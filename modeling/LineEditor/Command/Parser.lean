import LineEditor.Command.Keyword
import LineEditor.Text.Quoted
import LineEditor.Token.Lexer

/-!
# Parsing

Commands are written one after another, each as its keyword and then its arguments: a string in
quotes, two of them for `translate`, an integer, or for `repeat` a count and another command.
Parsing stops at the first token that cannot continue the program, or at the end of the tokens if a
command is not finished there, and reports what is wrong with it.
-/

namespace LineEditor

/-! ## What can be wrong -/

/-- What a program text does wrong. -/
inductive Issue where
  /-- An integer must follow the keyword. -/
  | integerExpected (keyword : Keyword)
  /-- The integer after the keyword must not be negative. -/
  | countExpected (keyword : Keyword)
  /-- A string must follow the keyword. -/
  | stringExpected (keyword : Keyword)
  /-- The string after the keyword must be one character. -/
  | charExpected (keyword : Keyword)
  /-- A second string must follow the first. -/
  | secondStringExpected
  /-- The two strings must have the same length. -/
  | lengthsDiffer
  /-- A command must begin here. -/
  | commandExpected
  /-- A command must follow the count. -/
  | bodyExpected (count : Int)
  /-- The word begins no command. -/
  | unknownCommand (word : List Char)
deriving Repr, DecidableEq

/-- An error in a program text: what is wrong, where, and the token met there, if any. -/
structure ParseError where
  /-- What is wrong. -/
  issue : Issue
  /-- Where. -/
  position : Position
  /-- The token that is wrong; `none` at the end of the tokens. -/
  found : Option Token
deriving Repr, DecidableEq

/-- Why tokens are not parsed. -/
inductive Failure where
  /-- They form no program. -/
  | refused (error : ParseError)
  /-- An integer has so many digits that it cannot be read. -/
  | tooLong (digits : Nat)
  /-- A token that should be an integer is none. -/
  | notInteger (text : List Char)
deriving Repr, DecidableEq

/-- The kinds of token that an issue asks for. -/
def Issue.expected : Issue → List Kind
  | .integerExpected _ | .countExpected _ => [.int]
  | .stringExpected _ | .charExpected _ | .secondStringExpected | .lengthsDiffer => [.string]
  | .commandExpected | .bodyExpected _ | .unknownCommand _ => [.word]

/-- A keyword in quotes. -/
def Keyword.quoted (k : Keyword) : String :=
  Text.quoted k.spelling.toList

/-- An issue in words. -/
def Issue.message : Issue → String
  | .integerExpected k => s!"Expected an integer after {k.quoted}"
  | .countExpected k => s!"Expected a non-negative integer after {k.quoted}"
  | .stringExpected k => s!"Expected a string after {k.quoted}"
  | .charExpected k => s!"Expected a single-character string after {k.quoted}"
  | .secondStringExpected => s!"Expected a second string after {Keyword.translate.quoted}"
  | .lengthsDiffer => s!"{Keyword.translate.quoted} strings must have equal length"
  | .commandExpected => "Expected a command"
  | .bodyExpected count => s!"Expected a command after {Keyword.times.quoted} {count}"
  | .unknownCommand word =>
    let shown := Text.quoted word
    match suggest? word with
    | none => s!"Unknown command {shown}"
    | some k =>
      let meant := Text.quoted k
      s!"Unknown command {shown} (did you mean {meant}?)"

/-- A token as messages show it: its kind, and its text if it has one. -/
def Token.shown (t : Token) : String :=
  if t.text.isEmpty then t.kind.name
  else
    let text := String.ofList t.text
    s!"{t.kind.name}({text})"

/-- What was met in place of what is expected, as messages show it. -/
def ParseError.foundShown (e : ParseError) : String :=
  match e.found with
  | some t => t.shown
  | none => "EOF"

/-- An error in words, with its place, what is expected there and what was met. -/
def ParseError.message (e : ParseError) : String :=
  let expected := ", ".intercalate (e.issue.expected.map Kind.name)
  let place := s!"line {e.position.line}, column {e.position.column}"
  s!"{e.issue.message} at {place}; expected {expected}; found {e.foundShown}"

/-- The words for an integer that has more digits than can be read. -/
def tooLongMessage (digits : Nat) : String :=
  s!"Exceeds the limit ({Text.digitLimit} digits) for integer string conversion: value has " ++
    s!"{digits} digits; use sys.set_int_max_str_digits() to increase the limit"

/-- The words for a text that is no integer, which is shown up to a length. -/
def notIntegerMessage (text : List Char) : String :=
  let shown := (Text.quoted text).take 200
  s!"invalid literal for int() with base 10: {shown}"

/-! ## Parsing tokens -/

/-- The failure of meeting the end of the tokens, which is as given. -/
def Lexer.Ending.failure (issue : Issue) : Lexer.Ending → Failure
  | .endOfText p => .refused ⟨issue, p, none⟩
  | .tooLong digits => .tooLong digits

/-- The failure of meeting a token that is wrong. -/
def Token.failure (t : Token) (issue : Issue) : Failure :=
  .refused ⟨issue, t.position, some t⟩

/-- Takes a token of the given kind. -/
def expect (ending : Lexer.Ending) (kind : Kind) (issue : Issue) :
    List Token → Except Failure (Token × List Token)
  | [] => .error (ending.failure issue)
  | t :: rest => if t.kind = kind then .ok (t, rest) else .error (t.failure issue)

/-- The integer that a token is. -/
def Token.integer (t : Token) : Except Failure Int :=
  match Text.readInt t.text with
  | .ok n => .ok n
  | .error (.tooLong digits) => .error (.tooLong digits)
  | .error .malformed => .error (.notInteger t.text)

/-- The count that a token after the keyword `k` is. -/
def Token.count (k : Keyword) (t : Token) : Except Failure Int :=
  if t.kind = .int then
    match t.integer with
    | .error e => .error e
    | .ok n => if n < 0 then .error (t.failure (.countExpected k)) else .ok n
  else
    .error (t.failure (.integerExpected k))

/-- Takes the count after a keyword. -/
def expectCount (ending : Lexer.Ending) (k : Keyword) :
    List Token → Except Failure (Int × List Token)
  | [] => .error (ending.failure (.integerExpected k))
  | t :: rest => (t.count k).map fun n => (n, rest)

/-- Takes the string of one character after a keyword. -/
def expectChar (ending : Lexer.Ending) (k : Keyword) (tokens : List Token) :
    Except Failure (List Char × List Token) :=
  match expect ending .string (.stringExpected k) tokens with
  | .error e => .error e
  | .ok (t, rest) =>
    if t.text.length = 1 then .ok (t.text, rest) else .error (t.failure (.charExpected k))

/-- Pairs with one more pair, which takes the place of a pair for the same character. -/
def setPair (key value : Char) : List (Char × Char) → List (Char × Char)
  | [] => [(key, value)]
  | (k, v) :: pairs =>
    if k = key then (k, value) :: pairs else (k, v) :: setPair key value pairs

/-- The pairs by which two strings of the same length replace characters. -/
def pairUp (source target : List Char) : List (Char × Char) :=
  (source.zip target).foldl (fun pairs p => setPair p.1 p.2 pairs) []

/-- Takes two strings of the same length after `translate`. -/
def expectPairs (ending : Lexer.Ending) (tokens : List Token) :
    Except Failure (List (Char × Char) × List Token) :=
  match expect ending .string (.stringExpected .translate) tokens with
  | .error e => .error e
  | .ok (source, rest) =>
    match expect ending .string .secondStringExpected rest with
    | .error e => .error e
    | .ok (target, rest) =>
      if source.text.length = target.text.length then
        .ok (pairUp source.text target.text, rest)
      else
        .error (target.failure .lengthsDiffer)

/-- Parses a command whose first token is `t`. -/
def parseCommand (ending : Lexer.Ending) (t : Token) (tokens : List Token) :
    Except Failure (Command × List Token) :=
  if t.kind = .word then
    match Verb.ofKeyword? t.text, Keyword.ofWord? t.text with
    | some v, _ => .ok (.edit (.plain v), tokens)
    | none, none => .error (t.failure (.unknownCommand t.text))
    | none, some .insert =>
      (expect ending .string (.stringExpected .insert) tokens).map fun (s, rest) =>
        (.edit (.insert s.text), rest)
    | none, some .truncateBy =>
      (expectCount ending .truncateBy tokens).map fun (n, rest) => (.edit (.truncateBy n), rest)
    | none, some .goto =>
      match expect ending .int (.integerExpected .goto) tokens with
      | .error e => .error e
      | .ok (n, rest) => n.integer.map fun column => (.edit (.goto column), rest)
    | none, some .find =>
      (expectChar ending .find tokens).map fun (c, rest) => (.edit (.find c), rest)
    | none, some .findBack =>
      (expectChar ending .findBack tokens).map fun (c, rest) => (.edit (.findBack c), rest)
    | none, some .translate =>
      (expectPairs ending tokens).map fun (pairs, rest) => (.edit (.translate pairs), rest)
    | none, some .times =>
      match tokens with
      | [] => .error (ending.failure (.integerExpected .times))
      | n :: rest =>
        match n.count .times with
        | .error e => .error e
        | .ok count =>
          match rest with
          | [] => .error (ending.failure (.bodyExpected count))
          | body :: rest =>
            (parseCommand ending body rest).map fun (c, rest) => (.times count c, rest)
  else
    .error (t.failure .commandExpected)

/-! ## Every command takes tokens -/

theorem length_lt_of_expect {ending : Lexer.Ending} {kind : Kind} {issue : Issue}
    {tokens rest : List Token} {t : Token}
    (h : expect ending kind issue tokens = .ok (t, rest)) : rest.length < tokens.length := by
  cases tokens with
  | nil => nomatch h
  | cons u tokens =>
    simp only [expect] at h
    split at h
    · cases h; simp
    · nomatch h

theorem length_lt_of_expectCount {ending : Lexer.Ending} {k : Keyword} {tokens rest : List Token}
    {n : Int} (h : expectCount ending k tokens = .ok (n, rest)) : rest.length < tokens.length := by
  cases tokens with
  | nil => nomatch h
  | cons u tokens =>
    simp only [expectCount] at h
    cases hn : u.count k with
    | error e => rw [hn] at h; nomatch h
    | ok m => rw [hn] at h; cases h; simp

theorem length_lt_of_expectChar {ending : Lexer.Ending} {k : Keyword} {tokens rest : List Token}
    {c : List Char} (h : expectChar ending k tokens = .ok (c, rest)) :
    rest.length < tokens.length := by
  unfold expectChar at h
  split at h
  · nomatch h
  · rename_i ht
    split at h
    · cases h; exact length_lt_of_expect ht
    · nomatch h

theorem length_lt_of_expectPairs {ending : Lexer.Ending} {tokens rest : List Token}
    {pairs : List (Char × Char)} (h : expectPairs ending tokens = .ok (pairs, rest)) :
    rest.length < tokens.length := by
  unfold expectPairs at h
  split at h
  · nomatch h
  · rename_i hs
    split at h
    · nomatch h
    · rename_i ht
      split at h
      · cases h; exact Nat.lt_trans (length_lt_of_expect ht) (length_lt_of_expect hs)
      · nomatch h

theorem exists_of_map_eq_ok {α β : Type} {f : α → β} {x : Except Failure α} {b : β}
    (h : x.map f = .ok b) : ∃ a, x = .ok a ∧ f a = b := by
  cases x with
  | error e => nomatch h
  | ok a => cases h; exact ⟨a, rfl, rfl⟩

/-- The tokens that a command leaves are no more than those that follow its first one. -/
theorem length_le_of_parseCommand {ending : Lexer.Ending} {t : Token} {tokens rest : List Token}
    {c : Command} (h : parseCommand ending t tokens = .ok (c, rest)) :
    rest.length ≤ tokens.length := by
  fun_induction parseCommand ending t tokens generalizing c with
  | case1 => cases h; exact Nat.le_refl _
  | case2 | case5 | case10 | case11 | case12 | case14 => nomatch h
  | case3 =>
    obtain ⟨_, hx, hc⟩ := exists_of_map_eq_ok h
    cases hc; exact Nat.le_of_lt (length_lt_of_expect hx)
  | case4 =>
    obtain ⟨_, hx, hc⟩ := exists_of_map_eq_ok h
    cases hc; exact Nat.le_of_lt (length_lt_of_expectCount hx)
  | case6 _ _ _ _ _ _ _ hx =>
    obtain ⟨_, _, hc⟩ := exists_of_map_eq_ok h
    cases hc; exact Nat.le_of_lt (length_lt_of_expect hx)
  | case7 | case8 =>
    obtain ⟨_, hx, hc⟩ := exists_of_map_eq_ok h
    cases hc; exact Nat.le_of_lt (length_lt_of_expectChar hx)
  | case9 =>
    obtain ⟨_, hx, hc⟩ := exists_of_map_eq_ok h
    cases hc; exact Nat.le_of_lt (length_lt_of_expectPairs hx)
  | case13 _ _ _ _ _ _ _ _ _ ih =>
    obtain ⟨_, hx, hc⟩ := exists_of_map_eq_ok h
    cases hc; exact Nat.le_succ_of_le (Nat.le_succ_of_le (ih hx))

/-- Parses a program. -/
def parseTokens (ending : Lexer.Ending) : List Token → Except Failure Program
  | [] =>
    match ending with
    | .endOfText _ => .ok []
    | .tooLong digits => .error (.tooLong digits)
  | t :: tokens =>
    match _h : parseCommand ending t tokens with
    | .error e => .error e
    | .ok (c, rest) => (parseTokens ending rest).map (c :: ·)
termination_by tokens => tokens.length
decreasing_by have := length_le_of_parseCommand _h; simp only [List.length_cons]; omega

/-- Parses what a lexer has still to read. -/
def Lexer.parse (lexer : Lexer) : Except Failure Program :=
  parseTokens lexer.ending lexer.tokens

/-- Parses a program text; one without commands is the empty program. -/
def parse (source : List Char) : Except Failure Program :=
  (Lexer.ofSource source).parse

end LineEditor
