import LineEditor.Proofs.Command.Grammar

/-!
# Repetitions in a row

The counts of repetitions of repetitions stand in a row before the command that is repeated. They
can be read in a loop, which collects them, and then put around that command, the last one first.
That comes to the same as reading each repetition as a command that holds another one.
-/

namespace LineEditor

variable {ending : Lexer.Ending}

/-- Reads the counts of repetitions and collects them, the last one first, up to the first token of
the command that is repeated. -/
def readCounts (ending : Lexer.Ending) (counts : List Int) (t : Token) (tokens : List Token) :
    Except Failure (List Int × Token × List Token) :=
  if t.kind = .word ∧ t.text = Keyword.times.spelling.toList then
    match tokens with
    | [] => .error (ending.failure (.integerExpected .times))
    | n :: rest =>
      match n.count .times with
      | .error e => .error e
      | .ok count =>
        match rest with
        | [] => .error (ending.failure (.bodyExpected count))
        | first :: rest => readCounts ending (count :: counts) first rest
  else
    .ok (counts, t, tokens)

/-- A command repeated by each of some counts, the last of which is outermost. -/
def Command.repeated (counts : List Int) (c : Command) : Command :=
  counts.foldl (fun c count => .times count c) c

/-- Parses a command by reading the counts before it in a loop. -/
def parseFlat (ending : Lexer.Ending) (t : Token) (tokens : List Token) :
    Except Failure (Command × List Token) :=
  match readCounts ending [] t tokens with
  | .error e => .error e
  | .ok (counts, first, rest) =>
    (parseCommand ending first rest).map fun (c, rest) => (c.repeated counts, rest)

/-- The loop stops before a command that is no repetition. -/
theorem not_times_of_readCounts {counts all : List Int} {t first : Token} {tokens rest : List Token}
    (h : readCounts ending counts t tokens = .ok (all, first, rest)) :
    ¬ first.IsWord Keyword.times.spelling := by
  fun_induction readCounts ending counts t tokens with
  | case1 | case2 | case3 => cases h
  | case4 _ _ _ _ _ _ _ _ ih => exact ih h
  | case5 counts t tokens hword =>
    cases h
    exact hword

/-- The counts that are read are put around the command, and those read before around it. -/
theorem parseCommand_eq_readCounts (counts : List Int) (t : Token) (tokens : List Token) :
    ((parseCommand ending t tokens).map fun (c, rest) => (c.repeated counts, rest)) =
      match readCounts ending counts t tokens with
      | .error e => .error e
      | .ok (all, first, rest) =>
        (parseCommand ending first rest).map fun (c, rest) => (c.repeated all, rest) := by
  fun_induction readCounts ending counts t tokens with
  | case1 counts t hword =>
    rw [parseCommand_times hword]
    rfl
  | case2 counts t hword n rest e he =>
    rw [parseCommand_times hword]
    simp only [he]
    rfl
  | case3 counts t hword n count hcount =>
    rw [parseCommand_times hword]
    simp only [hcount]
    rfl
  | case4 counts t hword n count hcount first rest ih =>
    rw [← ih, parseCommand_times hword]
    simp only [hcount]
    cases parseCommand ending first rest <;> rfl
  | case5 => rfl

theorem parseCommand_eq_parseFlat (t : Token) (tokens : List Token) :
    parseCommand ending t tokens = parseFlat ending t tokens := by
  rw [parseFlat, ← parseCommand_eq_readCounts]
  cases parseCommand ending t tokens <;> rfl

end LineEditor
