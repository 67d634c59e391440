import LineEditor.Program.Run

/-!
# Flat programs

Blocks and repetitions are a short way of writing a row of basic commands. Written out in full, a
command is the row of its leaves: a block is the rows of its commands one after another, a
repetition the row of its body so many times over, and a count below nought counts as nought. A
program in the place of a command is a leaf that cannot be run.

A row runs one leaf after another, and before each of them it stops if it may and the line is done.
-/

namespace LineEditor

/-- A leaf of a command. -/
inductive Leaf where
  /-- A basic command. -/
  | edit (e : Edit)
  /-- A program in the place of a command. -/
  | program
deriving Repr, DecidableEq

/-- Runs a leaf. -/
def Leaf.run : Leaf → Line → Outcome
  | .edit e, line => e.attempt line
  | .program, line => .refused line .notCommand

mutual

/-- The leaves of a command, in the order in which they run. -/
def Command.leaves : Command → List Leaf
  | .edit e => [.edit e]
  | .times count body => (List.replicate count.toNat (Command.leaves body)).flatten
  | .block commands => Command.leavesAll commands
  | .program _ => [.program]

/-- The leaves of commands one after another. -/
def Command.leavesAll : List Command → List Leaf
  | [] => []
  | c :: commands => Command.leaves c ++ Command.leavesAll commands

end

/-- Runs leaves one after another; before each one it stops if it may and the line is done. -/
def runLeaves (stop : Bool) : List Leaf → Line → Outcome
  | [], line => .ran line
  | leaf :: leaves, line =>
    if stop && line.done then .ran line
    else
      match leaf.run line with
      | .ran line => runLeaves stop leaves line
      | .refused line fault => .refused line fault

end LineEditor
