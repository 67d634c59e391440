import LineEditor.Command.Basic
import LineEditor.Line.Whole
import LineEditor.Line.WordEdit

/-!
# Running programs

A program runs on a line, one command after another. If it is to stop when the line is done, it
checks that before each command of a block and before each round of a repetition; a command that is
run by itself is run in any case.

Repetitions of repetitions are run as one: their counts are multiplied, and the product says how
often the innermost command runs. A count below nought makes no sense by itself but takes part in
the product like any other; a product below nought counts as nought.

A program in the place of a command cannot be run, nor can a command that needs a character at a
place where the line has none, which happens only if the cursor is not on the line. The line is then
left as the commands before it made it.
-/

namespace LineEditor

/-- Runs a command of one word. -/
def Verb.run : Verb → Line → Line
  | .forward => Line.forward
  | .back => Line.back
  | .forwardWord => Line.forwardWord
  | .backWord => Line.backWord
  | .home => Line.home
  | .lineEnd => Line.toEnd
  | .last => Line.last
  | .delete => Line.delete
  | .deleteBack => Line.deleteBack
  | .transposeChars => Line.transposeChars
  | .upcaseChar => Line.upcaseChar
  | .downcaseChar => Line.downcaseChar
  | .copyLine => Line.copyLine
  | .killWord => Line.killWord
  | .killWordBack => Line.killWordBack
  | .killFullWord => Line.killFullWord
  | .transposeWords => Line.transposeWords
  | .upcaseWord => Line.upcaseWord
  | .downcaseWord => Line.downcaseWord
  | .capitalizeWord => Line.capitalizeWord
  | .mark => Line.setMark
  | .upcaseRegion => Line.upcaseRegion
  | .downcaseRegion => Line.downcaseRegion
  | .transpose => Line.transpose
  | .copy => Line.copy
  | .paste => Line.paste
  | .cut => Line.cut
  | .upcaseClip => Line.modifyClip Text.upcase
  | .downcaseClip => Line.modifyClip Text.downcase
  | .capitalizeClip => Line.modifyClip Text.capitalize
  | .trimClipLeft => Line.modifyClip Text.trimLeft
  | .trimClipRight => Line.modifyClip Text.trimRight
  | .trimClip => Line.modifyClip Text.trim
  | .kill => Line.removeAfter
  | .killLine => Line.killAfter
  | .killLineBack => Line.killBefore
  | .trimLine => Line.trim
  | .trimLineLeft => Line.trimLeft
  | .trimLineRight => Line.trimRight
  | .upcaseLine => Line.upcase
  | .downcaseLine => Line.downcase
  | .nextLine => fun line => { line with done := true }

/-- Runs a basic command. A search makes the line done if it fails, and not done if it succeeds. -/
def Edit.run : Edit → Line → Line
  | .plain verb => verb.run
  | .goto column => Line.goto column
  | .insert s => Line.insert s
  | .truncateBy amount => Line.truncateBy amount
  | .find target => fun line =>
    { line.find target with done := (line.findAhead? target).isNone }
  | .findBack target => fun line =>
    { line.findBack target with done := (line.findBehind? target).isNone }
  | .translate pairs => Line.translate pairs

/-! ## What cannot be run -/

/-- Why a command cannot be run. -/
inductive Fault where
  /-- It looks at a character where the line has none. -/
  | nothingToRead
  /-- It deletes a character where the line has none. -/
  | nothingToDelete
  /-- It is a program. -/
  | notCommand
deriving Repr, DecidableEq

/-- Why a command of one word cannot be run on a line. -/
def Verb.fault? (verb : Verb) (line : Line) : Option Fault :=
  match verb with
  | .forwardWord | .killWord =>
    if line.isBefore then some .nothingToRead else none
  | .killWordBack | .capitalizeWord =>
    if line.isPast then some .nothingToRead else none
  | .killFullWord | .upcaseWord | .downcaseWord =>
    if line.isBefore || line.isPast then some .nothingToRead else none
  | .transposeChars =>
    if 1 < line.length && (line.cursor ≤ -line.length || line.isPast) then some .nothingToRead
    else none
  | .delete => if line.isBefore then some .nothingToDelete else none
  | .deleteBack => if line.isPast then some .nothingToDelete else none
  | _ => none

/-- Why a basic command cannot be run on a line. -/
def Edit.fault? (edit : Edit) (line : Line) : Option Fault :=
  match edit with
  | .plain verb => verb.fault? line
  | .find _ => if line.isBefore then some .nothingToRead else none
  | _ => none

/-- What comes of running commands on a line. -/
inductive Outcome where
  /-- They have run, and left the line as given. -/
  | ran (line : Line)
  /-- One of them cannot be run; those before it left the line as given. -/
  | refused (line : Line) (fault : Fault)
deriving Repr, DecidableEq

namespace Outcome

/-- The line that is left. -/
def line : Outcome → Line
  | .ran line => line
  | .refused line _ => line

end Outcome

/-- Runs a basic command if it can be run. -/
def Edit.attempt (edit : Edit) (line : Line) : Outcome :=
  match edit.fault? line with
  | none => .ran (edit.run line)
  | some fault => .refused line fault

/-- Runs something so many times over; before each round it stops if it may and the line is done. -/
def runTimes (stop : Bool) (body : Line → Outcome) : Nat → Line → Outcome
  | 0, line => .ran line
  | n + 1, line =>
    if stop && line.done then .ran line
    else
      match body line with
      | .ran line => runTimes stop body n line
      | .refused line fault => .refused line fault

mutual

/-- Runs a command. -/
def Command.run (stop : Bool) : Command → Line → Outcome
  | .edit e, line => e.attempt line
  | .times count body, line => Command.runRepeated stop count body line
  | .block commands, line => Command.runAll stop commands line
  | .program _, line => .refused line .notCommand

/-- Runs a command as often as the given count says, which is multiplied by its own count if it is a
repetition itself. -/
def Command.runRepeated (stop : Bool) (count : Int) : Command → Line → Outcome
  | .edit e, line => runTimes stop e.attempt count.toNat line
  | .times n body, line => Command.runRepeated stop (count * n) body line
  | .block commands, line =>
    runTimes stop (fun line => Command.runAll stop commands line) count.toNat line
  | .program _, line => runTimes stop (.refused · .notCommand) count.toNat line

/-- Runs commands one after another; before each one it stops if it may and the line is done. -/
def Command.runAll (stop : Bool) : List Command → Line → Outcome
  | [], line => .ran line
  | c :: commands, line =>
    if stop && line.done then .ran line
    else
      match Command.run stop c line with
      | .ran line => Command.runAll stop commands line
      | .refused line fault => .refused line fault

end

/-- Runs a program on a line of text. -/
def Program.run (stop : Bool) (program : Program) (text : List Char) : Outcome :=
  Command.runAll stop program { text }

end LineEditor
