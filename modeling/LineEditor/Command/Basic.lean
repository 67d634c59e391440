/-!
# Commands

A program is a sequence of commands. The basic commands edit the line that is being worked on, move
about in it, or search it; a command can be repeated, and several can be put together in a block.

A hand-made command may hold what no program text does: a negative count, a search for a text that
is not one character long, or a whole program in the place of a command.
-/

namespace LineEditor

/-- The commands that are written as one word. -/
inductive Verb where
  /-- Move to the next character. -/
  | forward
  /-- Move to the character before. -/
  | back
  /-- Move to the end of a word. -/
  | forwardWord
  /-- Move to the start of a word. -/
  | backWord
  /-- Move to the start of the line. -/
  | home
  /-- Move past the last character. -/
  | lineEnd
  /-- Move to the last character. -/
  | last
  /-- Delete the character at the cursor. -/
  | delete
  /-- Delete the character before the cursor. -/
  | deleteBack
  /-- Swap the two characters around the cursor. -/
  | transposeChars
  /-- Put the character at the cursor in upper case. -/
  | upcaseChar
  /-- Put the character at the cursor in lower case. -/
  | downcaseChar
  /-- Copy the line. -/
  | copyLine
  /-- Delete to the end of a word. -/
  | killWord
  /-- Delete back to the start of a word. -/
  | killWordBack
  /-- Delete from the start to the end of a word. -/
  | killFullWord
  /-- Swap two neighbouring words. -/
  | transposeWords
  /-- Put a word in upper case. -/
  | upcaseWord
  /-- Put a word in lower case. -/
  | downcaseWord
  /-- Put the first character of a word in upper case. -/
  | capitalizeWord
  /-- Set the mark at the cursor. -/
  | mark
  /-- Put the region in upper case. -/
  | upcaseRegion
  /-- Put the region in lower case. -/
  | downcaseRegion
  /-- Move the start of the line, up to the character at the cursor, to its end. -/
  | transpose
  /-- Copy the region. -/
  | copy
  /-- Insert the text copied last. -/
  | paste
  /-- Copy the region and delete it. -/
  | cut
  /-- Put the text copied last in upper case. -/
  | upcaseClip
  /-- Put the text copied last in lower case. -/
  | downcaseClip
  /-- Put the first character of the text copied last in upper case. -/
  | capitalizeClip
  /-- Trim the text copied last at its start. -/
  | trimClipLeft
  /-- Trim the text copied last at its end. -/
  | trimClipRight
  /-- Trim the text copied last at both ends. -/
  | trimClip
  /-- Delete what follows the cursor and leave the mark alone. -/
  | kill
  /-- Delete what follows the cursor. -/
  | killLine
  /-- Delete what precedes the cursor. -/
  | killLineBack
  /-- Trim the line at both ends. -/
  | trimLine
  /-- Trim the line at its start. -/
  | trimLineLeft
  /-- Trim the line at its end. -/
  | trimLineRight
  /-- Put the line in upper case. -/
  | upcaseLine
  /-- Put the line in lower case. -/
  | downcaseLine
  /-- Be done with the line. -/
  | nextLine
deriving Repr, DecidableEq

/-- The basic commands. -/
inductive Edit where
  /-- A command of one word. -/
  | plain (verb : Verb)
  /-- Move to a column, counted from nought. -/
  | goto (column : Int)
  /-- Insert a text at the cursor. -/
  | insert (text : List Char)
  /-- Delete so many characters at the end of the line. -/
  | truncateBy (amount : Int)
  /-- Move forward to a character. -/
  | find (target : List Char)
  /-- Move back to a character. -/
  | findBack (target : List Char)
  /-- Replace characters by others; of two pairs for one character the later counts. -/
  | translate (pairs : List (Char × Char))
deriving Repr, DecidableEq

/-- A command. -/
inductive Command where
  /-- A basic command. -/
  | edit (e : Edit)
  /-- A command, so many times over. -/
  | times (count : Int) (body : Command)
  /-- Commands, one after another. -/
  | block (commands : List Command)
  /-- A program where a command belongs, which cannot be run. -/
  | program (commands : List Command)
deriving Repr

/-- A program: its commands in order. -/
abbrev Program := List Command

/-! ## Equality of commands -/

mutual

/-- Decides whether two commands are equal. -/
def Command.decEq : (a b : Command) → Decidable (a = b)
  | .edit a, .edit b => decidable_of_iff (a = b) (by simp)
  | .times m a, .times n b =>
    have := Command.decEq a b
    decidable_of_iff (m = n ∧ a = b) (by simp)
  | .block a, .block b =>
    have := Command.decEqList a b
    decidable_of_iff (a = b) (by simp)
  | .program a, .program b =>
    have := Command.decEqList a b
    decidable_of_iff (a = b) (by simp)
  | .edit _, .times .. | .edit _, .block _ | .edit _, .program _
  | .times .., .edit _ | .times .., .block _ | .times .., .program _
  | .block _, .edit _ | .block _, .times .. | .block _, .program _
  | .program _, .edit _ | .program _, .times .. | .program _, .block _ => isFalse (by simp)

/-- Decides whether two lists of commands are equal. -/
def Command.decEqList : (a b : List Command) → Decidable (a = b)
  | [], [] => isTrue rfl
  | a :: as, b :: bs =>
    have := Command.decEq a b
    have := Command.decEqList as bs
    decidable_of_iff (a = b ∧ as = bs) (by simp)
  | [], _ :: _ | _ :: _, [] => isFalse (by simp)

end

instance : DecidableEq Command := Command.decEq

end LineEditor
