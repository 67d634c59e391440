import LineEditor.Command.Basic

/-!
# Shapes of commands

Commands that are made of certain basic commands only, and commands whose counts are not negative.
Either says something about every node of a command, also about those that are never run.
-/

namespace LineEditor

/-- A command is built from basic commands with a property, by repeating them and by putting them in
blocks, to any depth. No program stands in the place of a command. -/
inductive Command.BuiltFrom (p : Edit → Prop) : Command → Prop where
  /-- A basic command with the property. -/
  | edit {e : Edit} (he : p e) : BuiltFrom p (.edit e)
  /-- A repetition, by any count. -/
  | times {count : Int} {body : Command} (hbody : BuiltFrom p body) :
      BuiltFrom p (.times count body)
  /-- A block. -/
  | block {commands : List Command} (hcommands : ∀ c ∈ commands, BuiltFrom p c) :
      BuiltFrom p (.block commands)

namespace Command

variable {p : Edit → Prop}

@[simp] theorem builtFrom_edit {e : Edit} : (edit e).BuiltFrom p ↔ p e :=
  ⟨fun h => by cases h with | edit he => exact he, .edit⟩

@[simp] theorem builtFrom_times {count : Int} {body : Command} :
    (times count body).BuiltFrom p ↔ body.BuiltFrom p :=
  ⟨fun h => by cases h with | times hbody => exact hbody, .times⟩

@[simp] theorem builtFrom_block {commands : List Command} :
    (block commands).BuiltFrom p ↔ ∀ c ∈ commands, c.BuiltFrom p :=
  ⟨fun h => by cases h with | block hcommands => exact hcommands, .block⟩

end Command

/-- A command can be run as far as its nodes go: none of them is a program. -/
def Command.Supported (c : Command) : Prop :=
  c.BuiltFrom fun _ => True

/-- No count in a command is negative. -/
inductive Command.Counted : Command → Prop where
  /-- A basic command has no count. -/
  | edit {e : Edit} : Counted (.edit e)
  /-- A repetition by a count that is not negative. -/
  | times {count : Int} {body : Command} (hcount : 0 ≤ count) (hbody : Counted body) :
      Counted (.times count body)
  /-- A block. -/
  | block {commands : List Command} (hcommands : ∀ c ∈ commands, Counted c) :
      Counted (.block commands)
  /-- A program in the place of a command is never looked into. -/
  | program {commands : List Command} : Counted (.program commands)

mutual

/-- The basic commands that occur in a command, also those that are never run. A program in the
place of a command is never looked into. -/
def Command.edits : Command → List Edit
  | .edit e => [e]
  | .times _ body => Command.edits body
  | .block commands => Command.editsAll commands
  | .program _ => []

/-- The basic commands that occur in commands. -/
def Command.editsAll : List Command → List Edit
  | [] => []
  | c :: commands => Command.edits c ++ Command.editsAll commands

end

end LineEditor
