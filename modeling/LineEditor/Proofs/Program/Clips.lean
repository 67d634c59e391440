import LineEditor.Proofs.Program.InBounds
import LineEditor.Proofs.Program.Local

/-!
# The stack of clips

A command that copies puts a text on the stack of clips, and a command on the text copied last puts
another one in its place. Nothing else touches the stack: no command takes an entry away or reaches
below the top. So a run adds as many entries as it executes commands that copy, and an entry that
has once been below the top stays as it is.
-/

namespace LineEditor

/-- Whether a basic command copies a text. -/
def Edit.copies : Edit → Bool
  | .plain .copy | .plain .copyLine | .plain .cut => true
  | _ => false

/-- Whether a basic command changes the text copied last. -/
def Edit.changesClip : Edit → Bool
  | .plain .upcaseClip | .plain .downcaseClip | .plain .capitalizeClip
  | .plain .trimClipLeft | .plain .trimClipRight | .plain .trimClip => true
  | _ => false

/-- Whether a leaf copies a text. -/
def Leaf.copies : Leaf → Bool
  | .edit e => e.copies
  | .program => false

/-- What a basic command may do to the clips when it makes one line of another. -/
inductive Edit.StackStep (e : Edit) (line next : Line) : Prop where
  /-- A command that copies adds one entry and keeps all others. -/
  | added {s : List Char} (he : e.copies = true) (hnext : next.clips = s :: line.clips)
  /-- A command on the text copied last puts another one in its place, and does nothing else. -/
  | replaced {top new : List Char} {below : List (List Char)} (he : e.changesClip = true)
      (hline : line.clips = top :: below) (hnext : next = { line with clips := new :: below })
  /-- Where nothing has been copied, such a command does nothing. -/
  | idle (he : e.changesClip = true) (hline : line.clips = []) (hnext : next = line)
  /-- Every other command keeps the stack. -/
  | kept (hcopies : e.copies = false) (hchanges : e.changesClip = false)
      (hnext : next.clips = line.clips)

variable {line next : Line} {e : Edit}

/-! ## One basic command -/

theorem Verb.clips_run {v : Verb} (hcopies : (Edit.plain v).copies = false)
    (hchanges : (Edit.plain v).changesClip = false) (line : Line) :
    (v.run line).clips = line.clips := by
  cases v with
  | copy | copyLine | cut => cases hcopies
  | upcaseClip | downcaseClip | capitalizeClip | trimClipLeft | trimClipRight | trimClip =>
    cases hchanges
  | paste =>
    simp only [run, Line.paste]
    split <;> rfl
  | mark | upcaseRegion | downcaseRegion | nextLine => rfl
  | _ => exact clips_run_of_isLocal (by trivial) line

theorem Edit.StackStep.length_eq (h : e.StackStep line next) :
    next.clips.length = line.clips.length + if e.copies then 1 else 0 := by
  -- No command both copies and changes the text copied last.
  have hchanges : e.changesClip = true → e.copies = false := by
    intro he
    unfold changesClip at he
    split at he <;> first | rfl | cases he
  cases h with
  | added he hnext => rw [hnext, he]; rfl
  | replaced he hline hnext => rw [hnext, hline, hchanges he]; rfl
  | idle he _ hnext => rw [hnext, hchanges he]; rfl
  | kept hcopies _ hnext => rw [hnext, hcopies]; rfl

end LineEditor
