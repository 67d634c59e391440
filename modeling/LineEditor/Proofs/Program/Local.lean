import LineEditor.Program.Run
import LineEditor.Proofs.Line.Local

/-!
# Local commands

A basic command is local if its operation is: it looks at nothing but the text and the cursor. The
others look at the mark or the clips, or have to do with whether the line is done.
-/

namespace LineEditor

/-- A command of one word looks at nothing but the text and the cursor. -/
def Verb.IsLocal : Verb → Prop
  | .mark | .upcaseRegion | .downcaseRegion | .copy | .copyLine | .cut | .paste
  | .upcaseClip | .downcaseClip | .capitalizeClip | .trimClipLeft | .trimClipRight | .trimClip
  | .nextLine => False
  | _ => True

theorem Verb.local_run {v : Verb} (hv : v.IsLocal) : Line.Local v.run := by
  cases v with
  | mark | upcaseRegion | downcaseRegion | copy | copyLine | cut | paste | nextLine =>
    exact absurd hv id
  | upcaseClip | downcaseClip | capitalizeClip | trimClipLeft | trimClipRight | trimClip =>
    exact absurd hv id
  | deleteBack => exact Line.local_deleteBack
  | transposeChars => exact Line.local_transposeChars
  | transposeWords => exact Line.local_transposeWords
  | upcaseChar | downcaseChar => exact Line.local_modifyChar _
  | capitalizeWord => exact Line.local_capitalizeWord
  | _ => exact fun _ => rfl

theorem Verb.clips_run_of_isLocal {v : Verb} (hv : v.IsLocal) (line : Line) :
    (v.run line).clips = line.clips :=
  (local_run hv).clips_eq line

theorem Verb.done_run_of_isLocal {v : Verb} (hv : v.IsLocal) (line : Line) :
    (v.run line).done = line.done :=
  (local_run hv).done_eq line

end LineEditor
