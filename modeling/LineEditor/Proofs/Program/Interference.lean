import LineEditor.Proofs.Command.Shape
import LineEditor.Proofs.Program.Local
import LineEditor.Proofs.Program.Sequence

/-!
# What does not interfere

The clips come into the text by being pasted only, the mark is looked at by the commands on the
region only, and whether the line is done matters only to a run that stops then. So two runs from
lines that differ in one of these agree on all the rest.

A view shows a part of a line. What runs is blind to what a view hides if from any two lines that
look the same it does the same, to lines that look the same.
-/

namespace LineEditor

/-- What comes of a run, as a view shows it. -/
def Outcome.map (view : Line → Line) : Outcome → Outcome
  | .ran line => .ran (view line)
  | .refused line fault => .refused (view line) fault

/-- What runs does not tell apart lines that look the same in a view, and leaves such lines. -/
def Blind (view : Line → Line) (run : Line → Outcome) : Prop :=
  ∀ a b, view a = view b → (run a).map view = (run b).map view

section

variable {view : Line → Line} {stop : Bool} {run body next : Line → Outcome}

/-! ## From basic commands to whole commands -/

theorem Blind.andThen_eq (hnext : Blind view next) {first second : Outcome}
    (h : first.map view = second.map view) :
    (first.andThen next).map view = (second.andThen next).map view := by
  cases first with
  | ran a => cases second with
    | ran b => exact hnext a b (Outcome.ran.inj h)
    | refused b fault => cases h
  | refused a fault => cases second with
    | ran b => cases h
    | refused b other =>
      obtain ⟨hview, hfault⟩ := Outcome.refused.inj h
      rw [hfault]
      exact congrArg (Outcome.refused · other) hview

/-- A step of a run that stops when the line is done, and goes on otherwise. -/
theorem Blind.step (hdone : stop = true → ∀ line, (view line).done = line.done)
    (hrun : ∀ line : Line, (stop && line.done) = true → run line = .ran line)
    (hgoing : ∀ line : Line, ¬ (stop && line.done) = true → run line = (body line).andThen next)
    (hbody : Blind view body) (hnext : Blind view next) : Blind view run := by
  intro a b hab
  have hsame : (stop && a.done) = (stop && b.done) := by
    cases stop with
    | false => rfl
    | true => rw [← hdone rfl a, ← hdone rfl b, hab]
  by_cases ha : (stop && a.done) = true
  · have hb : (stop && b.done) = true := hsame.symm.trans ha
    rw [hrun a ha, hrun b hb]
    exact congrArg Outcome.ran hab
  · have hb : ¬ (stop && b.done) = true := fun hb => ha (hsame.trans hb)
    rw [hgoing a ha, hgoing b hb]
    exact hnext.andThen_eq (hbody a b hab)

theorem blind_ran : Blind view .ran :=
  fun _ _ hab => congrArg Outcome.ran hab

theorem blind_refused (fault : Fault) : Blind view (.refused · fault) :=
  fun _ _ hab => congrArg (Outcome.refused · fault) hab

theorem blind_runTimes (hdone : stop = true → ∀ line, (view line).done = line.done)
    (hbody : Blind view body) (n : Nat) : Blind view (runTimes stop body n) := by
  induction n with
  | zero => exact blind_ran
  | succ n ih =>
    exact Blind.step hdone (fun line h => runTimes_of_done h body (n + 1))
      (fun line h => runTimes_succ h body n) hbody ih

mutual

/-- A command is blind to what its basic commands are blind to, if whether to stop can be seen. -/
theorem blind_run (hdone : stop = true → ∀ line, (view line).done = line.done) :
    ∀ c : Command, (∀ e ∈ c.edits, Blind view e.attempt) → Blind view (c.run stop)
  | .edit e, hedits => by
    intro a b hab
    rw [Command.run, Command.run]
    exact hedits e (by simp [Command.edits]) a b hab
  | .times count body, hedits => by
    intro a b hab
    rw [Command.run, Command.run]
    rw [Command.edits] at hedits
    exact blind_runRepeated hdone count body hedits a b hab
  | .block commands, hedits => by
    intro a b hab
    rw [Command.run, Command.run]
    rw [Command.edits] at hedits
    exact blind_runAll hdone commands hedits a b hab
  | .program _, _ => by
    intro a b hab
    rw [Command.run, Command.run]
    exact blind_refused .notCommand a b hab

theorem blind_runRepeated (hdone : stop = true → ∀ line, (view line).done = line.done) :
    ∀ (count : Int) (c : Command), (∀ e ∈ c.edits, Blind view e.attempt) →
      Blind view (c.runRepeated stop count)
  | count, .edit e, hedits => by
    intro a b hab
    rw [Command.runRepeated, Command.runRepeated]
    exact blind_runTimes hdone (hedits e (by simp [Command.edits])) _ a b hab
  | count, .times n body, hedits => by
    intro a b hab
    rw [Command.runRepeated, Command.runRepeated]
    rw [Command.edits] at hedits
    exact blind_runRepeated hdone (count * n) body hedits a b hab
  | count, .block commands, hedits => by
    intro a b hab
    rw [Command.runRepeated, Command.runRepeated]
    rw [Command.edits] at hedits
    exact blind_runTimes hdone (blind_runAll hdone commands hedits) _ a b hab
  | count, .program _, _ => by
    intro a b hab
    rw [Command.runRepeated, Command.runRepeated]
    exact blind_runTimes hdone (blind_refused .notCommand) _ a b hab

theorem blind_runAll (hdone : stop = true → ∀ line, (view line).done = line.done) :
    ∀ commands : List Command, (∀ e ∈ Command.editsAll commands, Blind view e.attempt) →
      Blind view (Command.runAll stop commands)
  | [], _ => by
    intro a b hab
    rw [runAll_nil, runAll_nil]
    exact blind_ran a b hab
  | c :: commands, hedits => by
    have hfirst : ∀ e ∈ c.edits, Blind view e.attempt := by
      intro e he
      exact hedits e (by rw [Command.editsAll]; exact List.mem_append_left _ he)
    have hothers : ∀ e ∈ Command.editsAll commands, Blind view e.attempt := by
      intro e he
      exact hedits e (by rw [Command.editsAll]; exact List.mem_append_right _ he)
    exact Blind.step hdone (fun line h => runAll_of_done h (c :: commands))
      (fun line h => runAll_cons h c commands) (blind_run hdone c hfirst)
      (blind_runAll hdone commands hothers)

end

end

/-! ## Basic commands -/

/-- Whether a basic command can be run is told by text and cursor. -/
theorem Edit.fault?_congr (e : Edit) {a b : Line} (htext : a.text = b.text)
    (hcursor : a.cursor = b.cursor) : e.fault? a = e.fault? b := by
  have hlength : a.length = b.length := congrArg List.length htext
  have hbefore : a.isBefore = b.isBefore := by
    unfold Line.isBefore
    rw [hlength, hcursor]
  have hpast : a.isPast = b.isPast := by
    unfold Line.isPast
    rw [hlength, hcursor]
  unfold fault? Verb.fault?
  rw [hbefore, hpast, hlength, hcursor]

/-- A basic command is blind to what a view hides if the view shows text and cursor, and after the
command shows the same whether it hides that before or not. -/
theorem Edit.blind_attempt (view : Line → Line) (htext : ∀ line, (view line).text = line.text)
    (hcursor : ∀ line, (view line).cursor = line.cursor) {e : Edit}
    (hrun : ∀ line, view (e.run (view line)) = view (e.run line)) : Blind view e.attempt := by
  intro a b hab
  have htexts : a.text = b.text := by rw [← htext a, ← htext b, hab]
  have hcursors : a.cursor = b.cursor := by rw [← hcursor a, ← hcursor b, hab]
  have hruns : view (e.run a) = view (e.run b) := by rw [← hrun a, ← hrun b, hab]
  unfold attempt
  rw [e.fault?_congr htexts hcursors]
  cases e.fault? b with
  | none => exact congrArg Outcome.ran hruns
  | some fault => exact congrArg (Outcome.refused · fault) hab

namespace Line

/-- A line without its clips. -/
def withoutClips (line : Line) : Line :=
  { line with clips := [] }

/-- A line without its mark. -/
def withoutMark (line : Line) : Line :=
  { line with mark := none }

/-- A line that is not done. -/
def withoutDone (line : Line) : Line :=
  { line with done := false }

variable {op : Line → Line}

theorem Local.withoutClips (h : Local op) (line : Line) :
    (op line.withoutClips).withoutClips = (op line).withoutClips := by
  rw [h line.withoutClips, h line]
  rfl

theorem Local.withoutMark (h : Local op) (line : Line) :
    (op line.withoutMark).withoutMark = (op line).withoutMark := by
  rw [h line.withoutMark, h line]
  rfl

theorem Local.withoutDone (h : Local op) (line : Line) :
    (op line.withoutDone).withoutDone = (op line).withoutDone := by
  rw [h line.withoutDone, h line]
  rfl

end Line

/-- Only pasting brings the clips into the rest of the line. -/
theorem Edit.withoutClips_run {e : Edit} (he : e ≠ .plain .paste) (line : Line) :
    (e.run line.withoutClips).withoutClips = (e.run line).withoutClips := by
  cases e with
  | goto | insert | truncateBy | find | findBack | translate => rfl
  | plain v => cases v with
    | paste => exact absurd rfl he
    | mark | upcaseRegion | downcaseRegion | copy | copyLine | cut | nextLine => rfl
    | upcaseClip | downcaseClip | capitalizeClip | trimClipLeft | trimClipRight | trimClip =>
      obtain ⟨text, cursor, mark, clips, done⟩ := line
      cases clips <;> rfl
    | _ => exact Line.Local.withoutClips (Verb.local_run (by trivial)) line

/-- Only the commands on the region bring the mark into the rest of the line. -/
theorem Edit.withoutMark_run {e : Edit} (hcopy : e ≠ .plain .copy) (hcut : e ≠ .plain .cut)
    (hupcase : e ≠ .plain .upcaseRegion) (hdowncase : e ≠ .plain .downcaseRegion) (line : Line) :
    (e.run line.withoutMark).withoutMark = (e.run line).withoutMark := by
  cases e with
  | goto | insert | truncateBy | find | findBack | translate => rfl
  | plain v => cases v with
    | copy => exact absurd rfl hcopy
    | cut => exact absurd rfl hcut
    | upcaseRegion => exact absurd rfl hupcase
    | downcaseRegion => exact absurd rfl hdowncase
    | mark | copyLine | nextLine => rfl
    | paste | upcaseClip | downcaseClip | capitalizeClip | trimClipLeft | trimClipRight
    | trimClip =>
      obtain ⟨text, cursor, mark, clips, done⟩ := line
      cases clips <;> rfl
    | _ => exact Line.Local.withoutMark (Verb.local_run (by trivial)) line

/-- No basic command lets whether the line is done come into the rest of the line. -/
theorem Edit.withoutDone_run (e : Edit) (line : Line) :
    (e.run line.withoutDone).withoutDone = (e.run line).withoutDone := by
  cases e with
  | goto | insert | truncateBy | find | findBack | translate => rfl
  | plain v => cases v with
    | mark | upcaseRegion | downcaseRegion | copy | copyLine | cut | nextLine => rfl
    | paste | upcaseClip | downcaseClip | capitalizeClip | trimClipLeft | trimClipRight
    | trimClip =>
      obtain ⟨text, cursor, mark, clips, done⟩ := line
      cases clips <;> rfl
    | _ => exact Line.Local.withoutDone (Verb.local_run (by trivial)) line

/-! ## Two runs -/

/-- Run on two lines that differ in their clips at most, a command without pasting ends in the same
way, and on lines that differ in their clips at most. So does a command without copying, cutting or
changing the region, with the marks in place of the clips, and every command that does not stop,
with whether the lines are done. -/
theorem hidden_parts_do_not_interfere (c : Command) (a b : Line) :
    (.plain .paste ∉ c.edits → a.withoutClips = b.withoutClips →
      ∀ stop, (c.run stop a).map Line.withoutClips = (c.run stop b).map Line.withoutClips) ∧
    (.plain .copy ∉ c.edits → .plain .cut ∉ c.edits → .plain .upcaseRegion ∉ c.edits →
      .plain .downcaseRegion ∉ c.edits → a.withoutMark = b.withoutMark →
      ∀ stop, (c.run stop a).map Line.withoutMark = (c.run stop b).map Line.withoutMark) ∧
    (a.withoutDone = b.withoutDone →
      (c.run false a).map Line.withoutDone = (c.run false b).map Line.withoutDone) := by
  refine ⟨?_, ?_, ?_⟩
  · intro hpaste hab stop
    have hblind : Blind Line.withoutClips (c.run stop) := by
      refine blind_run ?_ c fun e he => ?_
      · exact fun _ _ => rfl
      have hne : e ≠ .plain .paste := by
        rintro rfl
        exact hpaste he
      exact Edit.blind_attempt Line.withoutClips (fun _ => rfl) (fun _ => rfl)
        (Edit.withoutClips_run hne)
    exact hblind a b hab
  · intro hcopy hcut hupcase hdowncase hab stop
    have hblind : Blind Line.withoutMark (c.run stop) := by
      refine blind_run ?_ c fun e he => ?_
      · exact fun _ _ => rfl
      have hne : ∀ {other : Edit}, other ∉ c.edits → e ≠ other := by
        rintro other hother rfl
        exact hother he
      exact Edit.blind_attempt Line.withoutMark (fun _ => rfl) (fun _ => rfl)
        (Edit.withoutMark_run (hne hcopy) (hne hcut) (hne hupcase) (hne hdowncase))
    exact hblind a b hab
  · intro hab
    have hblind : Blind Line.withoutDone (c.run false) := by
      refine blind_run (fun hstop => absurd hstop (by decide)) c fun e _ => ?_
      exact Edit.blind_attempt Line.withoutDone (fun _ => rfl) (fun _ => rfl)
        (Edit.withoutDone_run e)
    exact hblind a b hab

/-- Two rounds of copying the line, capitalising the copy, deleting a word and searching do the same
to the rest of a line whether it has a clip, whether it has a mark past its end, and, not stopping,
whether it is done. -/
theorem hidden_parts_do_not_interfere_twice :
    let c : Command := .times 2 (.block [.edit (.plain .copyLine), .edit (.plain .capitalizeClip),
      .edit (.plain .killWord), .edit (.find ['d'])])
    let line : Line := { text := ['a', ' ', 'c', ' ', 'd'] }
    .plain .paste ∉ c.edits ∧ .plain .copy ∉ c.edits ∧ .plain .cut ∉ c.edits ∧
      .plain .upcaseRegion ∉ c.edits ∧ .plain .downcaseRegion ∉ c.edits ∧
    (c.run true { line with clips := [['z']] }).map Line.withoutClips =
      (c.run true line).map Line.withoutClips ∧
    (c.run true { line with mark := some 9 }).map Line.withoutMark =
      (c.run true line).map Line.withoutMark ∧
    (c.run false { line with done := true }).map Line.withoutDone =
      (c.run false line).map Line.withoutDone := by
  intro c line
  have hpaste : .plain .paste ∉ c.edits := by decide
  have hcopy : .plain .copy ∉ c.edits := by decide
  have hcut : .plain .cut ∉ c.edits := by decide
  have hupcase : .plain .upcaseRegion ∉ c.edits := by decide
  have hdowncase : .plain .downcaseRegion ∉ c.edits := by decide
  refine ⟨hpaste, hcopy, hcut, hupcase, hdowncase, ?_, ?_, ?_⟩
  · exact (hidden_parts_do_not_interfere c { line with clips := [['z']] } line).1 hpaste rfl true
  · exact (hidden_parts_do_not_interfere c { line with mark := some 9 } line).2.1 hcopy hcut
      hupcase hdowncase rfl true
  · exact (hidden_parts_do_not_interfere c { line with done := true } line).2.2 rfl

end LineEditor
