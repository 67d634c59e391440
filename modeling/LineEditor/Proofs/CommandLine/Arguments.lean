import LineEditor.CommandLine.Arguments

/-!
# Arguments of the usual form

A program is given by one of two options and its value, and file names may follow. As long as the
value and the names do not begin with a dash, each argument is what it looks like. The switch for
going on when a line is done may stand before, between and after these, and it sets nothing else;
but between two file names it keeps the second one from being taken.
-/

namespace LineEditor

/-- How a program is given in the arguments. -/
inductive Given where
  /-- As a text. -/
  | text (source : List Char)
  /-- By the name of a file. -/
  | file (name : List Char)

namespace Given

/-- The option. -/
def flag : Given → Flag
  | .text _ => .programText
  | .file _ => .programFile

/-- The value of the option. -/
def value : Given → List Char
  | .text source => source
  | .file name => name

/-- Where the program comes from. -/
def source : Given → Source
  | .text source => .text (.given source)
  | .file name => .file (.given name)

/-- The option by its letter, and its value. -/
def arguments : Given → List (List Char)
  | .text source => [['-', 'p'], source]
  | .file name => [['-', 'f'], name]

end Given

/-- The switch for going on when a line is done. -/
def ignoreDoneSwitch : List Char :=
  Flag.ignoreDone.longName.toList

/-- An argument that does not begin with a dash. -/
def IsUndashed (s : List Char) : Prop :=
  s.head? ≠ some '-'

instance : DecidablePred IsUndashed :=
  fun s => inferInstanceAs (Decidable (s.head? ≠ some '-'))

variable {s value : List Char} {names rest : List (List Char)} {a : Argument} {as : List Argument}
  {given : Given} {p : Progress}

/-! ## What each argument is -/

theorem IsUndashed.ne_dashes (h : IsUndashed s) : s ≠ ['-', '-'] := by
  rintro rfl
  exact h rfl

theorem IsUndashed.argument_eq (h : IsUndashed s) : Argument.of s = .ok (.plain s) := by
  unfold Argument.of
  split
  · exact absurd rfl h
  · exact absurd rfl h
  · rfl

theorem classify_nil : Argument.classify [] = .ok [] :=
  rfl

theorem classify_cons (hdashes : s ≠ ['-', '-']) (hs : Argument.of s = .ok a)
    (hrest : Argument.classify rest = .ok as) :
    Argument.classify (s :: rest) = .ok (a :: as) := by
  rw [Argument.classify, if_neg hdashes, hs, hrest]

theorem classify_undashed (h : ∀ name ∈ names, IsUndashed name)
    (hrest : Argument.classify rest = .ok as) :
    Argument.classify (names ++ rest) = .ok (names.map .plain ++ as) := by
  induction names with
  | nil => exact hrest
  | cons name names ih =>
    have hname : IsUndashed name := h name List.mem_cons_self
    have hothers := ih fun other hother => h other (List.mem_cons_of_mem name hother)
    exact classify_cons hname.ne_dashes hname.argument_eq hothers

theorem classify_given (h : IsUndashed given.value) (hrest : Argument.classify rest = .ok as) :
    Argument.classify (given.arguments ++ rest) =
      .ok (.option given.flag false none :: .plain given.value :: as) := by
  have hvalue := classify_cons h.ne_dashes h.argument_eq hrest
  cases given with
  | text => exact classify_cons (by decide) rfl hvalue
  | file => exact classify_cons (by decide) rfl hvalue

theorem classify_switch (hrest : Argument.classify rest = .ok as) :
    Argument.classify (ignoreDoneSwitch :: rest) =
      .ok (.option .ignoreDone true none :: as) :=
  classify_cons (by decide) rfl hrest

/-! ## What the arguments ask for -/

/-- File names taken one after another. -/
def Progress.takeFiles (names : List (List Char)) (p : Progress) : Progress :=
  names.foldl (fun p name => p.takeFile name) p

/-- Progress with the switch set. -/
def Progress.ignoring (p : Progress) : Progress :=
  { p with settings := { p.settings with ignoreDone := true } }

/-- Settings with the switch set, if a run is asked for. -/
def Request.ignoring : Request → Request
  | .run program settings => .run program { settings with ignoreDone := true }
  | request => request

theorem readArguments_undashed (names : List (List Char)) (p : Progress) :
    readArguments p (names.map .plain ++ as) = readArguments (p.takeFiles names) as := by
  induction names generalizing p with
  | nil => rfl
  | cons name names ih => exact ih (p.takeFile name)

theorem readArguments_given (h : IsUndashed given.value) (hp : p.program = none) :
    readArguments p (.option given.flag false none :: .plain given.value :: as) =
      readArguments { p.meetOption with program := some given.source } as := by
  have hp' : p.meetOption.program = none := hp
  cases given with
  | text source =>
    have hsource : Value.ofText source = .given source := if_neg h.ne_dashes
    rw [readArguments]
    simp [readOption, Given.flag, Given.value, Given.source, Flag.takesValue,
      Progress.applySwitches, Progress.applyValue, hp', hsource]
  | file name =>
    have hname : Value.ofText name = .given name := if_neg h.ne_dashes
    rw [readArguments]
    simp [readOption, Given.flag, Given.value, Given.source, Flag.takesValue,
      Progress.applySwitches, Progress.applyValue, hp', hname]

theorem readArguments_switch (p : Progress) :
    readArguments p (.option .ignoreDone true none :: as) =
      readArguments p.meetOption.ignoring as := by
  rw [readArguments]
  rfl

/-! ## Where the switch stands -/

theorem takeFile_ignoring (p : Progress) (s : List Char) :
    p.ignoring.takeFile s = (p.takeFile s).ignoring := by
  obtain ⟨program, settings, files, extras⟩ := p
  cases files <;> rfl

theorem takeFiles_ignoring (names : List (List Char)) (p : Progress) :
    p.ignoring.takeFiles names = (p.takeFiles names).ignoring := by
  induction names generalizing p with
  | nil => rfl
  | cons name names ih =>
    exact (congrArg (Progress.takeFiles names) (takeFile_ignoring p name)).trans (ih _)

theorem request_ignoring (p : Progress) :
    p.ignoring.request = p.request.map Request.ignoring := by
  obtain ⟨program, settings, files, extras⟩ := p
  cases program with
  | none => rfl
  | some program => cases extras <;> rfl

/-- What is asked for by a program and file names. -/
theorem ofArguments_given (h : IsUndashed given.value) (hnames : ∀ name ∈ names, IsUndashed name) :
    Request.ofArguments (given.arguments ++ names) =
      (Progress.takeFiles names { program := some given.source }).request := by
  have hclassify := classify_given h (classify_undashed hnames classify_nil)
  rw [List.append_nil] at hclassify
  rw [Request.ofArguments, hclassify]
  dsimp only
  rw [readArguments_given h rfl, readArguments_undashed, readArguments]
  rfl

/-- The places where the switch may stand. -/
inductive WithSwitch (given : Given) (names : List (List Char)) : List (List Char) → Prop where
  /-- Before the program. -/
  | first : WithSwitch given names (ignoreDoneSwitch :: (given.arguments ++ names))
  /-- Between the program and the file names. -/
  | between : WithSwitch given names (given.arguments ++ ignoreDoneSwitch :: names)
  /-- After the file names. -/
  | last : WithSwitch given names (given.arguments ++ (names ++ [ignoreDoneSwitch]))

/-- Wherever the switch stands, it is set, and the rest is asked for as without it. -/
theorem ofArguments_withSwitch {arguments : List (List Char)} (h : IsUndashed given.value)
    (hnames : ∀ name ∈ names, IsUndashed name) (hswitch : WithSwitch given names arguments) :
    Request.ofArguments arguments =
      (Request.ofArguments (given.arguments ++ names)).map Request.ignoring := by
  rw [ofArguments_given h hnames, ← request_ignoring, ← takeFiles_ignoring, Request.ofArguments]
  have hclassify := classify_undashed hnames classify_nil
  rw [List.append_nil] at hclassify
  cases hswitch with
  | first =>
    rw [classify_switch (classify_given h hclassify)]
    dsimp only
    rw [readArguments_switch, readArguments_given h rfl, readArguments_undashed, readArguments]
    rfl
  | between =>
    rw [classify_given h (classify_switch hclassify)]
    dsimp only
    rw [readArguments_given h rfl, readArguments_switch, readArguments_undashed, readArguments]
    rfl
  | last =>
    rw [classify_given h (classify_undashed hnames (classify_switch rfl))]
    dsimp only
    rw [readArguments_given h rfl, readArguments_undashed, readArguments_switch, readArguments,
      takeFiles_ignoring]
    rfl

/-- After the switch the second one of two file names is left over. -/
theorem ofArguments_switchInside {infile outfile : List Char} (h : IsUndashed given.value)
    (hin : IsUndashed infile) (hout : IsUndashed outfile) :
    Request.ofArguments (given.arguments ++ [infile, ignoreDoneSwitch, outfile]) =
      .error (.unrecognized [outfile]) := by
  have hsecond : Argument.classify [outfile] = .ok [.plain outfile] :=
    classify_cons hout.ne_dashes hout.argument_eq classify_nil
  have hfirst := classify_cons hin.ne_dashes hin.argument_eq (classify_switch hsecond)
  rw [Request.ofArguments, classify_given h hfirst]
  dsimp only
  rw [readArguments_given h rfl, readArguments, readArguments_switch, readArguments, readArguments]
  rfl

end LineEditor
