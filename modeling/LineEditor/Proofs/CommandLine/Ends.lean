import LineEditor.Proofs.CommandLine.Routes
import LineEditor.Proofs.CommandLine.Spares
import LineEditor.Proofs.Text.Decoding

/-!
# How runs end

Once the program text is compiled, the files are opened, and an error in that is reported and ends
the run with a status. Then the input is read and decoded while results are written, and nothing
that goes wrong there is reported: on an input that is not UTF-8 the run breaks off, and what it has
written by then stays.
-/

namespace LineEditor

open Text.Utf8 (encode decodeChunks isUtf8_of_decodeChunks)

/-! ## Opening the files -/

/-- A path that the settings name holds the null character, or both files are named and a link that
leads round in a circle keeps them from being compared. -/
def Settings.Unresolvable (settings : Settings) (files : FileTree) : Prop :=
  (∃ path, (settings.infile = some path ∨ settings.outfile = some path) ∧ holdsNull path = true) ∨
    ∃ infile outfile, settings.infile = some infile ∧ settings.outfile = some outfile ∧
      (files.hasCircle (files.locate infile) = true ∨ files.hasCircle (files.locate outfile) = true)

/-- If both files are named, they are not the same. -/
def Settings.Distinct (settings : Settings) (files : FileTree) : Prop :=
  ∀ infile outfile, settings.infile = some infile → settings.outfile = some outfile →
    files.locate infile ≠ files.locate outfile

/-- The settings name no file twice, the input can be opened and has the given bytes, and the output
can be opened and goes to a file at the given place or to the standard output. -/
structure Invocation.Opens (invocation : Invocation) (settings : Settings) (bytes : List UInt8)
    (place : Option Place) : Prop where
  distinct : settings.Distinct invocation.files
  input : openInput invocation settings.infile = .ok bytes
  output : openOutput invocation.files settings.outfile = .ok place

/-- All that a run has written is a text: the file at a place, or on the standard output. -/
def Result.Wrote (files : FileTree) (place : Option Place) (text : List Char) (result : Result) :
    Prop :=
  match place with
  | none => result.output = text ∧ result.files = files
  | some place => result.output = [] ∧ result.files = files.put place (encode text)

/-- A path is why a run breaks off: what it leads to cannot be told. -/
def Crash.AboutPath (reason : Crash) : Prop :=
  reason = .nullInPath ∨ ∃ place, reason = .circle place

/-- The ways in which a run of a compiled program ends. -/
inductive Invocation.Ended (invocation : Invocation) (settings : Settings)
    (compiled : Compiled) : Prop where
  /-- What the paths lead to cannot be told. The run has broken off and opened nothing. -/
  | unresolved {reason : Crash} (h : settings.Unresolvable invocation.files)
      (hreason : reason.AboutPath)
      (hexit : invocation.run.1.exit = .crash reason)
      (hwritten : invocation.run.1.Wrote invocation.files none [])
  /-- The files are not opened. The run says why, and has written nothing. -/
  | refused {before message : String} (h : ¬ settings.Unresolvable invocation.files)
      (hopens : ∀ bytes place, ¬ invocation.Opens settings bytes place)
      (hexit : invocation.run.1.exit = .status 1)
      (hwritten : invocation.run.1.Wrote invocation.files none [])
      (hmessage : invocation.run.2 = before ++ s!"error: {message}\n")
  /-- The input is a text, and has been processed. -/
  | processed {text : List Char} {place : Option Place}
      (h : ¬ settings.Unresolvable invocation.files)
      (hopens : invocation.Opens settings (encode text) place)
      (hexit : invocation.run.1.exit = .status 0)
      (hwritten : invocation.run.1.Wrote invocation.files place
        (compiled.outputOf (invocation.endings settings.infile) text))
  /-- The input is no text. The run has broken off, after the lines that it has read. -/
  | undecodable {bytes : List UInt8} {place : Option Place} {error : Text.Utf8.DecodeError}
      (h : ¬ settings.Unresolvable invocation.files)
      (hopens : invocation.Opens settings bytes place) (hbytes : ∀ text, bytes ≠ encode text)
      (hexit : invocation.run.1.exit = .crash (.undecodable error))
      (hwritten : invocation.run.1.Wrote invocation.files place
        (joinLines (compiled.transform
          (inputLines (invocation.endings settings.infile) bytes).1)))

variable {invocation : Invocation} {settings : Settings} {compiled : Compiled}
  {bytes : List UInt8} {place : Option Place} {notices : List Notice}
  {endings : Text.LineEndings}

/-! ## Reading the input -/

/-- An input that is read to its end is a text. -/
theorem exists_text_of_inputLines (h : (inputLines endings bytes).2 = none) :
    ∃ text, bytes = encode text := by
  unfold inputLines at h
  split at h
  · rename_i text hdecode
    have hutf8 := isUtf8_of_decodeChunks hdecode
    rw [List.nil_append, flatten_chunks] at hutf8
    exact ⟨text, hutf8.eq_encode⟩
  · cases h

/-- Reading an input that is no text ends with an error. -/
theorem exists_error_of_inputLines (h : ∀ text, bytes ≠ encode text) :
    ∃ error, (inputLines endings bytes).2 = some error := by
  cases herror : (inputLines endings bytes).2 with
  | some error => exact ⟨error, rfl⟩
  | none =>
    obtain ⟨text, htext⟩ := exists_text_of_inputLines herror
    exact absurd htext (h text)

/-- Processing an input that is no text breaks off. -/
theorem process_of_error {error : Text.Utf8.DecodeError}
    (h : (inputLines endings bytes).2 = some error) (compiled : Compiled) (place : Option Place)
    (files : FileTree) :
    (process compiled endings bytes place files).exit = .crash (.undecodable error) ∧
      (process compiled endings bytes place files).Wrote files place
        (joinLines (compiled.transform (inputLines endings bytes).1)) := by
  unfold process
  generalize inputLines endings bytes = input at h ⊢
  obtain ⟨lines, found⟩ := input
  obtain rfl : found = some error := h
  cases place with
  | none => exact ⟨rfl, rfl, rfl⟩
  | some place => exact ⟨rfl, rfl, rfl⟩

theorem process_of_text (compiled : Compiled) (endings : Text.LineEndings) (text : List Char)
    (place : Option Place) (files : FileTree) :
    (process compiled endings (encode text) place files).exit = .status 0 ∧
      (process compiled endings (encode text) place files).Wrote files place
        (compiled.outputOf endings text) := by
  obtain ⟨⟨_, hinput⟩, hfile⟩ := process_encode compiled endings text files
  cases place with
  | none =>
    rw [hinput]
    exact ⟨rfl, rfl, rfl⟩
  | some place =>
    obtain ⟨_, hfile⟩ := hfile place
    rw [hfile]
    exact ⟨rfl, rfl, rfl⟩

/-! ## Messages -/

/-- The message of a failure is shown last, whatever the threshold. -/
theorem shown_failure (threshold : Nat) (files : FileTree) (notices : List Notice)
    (message : String) :
    Notice.shown threshold (Result.failure files notices message).notices =
      Notice.shown threshold notices ++ s!"error: {message}\n" := by
  unfold Notice.shown Result.failure
  rw [List.map_append, String.join_append]
  rfl

/-! ## Resolving paths -/

theorem resolve_eq_ok {files : FileTree} {path : List Char} {located : Place}
    (h : resolve files path = .ok located) :
    holdsNull path = false ∧ files.hasCircle (files.locate path) = false := by
  unfold resolve at h
  dsimp only at h
  split at h
  · cases h
  · rename_i hnull
    split at h
    · cases h
    · rename_i hcircle
      exact ⟨Bool.eq_false_iff.2 hnull, Bool.eq_false_iff.2 hcircle⟩

theorem resolve_eq_error {files : FileTree} {path : List Char} {reason : Crash}
    (h : resolve files path = .error reason) :
    reason.AboutPath ∧ (holdsNull path = true ∨ files.hasCircle (files.locate path) = true) := by
  unfold resolve at h
  dsimp only at h
  split at h
  · rename_i hnull
    cases h
    exact ⟨Or.inl rfl, Or.inl hnull⟩
  · split at h
    · rename_i hcircle
      cases h
      exact ⟨Or.inr ⟨_, rfl⟩, Or.inr hcircle⟩
    · cases h

theorem exists_of_nullNamed {file : Option (List Char)} (h : nullNamed file = true) :
    ∃ path, file = some path ∧ holdsNull path = true := by
  cases file with
  | none => cases h
  | some path => exact ⟨path, rfl, h⟩

/-- If both files are named, their paths have been resolved. -/
def Settings.Resolved (settings : Settings) (files : FileTree) : Prop :=
  ∀ infile outfile, settings.infile = some infile → settings.outfile = some outfile →
    (∃ input, resolve files infile = .ok input) ∧ ∃ output, resolve files outfile = .ok output

namespace Settings.Resolved

variable {files : FileTree}

/-- After that only the null character in the path of a single file is left. -/
theorem unresolvable_iff (h : settings.Resolved files) :
    settings.Unresolvable files ↔
      nullNamed settings.infile = true ∨ nullNamed settings.outfile = true := by
  constructor
  · rintro (⟨path, hin | hout, hnull⟩ | ⟨infile, outfile, hin, hout, hcircle⟩)
    · rw [hin]
      exact Or.inl hnull
    · rw [hout]
      exact Or.inr hnull
    · obtain ⟨⟨input, hinput⟩, output, houtput⟩ := h infile outfile hin hout
      rw [(resolve_eq_ok hinput).2, (resolve_eq_ok houtput).2] at hcircle
      simp at hcircle
  · rintro (hnull | hnull)
    · obtain ⟨path, hin, hpath⟩ := exists_of_nullNamed hnull
      exact Or.inl ⟨path, Or.inl hin, hpath⟩
    · obtain ⟨path, hout, hpath⟩ := exists_of_nullNamed hnull
      exact Or.inl ⟨path, Or.inr hout, hpath⟩

theorem nullNamed_outfile {infile : List Char} (h : settings.Resolved files)
    (hin : settings.infile = some infile) : nullNamed settings.outfile = false := by
  cases hout : settings.outfile with
  | none => rfl
  | some outfile =>
    obtain ⟨-, output, houtput⟩ := h infile outfile hin hout
    exact (resolve_eq_ok houtput).1

end Settings.Resolved

/-! ## Runs of a compiled program -/

/-- A run goes on in one of three ways: it breaks off at a path, it fails as the files cannot be
opened, or it opens them and processes the input. -/
inductive Invocation.GoesOn (invocation : Invocation) (settings : Settings) (compiled : Compiled) :
    Result → Prop where
  | crash {notices : List Notice} {reason : Crash} (h : settings.Unresolvable invocation.files)
      (hreason : reason.AboutPath) :
      GoesOn invocation settings compiled (.crash invocation.files notices reason)
  | failure {notices : List Notice} {message : String}
      (h : ¬ settings.Unresolvable invocation.files)
      (hopens : ∀ bytes place, ¬ invocation.Opens settings bytes place) :
      GoesOn invocation settings compiled (.failure invocation.files notices message)
  | process {bytes : List UInt8} {place : Option Place} {notices : List Notice}
      (h : ¬ settings.Unresolvable invocation.files)
      (hopens : invocation.Opens settings bytes place) :
      GoesOn invocation settings compiled
        { process compiled (invocation.endings settings.infile) bytes place invocation.files with
          notices }

/-- The input file is opened before the output file, and each path is looked at right before. -/
theorem runOnFiles_goesOn (hresolved : settings.Resolved invocation.files)
    (hdistinct : settings.Distinct invocation.files) (compiled : Compiled)
    (notices : List Notice) :
    invocation.GoesOn settings compiled (runOnFiles invocation settings compiled notices) := by
  have hnull := hresolved.unresolvable_iff
  cases hin : nullNamed settings.infile with
  | true =>
    rw [runOnFiles, hin]
    exact .crash (hnull.2 (Or.inl hin)) (Or.inl rfl)
  | false =>
    cases hinput : openInput invocation settings.infile with
    | error e =>
      -- The output path has not been looked at here, but it was compared with that of the input.
      have hout : nullNamed settings.outfile = false := by
        cases hnamed : settings.infile with
        | none =>
          rw [hnamed] at hinput
          cases hinput
        | some infile => exact hresolved.nullNamed_outfile hnamed
      rw [runOnFiles, hin, hinput]
      refine .failure ?_ ?_
      · rw [hnull, hin, hout]
        simp
      · intro bytes place h
        cases hinput.symm.trans h.input
    | ok bytes =>
      cases hout : nullNamed settings.outfile with
      | true =>
        rw [runOnFiles, hin, hinput, hout]
        exact .crash (hnull.2 (Or.inr hout)) (Or.inl rfl)
      | false =>
        have hresolvable : ¬ settings.Unresolvable invocation.files := by
          rw [hnull, hin, hout]
          simp
        cases houtput : openOutput invocation.files settings.outfile with
        | error e =>
          rw [runOnFiles, hin, hinput, hout, houtput]
          refine .failure hresolvable ?_
          intro bytes place h
          cases houtput.symm.trans h.output
        | ok place =>
          rw [runOnFiles_eq_process compiled notices hin hinput hout houtput]
          exact .process hresolvable ⟨hdistinct, hinput, houtput⟩

variable {source : List Char}

theorem readAndRun_goesOn (hresolved : settings.Resolved invocation.files)
    (hdistinct : settings.Distinct invocation.files)
    (hcompile : compile source (invocation.environment.stopOnDone && !settings.ignoreDone) =
      .ok compiled) (notices : List Notice) :
    invocation.GoesOn settings compiled
      (readAndRun invocation (.text (.given source)) settings notices) := by
  have hgives : (Given.text source).Gives invocation.files source := rfl
  obtain ⟨read, hread⟩ := readAndRun_of_gives hgives
  obtain ⟨parsed, hparsed⟩ := compileAndRun_of_compile hcompile
  have hrun := hread.trans hparsed
  rw [Given.source] at hrun
  rw [hrun]
  exact runOnFiles_goesOn hresolved hdistinct compiled _

theorem runSettings_goesOn
    (hcompile : compile source (invocation.environment.stopOnDone && !settings.ignoreDone) =
      .ok compiled) (notices : List Notice) :
    invocation.GoesOn settings compiled
      (runSettings invocation (.text (.given source)) settings notices) := by
  unfold runSettings
  dsimp only
  -- Only two files that are named are resolved and compared.
  split
  · rename_i infile outfile hin hout
    cases hinput : resolve invocation.files infile with
    | error reason =>
      obtain ⟨hreason, hnull | hcircle⟩ := resolve_eq_error hinput
      · exact .crash (Or.inl ⟨infile, Or.inl hin, hnull⟩) hreason
      · exact .crash (Or.inr ⟨infile, outfile, hin, hout, Or.inl hcircle⟩) hreason
    | ok input =>
      cases houtput : resolve invocation.files outfile with
      | error reason =>
        obtain ⟨hreason, hnull | hcircle⟩ := resolve_eq_error houtput
        · exact .crash (Or.inl ⟨outfile, Or.inr hout, hnull⟩) hreason
        · exact .crash (Or.inr ⟨infile, outfile, hin, hout, Or.inr hcircle⟩) hreason
      | ok output =>
        have hresolved : settings.Resolved invocation.files := by
          intro infile' outfile' hin' hout'
          cases hin.symm.trans hin'
          cases hout.symm.trans hout'
          exact ⟨⟨input, hinput⟩, output, houtput⟩
        dsimp only
        rw [eq_locate_of_resolve hinput, eq_locate_of_resolve houtput]
        by_cases hsame : invocation.files.locate infile = invocation.files.locate outfile
        · rw [if_pos hsame]
          refine .failure ?_ fun bytes place h => h.distinct infile outfile hin hout hsame
          have hnullIn : nullNamed (some infile) = false := (resolve_eq_ok hinput).1
          have hnullOut : nullNamed (some outfile) = false := (resolve_eq_ok houtput).1
          rw [hresolved.unresolvable_iff, hin, hout, hnullIn, hnullOut]
          simp
        · rw [if_neg hsame]
          refine readAndRun_goesOn hresolved ?_ hcompile notices
          intro infile' outfile' hin' hout'
          cases hin.symm.trans hin'
          cases hout.symm.trans hout'
          exact hsame
  · rename_i hunnamed
    have hsingle : ∀ infile outfile, settings.infile = some infile →
        settings.outfile ≠ some outfile := hunnamed
    refine readAndRun_goesOn ?_ ?_ hcompile notices
    · intro infile outfile hin hout
      exact absurd hout (hsingle infile outfile hin)
    · intro infile outfile hin hout
      exact absurd hout (hsingle infile outfile hin)

theorem Invocation.run_ended
    (hrequest : Request.ofArguments invocation.arguments =
      .ok (.run (.text (.given source)) settings))
    (hcache : invocation.environment.cacheSize.1 ≤ cacheLimit)
    (hcompile : compile source (invocation.environment.stopOnDone && !settings.ignoreDone) =
      .ok compiled) : invocation.Ended settings compiled := by
  obtain ⟨threshold, notices, hrun⟩ := run_eq_runSettings hrequest hcache
  have hgoes := runSettings_goesOn hcompile notices
  generalize runSettings invocation (.text (.given source)) settings notices = result
    at hrun hgoes
  cases hgoes with
  | crash h hreason =>
    refine .unresolved h hreason ?_ ?_
    · rw [hrun]
      rfl
    · rw [hrun]
      exact ⟨rfl, rfl⟩
  | @failure notices message h hopens =>
    have hmessage : invocation.run.2 =
        Notice.shown threshold notices ++ s!"error: {message}\n" := by
      rw [hrun]
      exact shown_failure threshold invocation.files notices message
    refine .refused h hopens ?_ ?_ hmessage
    · rw [hrun]
      rfl
    · rw [hrun]
      exact ⟨rfl, rfl⟩
  | @process bytes place notices h hopens =>
    -- The files are open: only the bytes decide how the run ends.
    by_cases htext : ∃ text, bytes = encode text
    · obtain ⟨text, rfl⟩ := htext
      obtain ⟨hexit, hwritten⟩ := process_of_text compiled
        (invocation.endings settings.infile) text place invocation.files
      refine .processed h hopens ?_ ?_
      · rw [hrun]
        exact hexit
      · rw [hrun]
        exact hwritten
    · have hbytes : ∀ text, bytes ≠ encode text := not_exists.1 htext
      obtain ⟨error, herror⟩ := exists_error_of_inputLines hbytes
      obtain ⟨hexit, hwritten⟩ := process_of_error herror compiled place invocation.files
      have hbroken : invocation.run.1.exit = .crash (.undecodable error) := by
        rw [hrun]
        exact hexit
      refine .undecodable h hopens hbytes hbroken ?_
      rw [hrun]
      exact hwritten

/-- A run ends with a status unless a path cannot be resolved or the input is no text. -/
theorem Invocation.Ended.status_iff (h : invocation.Ended settings compiled) :
    (∃ code, invocation.run.1.exit = .status code) ↔
      ¬ settings.Unresolvable invocation.files ∧
        ∀ bytes place, invocation.Opens settings bytes place → ∃ text, bytes = encode text := by
  cases h with
  | unresolved h _ hexit =>
    refine iff_of_false ?_ fun hresolved => hresolved.1 h
    rintro ⟨code, hcode⟩
    cases hexit.symm.trans hcode
  | refused h hopens hexit =>
    refine iff_of_true ⟨1, hexit⟩ ⟨h, ?_⟩
    intro bytes place h
    exact absurd h (hopens bytes place)
  | @processed text _ h hopens hexit =>
    refine iff_of_true ⟨0, hexit⟩ ⟨h, ?_⟩
    intro bytes place h
    refine ⟨text, ?_⟩
    cases hopens.input.symm.trans h.input
    rfl
  | undecodable h hopens hbytes hexit =>
    refine iff_of_false ?_ ?_
    · rintro ⟨code, hcode⟩
      cases hexit.symm.trans hcode
    · rintro ⟨-, htexts⟩
      obtain ⟨text, htext⟩ := htexts _ _ hopens
      exact hbytes text htext

/-- A run whose program text compiles ends in one of four ways. It breaks off if a path cannot be
resolved. It fails with a message if it names one file twice or if a file cannot be opened;
otherwise it succeeds if its input is UTF-8, and breaks off if it is not. So it ends with a status
unless a path cannot be resolved, or the files are opened and the input is no text. -/
theorem run_ends_unless_undecodable
    (hrequest : Request.ofArguments invocation.arguments =
      .ok (.run (.text (.given source)) settings))
    (hcache : invocation.environment.cacheSize.1 ≤ cacheLimit)
    (hcompile : compile source (invocation.environment.stopOnDone && !settings.ignoreDone) =
      .ok compiled) :
    invocation.Ended settings compiled ∧
      ((∃ code, invocation.run.1.exit = .status code) ↔
        ¬ settings.Unresolvable invocation.files ∧
          ∀ bytes place, invocation.Opens settings bytes place → ∃ text, bytes = encode text) := by
  have hended := Invocation.run_ended hrequest hcache hcompile
  exact ⟨hended, hended.status_iff⟩

/-- The input file is a folder, and the output file is not there. -/
theorem run_ends_unless_undecodable_folder :
    let files : FileTree := { files := [], folders := [placeOf "in".toList] }
    let arguments := ["-p".toList, "home".toList, "in".toList, "out".toList]
    let invocation : Invocation := { arguments, files }
    let settings : Settings := { infile := some "in".toList, outfile := some "out".toList }
    let compiled : Compiled := ⟨[.edit (.plain .home)], true⟩
    Request.ofArguments arguments = .ok (.run (.text (.given "home".toList)) settings) ∧
      compile "home".toList true = .ok compiled ∧
      invocation.environment.cacheSize.1 ≤ cacheLimit ∧
      invocation.Ended settings compiled ∧ ¬ settings.Unresolvable files := by
  intro files arguments invocation settings compiled
  have hrequest : Request.ofArguments arguments =
      .ok (.run (.text (.given "home".toList)) settings) := by decide
  have hcompile : compile "home".toList true = .ok compiled := by decide +kernel
  have hcache : invocation.environment.cacheSize.1 ≤ cacheLimit := by decide
  have hexit : invocation.run.1.exit = .status 1 := by decide +kernel
  obtain ⟨hended, hstatus⟩ := run_ends_unless_undecodable hrequest hcache hcompile
  exact ⟨hrequest, hcompile, hcache, hended, (hstatus.1 ⟨1, hexit⟩).1⟩

/-- The program is compiled, and the run breaks off on one byte that begins no character. -/
theorem run_without_status_of_lead_byte :
    let invocation : Invocation := { arguments := ["-p".toList, "home".toList], input := [0xFF] }
    Request.ofArguments invocation.arguments = .ok (.run (.text (.given "home".toList)) {}) ∧
      compile "home".toList true = .ok ⟨[.edit (.plain .home)], true⟩ ∧
      invocation.run.1.exit = .crash (.undecodable ⟨.invalidStart, 0, 1, 0xFF⟩) ∧
      ¬ ∃ code, invocation.run.1.exit = .status code := by
  intro invocation
  have hexit : invocation.run.1.exit = .crash (.undecodable ⟨.invalidStart, 0, 1, 0xFF⟩) := by
    decide +kernel
  refine ⟨by decide, by decide +kernel, hexit, ?_⟩
  rintro ⟨code, hcode⟩
  cases hexit.symm.trans hcode

end LineEditor
