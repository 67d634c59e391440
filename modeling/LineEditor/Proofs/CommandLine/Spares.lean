import LineEditor.CommandLine.Run
import LineEditor.Proofs.CommandLine.FileTree

/-!
# What a run spares

A run writes the output file that it names, or no file at all. It has failed with an exit status
only as long as nothing was written, neither to a file nor to the standard output, and when it
writes a file, that is not the one it names as its input, however the two are spelled.
-/

namespace LineEditor

variable {files : FileTree} {allowed : Place → Prop} {invocation : Invocation}
  {settings : Settings}

/-! ## What may have changed -/

/-- A result leaves the files as they were, or has replaced the bytes of one file at a place where
that is allowed. If the run ends with an exit status other than success, nothing has
been written. -/
inductive Result.Spares (files : FileTree) (allowed : Place → Prop) : Result → Prop where
  /-- No file is written. A text may be, unless the run fails. -/
  | unwritten {exit : Exit} {output : List Char} {notices : List Notice}
      (h : ∀ code, exit = .status code → code ≠ 0 → output = []) :
      Spares files allowed ⟨exit, output, notices, files⟩
  /-- A file is written. The run does not fail then. -/
  | written {exit : Exit} {notices : List Notice} {place : Place} {bytes : List UInt8}
      (hplace : allowed place) (hexit : ∀ code, exit = .status code → code = 0) :
      Spares files allowed ⟨exit, [], notices, files.put place bytes⟩

namespace Result.Spares

variable {result : Result}

theorem failure (notices : List Notice) (message : String) :
    Spares files allowed (.failure files notices message) :=
  .unwritten fun _ _ _ => rfl

theorem crash (notices : List Notice) (reason : Crash) :
    Spares files allowed (.crash files notices reason) :=
  .unwritten fun _ _ _ => rfl

theorem withNotices (h : result.Spares files allowed) (notices : List Notice) :
    Spares files allowed { result with notices } := by
  cases h with
  | unwritten h => exact .unwritten h
  | written hplace hexit => exact .written hplace hexit

/-- What has changed has changed at an allowed place. -/
theorem allowed_of_bytes?_ne (h : result.Spares files allowed) {place : Place}
    (hne : result.files.bytes? place ≠ files.bytes? place) : allowed place := by
  cases h with
  | unwritten => exact absurd rfl hne
  | @written exit notices written bytes hplace =>
    by_cases heq : place = written
    · rwa [heq]
    · exact absurd (files.bytes?_put_of_ne heq bytes) hne

theorem sameShape (h : result.Spares files allowed) : files.SameShape result.files := by
  cases h with
  | unwritten => exact FileTree.SameShape.refl files
  | written => exact FileTree.sameShape_put files _ _

/-- A run that fails has written nothing. -/
theorem unchanged_of_fails (h : result.Spares files allowed) {code : Nat}
    (hexit : result.exit = .status code) (hcode : code ≠ 0) :
    result.files = files ∧ result.output = [] := by
  cases h with
  | unwritten h => exact ⟨rfl, h code hexit hcode⟩
  | written _ h => exact absurd (h code hexit) hcode

end Result.Spares

open Result (Spares)

/-! ## From the end of a run to its beginning -/

/-- The output file may be written at the place where its path leads. -/
def Settings.Allows (settings : Settings) (files : FileTree) (allowed : Place → Prop) : Prop :=
  ∀ outfile, settings.outfile = some outfile → allowed (files.locate outfile)

theorem process_spares (compiled : Compiled) (endings : Text.LineEndings) (bytes : List UInt8)
    {place : Option Place} (hplace : ∀ p, place = some p → allowed p) (files : FileTree) :
    (process compiled endings bytes place files).Spares files allowed := by
  unfold process
  cases inputLines endings bytes with
  | mk lines error =>
    have hok : ∀ code, Exit.status 0 = .status code → code = 0 := by
      intro code h
      cases h
      rfl
    cases error with
    | none => cases place with
      | none => exact .unwritten fun code h hcode => absurd (hok code h) hcode
      | some p => exact .written (hplace p rfl) hok
    | some e => cases place with
      | none => exact .unwritten nofun
      | some p => exact .written (hplace p rfl) nofun

theorem allowed_of_openOutput (hallows : settings.Allows files allowed) {place : Option Place}
    (h : openOutput files settings.outfile = .ok place) : ∀ p, place = some p → allowed p := by
  rintro p rfl
  unfold openOutput at h
  split at h
  · cases h
  · rename_i outfile houtfile
    split at h
    · rename_i written hwritten
      cases h
      rw [FileTree.eq_locate_of_writable hwritten]
      exact hallows outfile houtfile
    · cases h

theorem runOnFiles_spares (hallows : settings.Allows invocation.files allowed)
    (compiled : Compiled) (notices : List Notice) :
    (runOnFiles invocation settings compiled notices).Spares invocation.files allowed := by
  unfold runOnFiles
  dsimp only
  split
  · exact .crash notices _
  split
  · exact .failure notices _
  split
  · exact .crash notices _
  split
  · exact .failure notices _
  · rename_i bytes _ _ _ place hplace
    have hplaces := allowed_of_openOutput hallows hplace
    exact (process_spares compiled _ bytes hplaces invocation.files).withNotices _

theorem compileAndRun_spares (hallows : settings.Allows invocation.files allowed)
    (source : List Char) (notices : List Notice) :
    (compileAndRun invocation settings source notices).Spares invocation.files allowed := by
  unfold compileAndRun
  dsimp only
  split
  · exact .crash notices _
  · exact .crash notices _
  · exact .failure notices _
  · exact runOnFiles_spares hallows _ _

theorem readAndRun_spares (hallows : settings.Allows invocation.files allowed)
    (program : Source) (notices : List Notice) :
    (readAndRun invocation program settings notices).Spares invocation.files allowed := by
  unfold readAndRun
  dsimp only
  split
  · exact compileAndRun_spares hallows _ _
  · exact .crash _ _
  · exact .crash notices _
  · split
    · exact .crash notices _
    · exact .failure notices _
    · exact compileAndRun_spares hallows _ _

/-! ## Whole runs -/

theorem eq_locate_of_resolve {path : List Char} {place : Place}
    (h : resolve files path = .ok place) : place = files.locate path := by
  unfold resolve at h
  dsimp only at h
  split at h
  · cases h
  split at h <;> cases h
  rfl

/-- Where the output of a run goes, if its settings name a file for it that is not the
input file. -/
def Settings.MayWrite (settings : Settings) (files : FileTree) (place : Place) : Prop :=
  (settings.outfile.map files.locate = some place) ∧
    settings.infile.map files.locate ≠ some place

theorem runSettings_spares (invocation : Invocation) (program : Source) (settings : Settings)
    (notices : List Notice) :
    (runSettings invocation program settings notices).Spares invocation.files
      (settings.MayWrite invocation.files) := by
  unfold runSettings
  dsimp only
  split
  · -- Both files are named: the two paths are resolved and compared before anything is opened.
    rename_i infile outfile hin hout
    split
    · exact .crash notices _
    · exact .crash notices _
    rename_i input output hinput houtput
    split
    · exact .failure notices _
    rename_i hne
    rw [eq_locate_of_resolve hinput, eq_locate_of_resolve houtput] at hne
    refine readAndRun_spares (fun path hpath => ?_) program notices
    obtain rfl : outfile = path := Option.some.inj (hout.symm.trans hpath)
    refine ⟨by rw [hout, Option.map_some], ?_⟩
    rw [hin, Option.map_some]
    exact fun h => hne (Option.some.inj h)
  · -- At most one is, so an output file that is named has no input file to collide with.
    rename_i hunnamed
    refine readAndRun_spares (fun path hpath => ?_) program notices
    refine ⟨by rw [hpath, Option.map_some], ?_⟩
    cases hin : settings.infile with
    | none => exact nofun
    | some infile => exact absurd hpath (hunnamed infile path hin)

/-- The settings that the arguments of a run ask for, if they ask for a run of a program. -/
def Invocation.settings? (invocation : Invocation) : Option Settings :=
  match Request.ofArguments invocation.arguments with
  | .ok (.run _ settings) => some settings
  | _ => none

/-- Where the input file of a run is, if it names one. -/
def Invocation.inputPlace? (invocation : Invocation) : Option Place :=
  (invocation.settings?.bind Settings.infile).map invocation.files.locate

/-- Where the output file of a run is, if it names one. -/
def Invocation.outputPlace? (invocation : Invocation) : Option Place :=
  (invocation.settings?.bind Settings.outfile).map invocation.files.locate

theorem Invocation.run_spares (invocation : Invocation) :
    invocation.run.1.Spares invocation.files fun place =>
      invocation.outputPlace? = some place ∧ invocation.inputPlace? ≠ some place := by
  unfold run
  dsimp only
  split
  · exact .crash [] _
  split
  · exact .unwritten fun _ _ _ => rfl
  · exact .unwritten fun code h hcode => absurd (by cases h; rfl) hcode
  · exact .unwritten fun code h hcode => absurd (by cases h; rfl) hcode
  · rename_i program settings hrequest
    have hsettings : invocation.settings? = some settings := by rw [settings?, hrequest]
    simp only [outputPlace?, inputPlace?, hsettings, Option.bind_some]
    exact runSettings_spares invocation program settings _

/-- A run that names one file as its input and its output, by the same path or by two, breaks off or
fails. -/
theorem runSettings_of_samePlace {program : Source} {infile outfile : List Char}
    {notices : List Notice} (hin : settings.infile = some infile)
    (hout : settings.outfile = some outfile)
    (hsame : invocation.files.locate infile = invocation.files.locate outfile) :
    (∃ message, runSettings invocation program settings notices =
        .failure invocation.files notices message) ∨
      ∃ reason, runSettings invocation program settings notices =
        .crash invocation.files notices reason := by
  unfold runSettings
  rw [hin, hout]
  dsimp only
  split
  · exact .inr ⟨_, rfl⟩
  · exact .inr ⟨_, rfl⟩
  · rename_i input output hinput houtput
    have heq : input = output := by
      rw [eq_locate_of_resolve hinput, eq_locate_of_resolve houtput, hsame]
    rw [if_pos heq]
    exact .inl ⟨_, rfl⟩

theorem Invocation.request_of_settings? {invocation : Invocation}
    (h : invocation.settings? = some settings) :
    ∃ program, Request.ofArguments invocation.arguments = .ok (.run program settings) := by
  unfold settings? at h
  split at h
  · rename_i program _ hrequest
    cases h
    exact ⟨program, hrequest⟩
  · cases h

theorem Invocation.run_of_samePlace (invocation : Invocation) {place : Place}
    (hin : invocation.inputPlace? = some place) (hout : invocation.outputPlace? = some place) :
    invocation.run.1.exit ≠ .status 0 ∧ invocation.run.1.files = invocation.files ∧
      invocation.run.1.output = [] := by
  obtain ⟨infile, hinfile, hinplace⟩ := Option.map_eq_some_iff.1 hin
  obtain ⟨outfile, houtfile, houtplace⟩ := Option.map_eq_some_iff.1 hout
  obtain ⟨settings, hsettings, hinfile⟩ := Option.bind_eq_some_iff.1 hinfile
  rw [hsettings, Option.bind_some] at houtfile
  obtain ⟨program, hrequest⟩ := request_of_settings? hsettings
  have hsame := hinplace.trans houtplace.symm
  unfold run
  dsimp only
  split
  · exact ⟨nofun, rfl, rfl⟩
  · rw [hrequest]
    dsimp only
    rcases runSettings_of_samePlace hinfile houtfile hsame with ⟨message, heq⟩ | ⟨reason, heq⟩
    · rw [heq]
      exact ⟨nofun, rfl, rfl⟩
    · rw [heq]
      exact ⟨nofun, rfl, rfl⟩

/-- Whatever comes of a run, it changes no file and makes none but the one named as its output, and
not that one if it is named as the input as well, by the same path or by another one: then the run
does not succeed. A run that fails leaves all files as they were and writes nothing. -/
theorem Invocation.run_spares_files (invocation : Invocation) :
    (∀ place, invocation.run.1.files.bytes? place ≠ invocation.files.bytes? place →
        invocation.outputPlace? = some place ∧ invocation.inputPlace? ≠ some place) ∧
      invocation.files.SameShape invocation.run.1.files ∧
      (∀ place, invocation.inputPlace? = some place → invocation.outputPlace? = some place →
        invocation.run.1.exit ≠ .status 0 ∧ invocation.run.1.files = invocation.files ∧
          invocation.run.1.output = []) ∧
      ∀ code, invocation.run.1.exit = .status code → code ≠ 0 →
        invocation.run.1.files = invocation.files ∧ invocation.run.1.output = [] := by
  have h := invocation.run_spares
  exact ⟨fun _ => h.allowed_of_bytes?_ne, h.sameShape,
    fun _ => invocation.run_of_samePlace, fun _ => h.unchanged_of_fails⟩

/-- So a link to the input file is refused as the output file. -/
example :
    let file := placeOf "in".toList
    let link := placeOf "out".toList
    let invocation : Invocation :=
      { arguments := ["-p".toList, "kill".toList, "in".toList, "./out".toList]
        files := { files := [(file, [0x61])], links := [(link, file)] } }
    invocation.run.1.exit = .status 1 := by
  decide

end LineEditor
