import LineEditor.CommandLine.Run
import LineEditor.Proofs.CommandLine.Arguments
import LineEditor.Proofs.CommandLine.FileTree
import LineEditor.Proofs.Program.Compiling
import LineEditor.Proofs.Text.Lines

/-!
# Routes through the command

A program may be given as a text or in a file, the input may come from the standard input or from a
file, the output may go to the standard output or to a file, and the run may be told by a switch or
by a variable of the environment to go on when a line is done. Whatever way is taken, the same
program runs on each of the lines that are read, and the same results are written.

The lines are the same as well, unless the standard input keeps its line endings and there is a
carriage return in it that ends no line: in a file that one would.
-/

namespace LineEditor

open Text (LineEndings splitLines unifyNewlines stripEnding)
open Text.Utf8 (encode isUtf8_encode decode_encode)

/-! ## What is read and what is written -/

/-- The lines of a text as it is read, without their endings. -/
def bareLines (endings : LineEndings) (text : List Char) : List (List Char) :=
  (splitLines (endings.read text)).map stripEnding

/-- What a program makes of the lines of a text as it is read, each with a newline. -/
def Compiled.outputOf (compiled : Compiled) (endings : LineEndings) (text : List Char) :
    List Char :=
  (bareLines endings text).flatMap fun line => (compiled.execute line).text ++ ['\n']

/-- A path leads to a file that can be read and holds the given bytes. -/
def FileTree.Holds (files : FileTree) (path : List Char) (bytes : List UInt8) : Prop :=
  holdsNull path = false ∧ files.read path = .ok bytes

/-- A path leads to a file, there or yet to be made, that can be written. -/
def FileTree.Accepts (files : FileTree) (path : List Char) : Prop :=
  holdsNull path = false ∧ ∃ place, files.writable path = .ok place

/-- A program text is given: it is the text in the arguments, or what the file holds that they name.
In a file it has no carriage returns. -/
def Given.Gives (given : Given) (files : FileTree) (source : List Char) : Prop :=
  match given with
  | .text written => written = source
  | .file name => files.Holds name (encode source) ∧ '\r' ∉ source

/-- An environment that only says whether to go on when a line is done. -/
def Environment.ofIgnoring (ignore : Bool) : Environment :=
  { ignoreDone := if ignore then some ['1'] else none }

/-- A run has succeeded, and all that it has written is a file at the given place. -/
structure Result.WroteOnly (files : FileTree) (place : Place) (bytes : List UInt8)
    (result : Result) : Prop where
  exit : result.exit = .status 0
  output : result.output = []
  written : result.files.bytes? place = some bytes
  shape : files.SameShape result.files
  others : ∀ other ≠ place, result.files.bytes? other = files.bytes? other

variable {compiled : Compiled} {source infile outfile : List Char} {files : FileTree}
  {given : Given} {invocation : Invocation} {settings : Settings} {notices : List Notice}
  {bytes : List UInt8} {endings : LineEndings}

/-! ## Reading the input -/

/-- The lines of a text are the same, whether its line endings are kept or not, as long as no
carriage return is left in one of them. -/
theorem bareLines_kept_eq_unified_iff (text : List Char) :
    bareLines .kept text = bareLines .unified text ↔
      ∀ line ∈ bareLines .kept text, '\r' ∉ line := by
  constructor
  · intro h line hline
    rw [h] at hline
    obtain ⟨whole, hwhole, rfl⟩ := List.mem_map.1 hline
    have hsubset := (Text.hasLines_splitLines (unifyNewlines text)).subset hwhole
    intro hmem
    exact Text.return_notMem_unifyNewlines text (hsubset (Text.stripEnding_subset whole hmem))
  · intro h
    have hlines := Text.hasLines_splitLines text
    exact (hlines.map_stripEnding_unifyNewlines fun line hline =>
      h _ (List.mem_map_of_mem hline)).symm

theorem flatten_chunks (size : Nat) (bytes : List UInt8) : (chunks size bytes).flatten = bytes := by
  fun_induction chunks size bytes with
  | case1 => rfl
  | case2 b rest ih => rw [List.flatten_cons, ih, List.cons_append, List.take_append_drop]

/-- An input that is UTF-8 is read to its end, in whatever chunks it arrives. -/
theorem inputLines_encode (endings : LineEndings) (text : List Char) :
    inputLines endings (encode text) = (splitLines (endings.read text), none) := by
  have hutf8 : Text.Utf8.IsUtf8 ([] ++ (chunks chunkSize (encode text)).flatten) text := by
    rw [List.nil_append, flatten_chunks]
    exact isUtf8_encode text
  unfold inputLines
  rw [hutf8.decodeChunks_eq (.inl rfl)]

theorem joinLines_transform (compiled : Compiled) (endings : LineEndings) (text : List Char) :
    joinLines (compiled.transform (splitLines (endings.read text))) =
      compiled.outputOf endings text := by
  unfold joinLines Compiled.transform Compiled.outputOf bareLines
  rw [List.flatMap_map, List.flatMap_map]
  rfl

/-- An input that is UTF-8 is processed to its end. -/
theorem process_encode (compiled : Compiled) (endings : LineEndings) (text : List Char)
    (files : FileTree) :
    (∃ notices, process compiled endings (encode text) none files =
        ⟨.status 0, compiled.outputOf endings text, notices, files⟩) ∧
      ∀ place, ∃ notices, process compiled endings (encode text) (some place) files =
        ⟨.status 0, [], notices, files.put place (encode (compiled.outputOf endings text))⟩ := by
  unfold process
  rw [inputLines_encode]
  dsimp only
  rw [joinLines_transform]
  exact ⟨⟨_, rfl⟩, fun place => ⟨_, rfl⟩⟩

/-! ## From the program text to the output -/

theorem programTextOfFile_holds {name : List Char} (h : files.Holds name (encode source))
    (hsource : '\r' ∉ source) : programTextOfFile files name = .ok source := by
  obtain ⟨hnull, hread⟩ := h
  unfold programTextOfFile
  dsimp only
  rw [hnull, FileTree.read_tidy hread, if_neg Bool.false_ne_true]
  dsimp only
  rw [decode_encode]
  dsimp only
  rw [Text.unifyNewlines_of_notMem hsource]

/-- However a program text is given, it is compiled and run. -/
theorem readAndRun_of_gives (h : given.Gives invocation.files source) :
    ∃ read, readAndRun invocation given.source settings notices =
      compileAndRun invocation settings source (notices ++ read) := by
  cases given with
  | text written =>
    obtain rfl : written = source := h
    exact ⟨_, rfl⟩
  | file name =>
    obtain ⟨hholds, hsource⟩ := h
    unfold readAndRun Given.source
    dsimp only
    rw [programTextOfFile_holds hholds hsource]
    exact ⟨_, rfl⟩

theorem compileAndRun_of_compile
    (h : compile source (invocation.environment.stopOnDone && !settings.ignoreDone) =
      .ok compiled) :
    ∃ parsed, compileAndRun invocation settings source notices =
      runOnFiles invocation settings compiled (notices ++ parsed) := by
  unfold compileAndRun
  dsimp only
  rw [h]
  exact ⟨_, rfl⟩

/-- Once both files are open, the program is run on the one and writes to the other. -/
theorem runOnFiles_eq_process (compiled : Compiled) (notices : List Notice)
    {place : Option Place} (hin : nullNamed settings.infile = false)
    (hinput : openInput invocation settings.infile = .ok bytes)
    (hout : nullNamed settings.outfile = false)
    (houtput : openOutput invocation.files settings.outfile = .ok place) :
    let result := process compiled (invocation.endings settings.infile) bytes place invocation.files
    runOnFiles invocation settings compiled notices =
      { result with notices := notices ++ result.notices } := by
  unfold runOnFiles
  dsimp only
  rw [hin, hinput, hout, houtput, if_neg Bool.false_ne_true]
  dsimp only
  rw [if_neg Bool.false_ne_true]

theorem runOnFiles_input (hin : settings.infile = none) (hout : settings.outfile = none)
    {text : List Char} (hinput : invocation.input = encode text) :
    ∃ notices', runOnFiles invocation settings compiled notices =
      ⟨.status 0, compiled.outputOf invocation.inputEndings text, notices', invocation.files⟩ := by
  obtain ⟨notices', hprocess⟩ :=
    (process_encode compiled invocation.inputEndings text invocation.files).1
  have hendings : invocation.endings settings.infile = invocation.inputEndings := by
    rw [hin]
    rfl
  have hopenIn : openInput invocation settings.infile = .ok (encode text) := by
    rw [hin, ← hinput]
    rfl
  have hopenOut : openOutput invocation.files settings.outfile = .ok none := by
    rw [hout]
    rfl
  have heq := runOnFiles_eq_process compiled notices (by rw [hin]; rfl) hopenIn
    (by rw [hout]; rfl) hopenOut
  rw [heq, hendings, hprocess]
  exact ⟨_, rfl⟩

theorem runOnFiles_files (hin : settings.infile = some infile)
    (hout : settings.outfile = some outfile) {text : List Char}
    (hholds : invocation.files.Holds infile (encode text))
    (haccepts : invocation.files.Accepts outfile) :
    ∃ notices', runOnFiles invocation settings compiled notices =
      ⟨.status 0, [], notices', invocation.files.put (invocation.files.locate outfile)
        (encode (compiled.outputOf .unified text))⟩ := by
  obtain ⟨hnullIn, hread⟩ := hholds
  obtain ⟨hnullOut, place, hwritable⟩ := haccepts
  rw [← FileTree.eq_locate_of_writable hwritable]
  obtain ⟨notices', hprocess⟩ := (process_encode compiled .unified text invocation.files).2 place
  have hendings : invocation.endings settings.infile = .unified := by
    rw [hin]
    rfl
  have hopenIn : openInput invocation settings.infile = .ok (encode text) := by
    rw [hin]
    unfold openInput
    dsimp only
    rw [hread]
  have hopenOut : openOutput invocation.files settings.outfile = .ok (some place) := by
    rw [hout]
    unfold openOutput
    dsimp only
    rw [hwritable]
  have heq := runOnFiles_eq_process compiled notices (by rw [hin]; exact hnullIn) hopenIn
    (by rw [hout]; exact hnullOut) hopenOut
  rw [heq, hendings, hprocess]
  exact ⟨_, rfl⟩

theorem resolve_of_holds (h : files.Holds infile bytes) :
    resolve files infile = .ok (files.locate infile) := by
  obtain ⟨hnull, hread⟩ := h
  obtain ⟨t, ht, -, -, hcircle, -, -, hslashed, -⟩ := FileTree.read_eq_ok_iff.1 hread
  rw [FileTree.place_of_target ht hslashed] at hcircle
  unfold resolve
  dsimp only
  rw [hnull, hcircle]
  rfl

theorem resolve_of_accepts (h : files.Accepts outfile) :
    resolve files outfile = .ok (files.locate outfile) := by
  obtain ⟨hnull, place, hwritable⟩ := h
  obtain ⟨t, ht, -, hslashed, -, hcircle, -⟩ := FileTree.writable_eq_ok_iff.1 hwritable
  rw [FileTree.place_of_target ht hslashed] at hcircle
  unfold resolve
  dsimp only
  rw [hnull, hcircle]
  rfl

theorem runSettings_eq_readAndRun {program : Source} (hin : settings.infile = none) :
    runSettings invocation program settings notices =
      readAndRun invocation program settings notices := by
  unfold runSettings
  rw [hin]

/-- Files that can be opened are opened, if they are not the same. -/
theorem runSettings_of_files {program : Source} (hin : settings.infile = some infile)
    (hout : settings.outfile = some outfile) (hholds : invocation.files.Holds infile bytes)
    (haccepts : invocation.files.Accepts outfile)
    (hne : invocation.files.locate infile ≠ invocation.files.locate outfile) :
    runSettings invocation program settings notices =
      readAndRun invocation program settings notices := by
  unfold runSettings
  rw [hin, hout]
  dsimp only
  rw [resolve_of_holds hholds, resolve_of_accepts haccepts]
  exact if_neg hne

/-! ## Going on when a line is done -/

/-- Two runs have the same files and the same input, the settings name the same files, and both runs
stop when a line is done or both do not. -/
structure SameWork (first second : Invocation) (settings settings' : Settings) : Prop where
  files : first.files = second.files
  input : first.input = second.input
  endings : first.inputEndings = second.inputEndings
  infile : settings.infile = settings'.infile
  outfile : settings.outfile = settings'.outfile
  stop : (first.environment.stopOnDone && !settings.ignoreDone) =
    (second.environment.stopOnDone && !settings'.ignoreDone)

namespace SameWork

variable {first second : Invocation} {settings settings' : Settings}

theorem runOnFiles_eq (h : SameWork first second settings settings') (compiled : Compiled)
    (notices : List Notice) :
    runOnFiles first settings compiled notices = runOnFiles second settings' compiled notices := by
  unfold runOnFiles openInput Invocation.endings
  rw [h.files, h.input, h.endings, h.infile, h.outfile]

theorem compileAndRun_eq (h : SameWork first second settings settings') (source : List Char)
    (notices : List Notice) :
    compileAndRun first settings source notices =
      compileAndRun second settings' source notices := by
  unfold compileAndRun
  simp only [h.files, h.stop, h.runOnFiles_eq]

theorem readAndRun_eq (h : SameWork first second settings settings') (program : Source)
    (notices : List Notice) :
    readAndRun first program settings notices = readAndRun second program settings' notices := by
  unfold readAndRun
  simp only [h.files, h.compileAndRun_eq]

theorem runSettings_eq (h : SameWork first second settings settings') (program : Source)
    (notices : List Notice) :
    runSettings first program settings notices = runSettings second program settings' notices := by
  unfold runSettings
  simp only [h.files, h.infile, h.outfile, h.readAndRun_eq]

end SameWork

/-- The switch does what the variable of the environment does. -/
theorem run_of_ignoring {arguments others : List (List Char)}
    (hrequest : Request.ofArguments arguments = (Request.ofArguments others).map Request.ignoring)
    (environment : Environment) (input : List UInt8) (files : FileTree) (endings : LineEndings) :
    (Invocation.mk arguments environment input files endings).run =
      (Invocation.mk others { environment with ignoreDone := some ['1'] } input files
        endings).run := by
  unfold Invocation.run
  rw [hrequest]
  dsimp only
  cases Request.ofArguments others with
  | error e => rfl
  | ok request => cases request with
    | help => rfl
    | version => rfl
    | run program settings =>
      have hsame : SameWork (Invocation.mk arguments environment input files endings)
          (Invocation.mk others { environment with ignoreDone := some ['1'] } input files endings)
          { settings with ignoreDone := true } settings :=
        ⟨rfl, rfl, rfl, rfl, rfl, Bool.and_false _⟩
      dsimp only [Except.map, Request.ignoring]
      rw [hsame.runSettings_eq]
      rfl

/-! ## Whole runs -/

theorem stopOnDone_ofIgnoring (ignore : Bool) :
    (Environment.ofIgnoring ignore).stopOnDone = !ignore := by
  cases ignore <;> rfl

theorem cacheSize_ofIgnoring (ignore : Bool) :
    (Environment.ofIgnoring ignore).cacheSize = (64, none) :=
  rfl

section

variable {ignore : Bool} {text : List Char}

/-- A run whose arguments ask for one runs with the settings, and shows what it has to say. -/
theorem run_eq_runSettings {program : Source}
    (hrequest : Request.ofArguments invocation.arguments = .ok (.run program settings))
    (hcache : invocation.environment.cacheSize.1 ≤ cacheLimit) :
    ∃ threshold notices,
      invocation.run = (runSettings invocation program settings notices,
        Notice.shown threshold (runSettings invocation program settings notices).notices) := by
  unfold Invocation.run
  dsimp only
  rw [if_neg (Int.not_lt.2 hcache), hrequest]
  exact ⟨_, _, rfl⟩

/-- A run whose arguments are wrong ends at once. -/
theorem run_of_usageError {e : UsageError}
    (hrequest : Request.ofArguments invocation.arguments = .error e)
    (henvironment : invocation.environment = .ofIgnoring ignore) :
    ∃ notices, invocation.run.1 = ⟨.status 2, [], notices, invocation.files⟩ := by
  unfold Invocation.run
  dsimp only
  rw [hrequest, henvironment, cacheSize_ofIgnoring, if_neg (by decide)]
  exact ⟨_, rfl⟩

theorem run_of_request {program : Source}
    (hrequest : Request.ofArguments invocation.arguments = .ok (.run program settings))
    (henvironment : invocation.environment = .ofIgnoring ignore) :
    ∃ notices, invocation.run.1 = runSettings invocation program settings notices := by
  have hcache : invocation.environment.cacheSize.1 ≤ cacheLimit := by
    rw [henvironment, cacheSize_ofIgnoring]
    decide
  obtain ⟨_, notices, hrun⟩ := run_eq_runSettings hrequest hcache
  exact ⟨notices, congrArg Prod.fst hrun⟩

/-- A program text that is given and compiles is read and compiled. -/
theorem readAndRun_eq_runOnFiles (henvironment : invocation.environment = .ofIgnoring ignore)
    (hdone : settings.ignoreDone = false) (hgives : given.Gives invocation.files source)
    (hcompile : compile source (!ignore) = .ok compiled) (notices : List Notice) :
    ∃ notices', readAndRun invocation given.source settings notices =
      runOnFiles invocation settings compiled notices' := by
  obtain ⟨read, hread⟩ := readAndRun_of_gives hgives
  have hstop : (invocation.environment.stopOnDone && !settings.ignoreDone) = !ignore := by
    rw [henvironment, stopOnDone_ofIgnoring, hdone, Bool.not_false, Bool.and_true]
  rw [← hstop] at hcompile
  obtain ⟨parsed, hparsed⟩ := compileAndRun_of_compile hcompile
  exact ⟨_, hread.trans hparsed⟩

/-- From the standard input to the standard output. -/
theorem run_input (invocation : Invocation)
    (hrequest : Request.ofArguments invocation.arguments = .ok (.run given.source settings))
    (hin : settings.infile = none) (hout : settings.outfile = none)
    (hdone : settings.ignoreDone = false)
    (henvironment : invocation.environment = .ofIgnoring ignore)
    (hgives : given.Gives invocation.files source)
    (hcompile : compile source (!ignore) = .ok compiled)
    (hinput : invocation.input = encode text) :
    ∃ notices, invocation.run.1 =
      ⟨.status 0, compiled.outputOf invocation.inputEndings text, notices, invocation.files⟩ := by
  obtain ⟨notices, hrun⟩ := run_of_request hrequest henvironment
  obtain ⟨notices', hread⟩ :=
    readAndRun_eq_runOnFiles henvironment hdone hgives hcompile notices
  rw [hrun, runSettings_eq_readAndRun hin, hread]
  exact runOnFiles_input hin hout hinput

/-- From the input file to the output file. -/
theorem run_files (invocation : Invocation)
    (hrequest : Request.ofArguments invocation.arguments = .ok (.run given.source settings))
    (hin : settings.infile = some infile) (hout : settings.outfile = some outfile)
    (hdone : settings.ignoreDone = false)
    (henvironment : invocation.environment = .ofIgnoring ignore)
    (hgives : given.Gives invocation.files source)
    (hcompile : compile source (!ignore) = .ok compiled)
    (hholds : invocation.files.Holds infile (encode text))
    (haccepts : invocation.files.Accepts outfile)
    (hne : invocation.files.locate infile ≠ invocation.files.locate outfile) :
    invocation.run.1.WroteOnly invocation.files (invocation.files.locate outfile)
      (encode (compiled.outputOf .unified text)) := by
  obtain ⟨notices, hrun⟩ := run_of_request hrequest henvironment
  obtain ⟨notices', hread⟩ :=
    readAndRun_eq_runOnFiles henvironment hdone hgives hcompile notices
  obtain ⟨notices'', hprocess⟩ := runOnFiles_files hin hout hholds haccepts
  rw [hrun, runSettings_of_files hin hout hholds haccepts hne, hread, hprocess]
  exact ⟨rfl, rfl, FileTree.bytes?_put_self _ _ _, FileTree.sameShape_put _ _ _,
    fun _ hother => FileTree.bytes?_put_of_ne _ hother _⟩

end

theorem ofArguments_input (hgiven : IsUndashed given.value) :
    Request.ofArguments given.arguments = .ok (.run given.source {}) := by
  have hnames : ∀ name ∈ ([] : List (List Char)), IsUndashed name := nofun
  have h := ofArguments_given hgiven hnames
  rwa [List.append_nil] at h

theorem ofArguments_files (hgiven : IsUndashed given.value) (hin : IsUndashed infile)
    (hout : IsUndashed outfile) :
    Request.ofArguments (given.arguments ++ [infile, outfile]) =
      .ok (.run given.source { infile := some infile, outfile := some outfile }) := by
  have hnames : ∀ name ∈ [infile, outfile], IsUndashed name := by
    simp [hin, hout]
  rw [ofArguments_given hgiven hnames]
  simp [Progress.takeFiles, Progress.takeFile, Progress.request, hout.ne_dashes]

/-- Whatever way a program that compiles and a text come into a run, the program runs to its end on
every line of the text, and the results are written: to the standard output if no files are named,
or into the output file, and then nothing else is written. The line endings of an input file are
unified, and those of the standard input if it does so. If it keeps them, the lines are those of a
file unless a carriage return is left in one. Before the program, between it and the file names, or
after them, the switch has the same effect as the variable of the environment; between the two file
names it makes the run fail. -/
theorem routes_agree {ignore : Bool} (hcompile : compile source (!ignore) = .ok compiled)
    (hgiven : IsUndashed given.value) (hgives : given.Gives files source) (text : List Char) :
    (∀ endings, ∀ line ∈ bareLines endings text,
        Program.run compiled.stopOnDone compiled.program line = .ran (compiled.execute line)) ∧
      (∀ endings, ∃ notices,
        (Invocation.mk given.arguments (.ofIgnoring ignore) (encode text) files endings).run.1 =
          ⟨.status 0, compiled.outputOf endings text, notices, files⟩) ∧
      (∀ (infile outfile : List Char) (input : List UInt8) (endings : LineEndings),
        IsUndashed infile → IsUndashed outfile → files.Holds infile (encode text) →
        files.Accepts outfile → files.locate infile ≠ files.locate outfile →
        (Invocation.mk (given.arguments ++ [infile, outfile]) (.ofIgnoring ignore) input files
          endings).run.1.WroteOnly files (files.locate outfile)
            (encode (compiled.outputOf .unified text))) ∧
      (bareLines .kept text = bareLines .unified text ↔
        ∀ line ∈ bareLines .kept text, '\r' ∉ line) ∧
      (∀ (names arguments : List (List Char)) (environment : Environment) (input : List UInt8)
        (endings : LineEndings), (∀ name ∈ names, IsUndashed name) →
        WithSwitch given names arguments →
        (Invocation.mk arguments environment input files endings).run =
          (Invocation.mk (given.arguments ++ names)
            { environment with ignoreDone := some ['1'] } input files endings).run) ∧
      ∀ (infile outfile : List Char) (input : List UInt8) (endings : LineEndings),
        IsUndashed infile → IsUndashed outfile →
        ∃ notices, (Invocation.mk (given.arguments ++ [infile, ignoreDoneSwitch, outfile])
          (.ofIgnoring ignore) input files endings).run.1 = ⟨.status 2, [], notices, files⟩ := by
  refine ⟨fun _ line _ => run_eq_ran_of_compile hcompile line, ?_, ?_,
    bareLines_kept_eq_unified_iff text, ?_, ?_⟩
  · intro endings
    exact run_input (.mk _ _ _ files endings) (ofArguments_input hgiven) rfl rfl rfl rfl hgives
      hcompile rfl
  · intro infile outfile input endings hin hout hholds haccepts hne
    exact run_files (.mk _ _ input files endings) (ofArguments_files hgiven hin hout) rfl rfl rfl
      rfl hgives hcompile hholds haccepts hne
  · intro names arguments environment input endings hnames hswitch
    exact run_of_ignoring (ofArguments_withSwitch hgiven hnames hswitch) environment input files
      endings
  · intro infile outfile input endings hin hout
    exact run_of_usageError (ofArguments_switchInside hgiven hin hout) rfl

/-- A program in a file, and a text that ends its first line with a carriage return and a newline,
has a carriage return alone in the second one, and ends its last line not at all. It comes in by the
standard input in both ways, and by a file. The switch stands after the file names. -/
theorem routes_agree_endings :
    let source := "upcase_line".toList
    let given : Given := .file "edits".toList
    let text := "a\r\nb\rc".toList
    let files : FileTree :=
      { files := [(placeOf "edits".toList, encode source), (placeOf "in".toList, encode text)] }
    let compiled : Compiled := ⟨[.edit (.plain .upcaseLine)], true⟩
    let names := ["in".toList, "./out".toList]
    compile source (!false) = .ok compiled ∧ IsUndashed given.value ∧ given.Gives files source ∧
      (∃ notices, (Invocation.mk given.arguments (.ofIgnoring false) (encode text) files
        .kept).run.1 = ⟨.status 0, "A\nB\rC\n".toList, notices, files⟩) ∧
      (∃ notices, (Invocation.mk given.arguments (.ofIgnoring false) (encode text) files
        .unified).run.1 = ⟨.status 0, "A\nB\nC\n".toList, notices, files⟩) ∧
      (Invocation.mk (given.arguments ++ names) (.ofIgnoring false) [] files .kept).run.1.WroteOnly
        files (placeOf "out".toList) (encode "A\nB\nC\n".toList) ∧
      bareLines .kept text ≠ bareLines .unified text ∧
      (Invocation.mk (given.arguments ++ (names ++ [ignoreDoneSwitch])) {} [] files .kept).run =
        (Invocation.mk (given.arguments ++ names) { ignoreDone := some ['1'] } [] files .kept).run
      := by
  intro source given text files compiled names
  have hcompile : compile source (!false) = .ok compiled := by decide +kernel
  have hgiven : IsUndashed given.value := by decide
  have hgives : given.Gives files source := ⟨⟨by decide, by rfl⟩, by decide⟩
  have hholds : files.Holds "in".toList (encode text) := ⟨by decide, by rfl⟩
  have haccepts : files.Accepts "./out".toList := ⟨by decide, placeOf "out".toList, by rfl⟩
  have hkept : compiled.outputOf .kept text = "A\nB\rC\n".toList := by decide +kernel
  have hunified : compiled.outputOf .unified text = "A\nB\nC\n".toList := by decide +kernel
  obtain ⟨-, hinput, hfiles, hsame, hswitch, -⟩ := routes_agree hcompile hgiven hgives text
  refine ⟨hcompile, hgiven, hgives, ?_, ?_, ?_, ?_, ?_⟩
  · rw [← hkept]
    exact hinput .kept
  · rw [← hunified]
    exact hinput .unified
  · rw [← hunified]
    exact hfiles _ _ [] .kept (by decide) (by decide) hholds haccepts (by decide)
  · rw [Ne, hsame]
    decide +kernel
  · exact hswitch names _ {} [] .kept (by decide) .last

/-- A carriage return alone ends a line of a file, and none of a standard input that keeps it. The
switch may not stand between the two file names: the second one is then not taken. -/
theorem routes_part_at_return_and_switch :
    let source := "end insert \"|\"".toList
    let given : Given := .text source
    let text := "a\rb".toList
    let files : FileTree := { files := [(placeOf "in".toList, encode text)] }
    let compiled : Compiled := ⟨[.edit (.plain .lineEnd), .edit (.insert ['|'])], true⟩
    let names := ["in".toList, "out".toList]
    compile source true = .ok compiled ∧
      (Invocation.mk given.arguments {} (encode text) files .kept).run.1.output =
        "a\rb|\n".toList ∧
      compiled.outputOf .unified text = "a|\nb|\n".toList ∧
      (Invocation.mk (given.arguments ++ ["in".toList, ignoreDoneSwitch, "out".toList]) {} [] files
        .kept).run.1.exit = .status 2 ∧
      (Invocation.mk (given.arguments ++ names) { ignoreDone := some ['1'] } [] files
        .kept).run.1.exit = .status 0 := by
  decide +kernel

end LineEditor
