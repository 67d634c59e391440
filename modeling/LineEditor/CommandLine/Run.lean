import LineEditor.CommandLine.Arguments
import LineEditor.CommandLine.Environment
import LineEditor.CommandLine.Input
import LineEditor.CommandLine.Result
import LineEditor.Program.Stream

/-!
# Runs of the command

A run is a function of the arguments, the environment, the standard input and the files. It ends
with an exit status, or breaks off, and leaves behind what it has written: a text, the messages on
the side, and perhaps one file.

Nothing is written before the program has been compiled and both files have been opened. Opening the
output file empties it. When the input turns out not to be UTF-8, the results of the lines before
the chunk at fault are there. Texts are made of Unicode scalar values, so that each result can be
encoded.
-/

namespace LineEditor

/-- What a run works on. -/
structure Invocation where
  /-- The arguments of the command. -/
  arguments : List (List Char)
  /-- The environment. -/
  environment : Environment := {}
  /-- The bytes of the standard input. -/
  input : List UInt8 := []
  /-- The files. -/
  files : FileTree := { files := [] }
  /-- What becomes of the line endings of the standard input: it is open before a run begins, which
  has no say in this. -/
  inputEndings : Text.LineEndings := .unified
deriving Repr, DecidableEq

/-! ## Running a program -/

/-- What is reported of a line on which a program stops early. -/
def earlyStop (compiled : Compiled) (text : List Char) : List Notice :=
  if (compiled.execute text).done && compiled.stopOnDone then
    let shown := Text.quoted text
    [.of .debug "lined.evaluator" s!"Stopped early on line {shown}"]
  else
    []

/-- Runs a program on an input. The results are written to the output file at the given place, which
has been emptied, or to the standard output if there is none. -/
def process (compiled : Compiled) (endings : Text.LineEndings) (bytes : List UInt8)
    (place : Option Place) (files : FileTree) : Result :=
  let (lines, error) := inputLines endings bytes
  let results := joinLines (compiled.transform lines)
  let stops := lines.flatMap fun line => earlyStop compiled (Text.stripEnding line)
  let finished : Exit × List Notice :=
    match error with
    | some e => (.crash (.undecodable e), [])
    | none => (.status 0, [.of .info "lined.runner" s!"Processed {lines.length} lines"])
  match place with
  | none => ⟨finished.1, results, stops ++ finished.2, files⟩
  | some place =>
    ⟨finished.1, [], stops ++ finished.2, files.put place (Text.Utf8.encode results)⟩

/-- The bytes to read: those of the input file, or of the standard input if none is named. -/
def openInput (invocation : Invocation) (infile : Option (List Char)) :
    Except OpenError (List UInt8) :=
  match infile with
  | none => .ok invocation.input
  | some path =>
    match invocation.files.read path with
    | .ok bytes => .ok bytes
    | .error fault => .error ⟨fault, path⟩

/-- What becomes of the line endings of the input. Those of a file are unified. -/
def Invocation.endings (invocation : Invocation) (infile : Option (List Char)) :
    Text.LineEndings :=
  match infile with
  | none => invocation.inputEndings
  | some _ => .unified

/-- The place to write to: that of the output file, or none if the results go to the standard
output. -/
def openOutput (files : FileTree) (outfile : Option (List Char)) :
    Except OpenError (Option Place) :=
  match outfile with
  | none => .ok none
  | some path =>
    match files.writable path with
    | .ok place => .ok (some place)
    | .error fault => .error ⟨fault, path⟩

/-- Whether a file that is named has a path that holds the null character. -/
def nullNamed (file : Option (List Char)) : Bool :=
  file.any holdsNull

/-- Runs a compiled program on the files that the settings name. -/
def runOnFiles (invocation : Invocation) (settings : Settings) (compiled : Compiled)
    (notices : List Notice) : Result :=
  let files := invocation.files
  if nullNamed settings.infile then .crash files notices .nullInPath
  else
    match openInput invocation settings.infile with
    | .error e => .failure files notices e.message
    | .ok bytes =>
      if nullNamed settings.outfile then .crash files notices .nullInPath
      else
        match openOutput files settings.outfile with
        | .error e => .failure files notices e.message
        | .ok place =>
          let endings := invocation.endings settings.infile
          let result := process compiled endings bytes place files
          { result with notices := notices ++ result.notices }

/-- Compiles a program text and runs it. -/
def compileAndRun (invocation : Invocation) (settings : Settings) (source : List Char)
    (notices : List Notice) : Result :=
  let files := invocation.files
  let stop := invocation.environment.stopOnDone && !settings.ignoreDone
  match compile source stop with
  | .error (.failed (.tooLong digits)) => .crash files notices (.tooLong digits)
  | .error (.failed (.notInteger text)) => .crash files notices (.notInteger text)
  | .error e => .failure files notices e.message
  | .ok compiled =>
    let stopping := if stop then "True" else "False"
    runOnFiles invocation settings compiled <| notices ++
      [.of .debug "lined.parser" s!"Parsed {compiled.program.length} commands",
       .of .debug "lined.cli" s!"Stopping on done: {stopping}"]

/-- Reads the program text and goes on with it. -/
def readAndRun (invocation : Invocation) (program : Source) (settings : Settings)
    (notices : List Notice) : Result :=
  let files := invocation.files
  let inline := notices ++ [.of .info "lined.runner" "Using program text from the command line"]
  match program with
  | .text (.given source) => compileAndRun invocation settings source inline
  | .text .dropped => .crash files inline .textDropped
  | .file .dropped => .crash files notices .nameDropped
  | .file (.given path) =>
    match programTextOfFile files path with
    | .error .nullInPath => .crash files notices .nullInPath
    | .error e => .failure files notices e.message
    | .ok source =>
      let shown := String.ofList path
      compileAndRun invocation settings source <| notices ++
        [.of .info "lined.runner" s!"Read program from {shown}"]

/-- Where a path leads, so that it can be compared with another one. -/
def resolve (files : FileTree) (path : List Char) : Except Crash Place :=
  let place := files.locate path
  if holdsNull path then .error .nullInPath
  else if files.hasCircle place then .error (.circle place)
  else .ok place

/-- Runs the command with settings. The input file and the output file must not be the same. -/
def runSettings (invocation : Invocation) (program : Source) (settings : Settings)
    (notices : List Notice) : Result :=
  let files := invocation.files
  match settings.infile, settings.outfile with
  | some infile, some outfile =>
    match resolve files infile, resolve files outfile with
    | .error reason, _ => .crash files notices reason
    | _, .error reason => .crash files notices reason
    | .ok input, .ok output =>
      if input = output then
        .failure files notices "infile and outfile must be different files"
      else readAndRun invocation program settings notices
  | _, _ => readAndRun invocation program settings notices

/-- The greatest number of programs that can be kept ready. -/
def cacheLimit : Int := 9223372036854775807

/-- The threshold of the reports of a run. -/
def Invocation.threshold (invocation : Invocation) (settings : Settings) : Nat :=
  if settings.verbose then Level.debug.gravity else invocation.environment.threshold.1

/-- What is said of the number of programs to keep ready, whatever the threshold. -/
def Invocation.cacheNotices (invocation : Invocation) : List Notice :=
  invocation.environment.cacheSize.2.toList.map fun s => .plain s!"{s}\n"

/-- What a run of the command leaves behind, and the text of its messages on the side. -/
def Invocation.run (invocation : Invocation) : Result × String :=
  let files := invocation.files
  let early := invocation.cacheNotices
  if cacheLimit < invocation.environment.cacheSize.1 then (.crash files [] .cacheTooLarge, "")
  else
    match Request.ofArguments invocation.arguments with
    | .error e =>
      let notices := early ++ [.plain usage, .plain s!"lined: error: {e.message}\n"]
      (⟨.status 2, [], notices, files⟩, Notice.shown 0 notices)
    | .ok .help => (⟨.status 0, helpText.toList, early, files⟩, Notice.shown 0 early)
    | .ok .version => (⟨.status 0, versionText.toList, early, files⟩, Notice.shown 0 early)
    | .ok (.run program settings) =>
      let warnings := invocation.environment.threshold.2.toList.map Notice.report
      let result := runSettings invocation program settings (early ++ warnings)
      (result, Notice.shown (invocation.threshold settings) result.notices)

end LineEditor
