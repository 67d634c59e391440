import LineEditor.CommandLine.Run

/-!
# The command

Looks up on disk what the arguments name, runs the command on that, and writes out what the run
leaves behind. All that is decided is decided by `Invocation.run`. The standard input of a process
is read as it is, with its line endings kept.
-/

namespace LineEditor.Disk

/-- What a path leads to on disk. -/
inductive Found where
  /-- A file with the given bytes. -/
  | file (bytes : List UInt8)
  /-- A file that may not be read. -/
  | unreadable
  /-- A folder. -/
  | folder
  /-- A link that leads round in a circle. -/
  | circle
  /-- Nothing that can be read. -/
  | nothing

/-- Looks up what a path leads to. Reading a folder fails with an error of its own. -/
def look (path : String) : IO Found := do
  try
    return .file (← IO.FS.readBinFile path).toList
  catch
    | .inappropriateType _ 21 _ => return .folder
    | .permissionDenied .. => return .unreadable
    | .invalidArgument _ _ "too many symbolic links encountered" => return .circle
    | _ => return .nothing

/-- Whether a file may not be written. -/
def isUnwritable (path : String) : IO Bool := do
  try
    discard <| IO.FS.Handle.mk path .readWrite
    return false
  catch
    | .permissionDenied .. => return true
    | _ => return false

/-- The place that a path leads to on disk through all links, if there is something. -/
def realPlace? (path : String) : IO (Option Place) := do
  try
    return some (placeOf (← IO.FS.realPath path).toString.toList)
  catch _ => return none

/-- Adds to a file tree what a path leads to, and the folders and links on the way. -/
def load (tree : FileTree) (path : List Char) : IO FileTree := do
  let names := splitSlashes path
  let mut tree := tree
  for count in [1:names.length + 1] do
    let way := ['/'].intercalate (names.take count)
    let shown := String.ofList way
    let place := tree.locate way
    let real := (← realPlace? shown).getD place
    if real ≠ place then tree := { tree with links := (place, real) :: tree.links }
    match ← look shown with
    | .file bytes => tree := tree.put real bytes
    | .unreadable => tree := { tree.put real [] with unreadable := real :: tree.unreadable }
    | .folder => tree := { tree with folders := real :: tree.folders }
    | .circle => tree := { tree with links := (place, place) :: tree.links }
    | .nothing => pure ()
    if ← isUnwritable shown then tree := { tree with unwritable := real :: tree.unwritable }
  return tree

/-- Reads a stream to its end. -/
partial def readAll (stream : IO.FS.Stream) (before : ByteArray) : IO ByteArray := do
  let bytes ← stream.read 65536
  if bytes.isEmpty then return before else readAll stream (before ++ bytes)

/-- Writes the output file if a run has changed it. -/
def save (before after : FileTree) (path : List Char) : IO Unit := do
  let place := after.locate path
  match after.bytes? place with
  | some bytes =>
    if before.bytes? place ≠ some bytes then
      IO.FS.writeBinFile (String.ofList path) ⟨bytes.toArray⟩
  | none => return

/-- A variable of the environment. -/
def fromEnvironment (name : String) : IO (Option (List Char)) := do
  return (← IO.getEnv name).map String.toList

/-- Runs the command on what is on disk. -/
def run (arguments : List (List Char)) : IO UInt32 := do
  let environment : Environment :=
    { ignoreDone := ← fromEnvironment "LINED_IGNORE_DONE"
      logLevel := ← fromEnvironment "LINED_LOG_LEVEL"
      cacheMax := ← fromEnvironment "LINED_PROGRAM_CACHE_MAX" }
  let (programFile, settings) : Option (List Char) × Option Settings :=
    match Request.ofArguments arguments with
    | .ok (.run (.file (.given path)) settings) => (some path, some settings)
    | .ok (.run _ settings) => (none, some settings)
    | _ => (none, none)
  let named := programFile.toList ++ settings.toList.flatMap fun s =>
    s.infile.toList ++ s.outfile.toList
  let working := (← realPlace? ".").getD .here
  let files ← named.foldlM load { files := [], working }
  let fromInput := settings.any fun s => s.infile.isNone
  let input ← if fromInput then readAll (← IO.getStdin) .empty else pure .empty
  let (result, messages) :=
    ({ arguments, environment, input := input.toList, files, inputEndings := .kept } :
      Invocation).run
  (← IO.getStdout).putStr (String.ofList result.output)
  (← IO.getStderr).putStr messages
  (settings.bind Settings.outfile).forM (save files result.files)
  match result.exit with
  | .status code => return code.toUInt32
  | .crash reason =>
    (← IO.getStderr).putStrLn reason.message
    return 1

end LineEditor.Disk

/-- Runs the command. -/
def main (arguments : List String) : IO UInt32 :=
  LineEditor.Disk.run (arguments.map String.toList)
