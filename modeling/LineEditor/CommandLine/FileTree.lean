import LineEditor.CommandLine.Path
import LineEditor.Text.Quoted

/-!
# Files

A file tree knows the bytes of some files, by the places where they are. It names folders and links,
and where the working folder is; if that is not known, places are counted from the working folder. A
folder is also what stands above any of these. A link is known by the place to which it leads in the
end, through other links perhaps; one that leads round in a circle leads to itself, and nothing can
be opened there. So every path leads to one place, and two paths can be compared by that.

Opening a file walks along its path; the walk can end too early, at a place that is missing or that
is no folder, and a name or a path can be too long for it. A file that is found may still be closed
to a reader or to a writer. Files change in one way only: all bytes of one file are replaced, and
the file is new if there was none.
-/

namespace LineEditor

/-- Files and folders by their places. -/
structure FileTree where
  /-- The files with their bytes. -/
  files : List (Place × List UInt8)
  /-- Folders that may have no files. -/
  folders : List Place := []
  /-- The working folder. -/
  working : Place := .here
  /-- Links, each with the place that it leads to. -/
  links : List (Place × Place) := []
  /-- Files that may not be read. -/
  unreadable : List Place := []
  /-- Files that may not be written, there or yet to be made. -/
  unwritable : List Place := []
deriving Repr, DecidableEq

/-- Why a file cannot be opened. -/
inductive OpenFault where
  /-- There is nothing at the place. -/
  | missing
  /-- A place on the way is no folder. -/
  | notFolder
  /-- The place is a folder. -/
  | isFolder
  /-- The path or a name in it is too long. -/
  | tooLong
  /-- A link leads round in a circle. -/
  | circle
  /-- The file is not open to what is to be done with it. -/
  | denied
deriving Repr, DecidableEq

/-- The number and the name of a fault. -/
def OpenFault.reason : OpenFault → String
  | .missing => "[Errno 2] No such file or directory"
  | .notFolder => "[Errno 20] Not a directory"
  | .isFolder => "[Errno 21] Is a directory"
  | .tooLong => "[Errno 36] File name too long"
  | .circle => "[Errno 40] Too many levels of symbolic links"
  | .denied => "[Errno 13] Permission denied"

/-- A path that cannot be opened, and why. -/
structure OpenError where
  /-- Why. -/
  fault : OpenFault
  /-- The path. -/
  path : List Char
deriving Repr, DecidableEq

/-- An error of opening a file in words. -/
def OpenError.message (e : OpenError) : String :=
  let reason := e.fault.reason
  let path := Text.quoted e.path
  s!"{reason}: {path}"

namespace FileTree

/-- The bytes of the file at a place, if there is one. -/
def bytes? (tree : FileTree) (place : Place) : Option (List UInt8) :=
  tree.files.lookup place

/-- The places that a tree knows of. -/
def places (tree : FileTree) : List Place :=
  tree.working :: tree.folders ++ tree.links.map Prod.fst ++ tree.files.map Prod.fst

/-- Whether a place is a folder. -/
def isFolder (tree : FileTree) (place : Place) : Bool :=
  place.names.isEmpty || place = tree.working || tree.folders.contains place ||
    tree.places.any place.isAbove

/-- Whether a place is that of a link that leads round in a circle. -/
def isCircle (tree : FileTree) (place : Place) : Bool :=
  tree.links.lookup place = some place

/-- Whether a place cannot be reached because of a link that leads round in a circle. -/
def hasCircle (tree : FileTree) (place : Place) : Bool :=
  tree.links.any fun link => tree.isCircle link.1 && (link.1 = place || link.1.isAbove place)

/-- Files with the bytes of one of them replaced, or with a new file. -/
def putFile (place : Place) (bytes : List UInt8) :
    List (Place × List UInt8) → List (Place × List UInt8)
  | [] => [(place, bytes)]
  | file :: files =>
    if file.1 = place then (place, bytes) :: files else file :: putFile place bytes files

/-- Replaces the bytes of the file at a place; the file is new if there was none. -/
def put (tree : FileTree) (place : Place) (bytes : List UInt8) : FileTree :=
  { tree with files := putFile place bytes tree.files }

/-! ## Where paths lead -/

/-- Where a name leads from a folder. -/
def enter (tree : FileTree) (place : Place) (name : List Char) : Place :=
  let next := place.enter name
  if isDots name then next else (tree.links.lookup next).getD next

/-- Where a path leads. -/
def locate (tree : FileTree) (path : List Char) : Place :=
  (splitSlashes path).foldl tree.enter (startOf tree.working path)

/-! ## Walking along paths -/

/-- The greatest number of bytes in a name. -/
def nameLimit : Nat := 255

/-- The greatest number of bytes in a path. -/
def pathLimit : Nat := 4095

/-- Whether a text has more bytes than a limit. -/
def exceeds (limit : Nat) (s : List Char) : Bool :=
  (Text.Utf8.encode s).length > limit

/-- Why a place cannot be gone into, if it is no folder: a file is in the way, or nothing is
there. -/
def folderFault? (tree : FileTree) (place : Place) : Option OpenFault :=
  if tree.isFolder place then none
  else if tree.files.any fun file => file.1 = place || file.1.isAbove place then some .notFolder
  else some .missing

/-- Goes from a folder into a folder in it. -/
def step (tree : FileTree) (place : Place) (name : List Char) : Except OpenFault Place :=
  let next := tree.enter place name
  if exceeds nameLimit name then .error .tooLong
  else if tree.hasCircle next then .error .circle
  else
    match tree.folderFault? next with
    | none => .ok next
    | some fault => .error fault

/-- Goes from a folder along names, which must all be those of folders. -/
def walk (tree : FileTree) (place : Place) : List (List Char) → Except OpenFault Place
  | [] => .ok place
  | name :: names =>
    match tree.step place name with
    | .error fault => .error fault
    | .ok next => tree.walk next names

/-- What a path leads to. -/
structure Target where
  /-- The folder that holds the last name of the path. -/
  folder : Place
  /-- The last name; it is empty if the path has none. -/
  name : List Char
  /-- Whether a slash follows the last name, so that it must be that of a folder. -/
  slashed : Bool
deriving Repr, DecidableEq

/-- Walks along a path up to its last name. -/
def target (tree : FileTree) (path : List Char) : Except OpenFault Target :=
  if path = [] then .error .missing
  else if exceeds pathLimit path then .error .tooLong
  else
    let bare := (path.reverse.dropWhile (· = '/')).reverse
    let names := splitSlashes bare
    match tree.walk (startOf tree.working path) names.dropLast with
    | .error fault => .error fault
    | .ok folder => .ok ⟨folder, names.getLastD [], path.getLast? = some '/'⟩

/-- The place of a target. -/
def Target.place (tree : FileTree) (t : Target) : Place :=
  tree.enter t.folder t.name

/-- The bytes of the file that a path leads to. A link may lead to a folder that is not there. -/
def read (tree : FileTree) (path : List Char) : Except OpenFault (List UInt8) :=
  match tree.target path with
  | .error fault => .error fault
  | .ok t =>
    let place := t.place tree
    if isDots t.name then .error .isFolder
    else if exceeds nameLimit t.name then .error .tooLong
    else if tree.hasCircle place then .error .circle
    else if tree.isFolder place then .error .isFolder
    else
      match tree.bytes? place with
      | none => .error ((tree.folderFault? place.parent).getD .missing)
      | some bytes =>
        if t.slashed then .error .notFolder
        else if tree.unreadable.contains place then .error .denied
        else .ok bytes

/-- The place of the file that a path leads to, which may be a new one, so that it can be
written. -/
def writable (tree : FileTree) (path : List Char) : Except OpenFault Place :=
  match tree.target path with
  | .error fault => .error fault
  | .ok t =>
    let place := t.place tree
    if isDots t.name || t.slashed then .error .isFolder
    else if exceeds nameLimit t.name then .error .tooLong
    else if tree.hasCircle place then .error .circle
    else if tree.isFolder place then .error .isFolder
    else if tree.unwritable.contains place then .error .denied
    else
      match tree.folderFault? place.parent with
      | none => .ok place
      | some fault => .error fault

end FileTree

end LineEditor
