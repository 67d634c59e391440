import LineEditor.Text.Utf8

/-!
# Paths

A path names a place in the tree of folders, seen from the folder that a command works in. It is a
row of names between slashes: an empty name or a single dot leads nowhere, two dots lead to the
folder above. Where a path leads depends on nothing but its names as long as none of them is that of
a link.
-/

namespace LineEditor

/-- Where counting of folders begins. -/
inductive Base where
  /-- So many folders above the working folder. -/
  | above (levels : Nat)
  /-- The root of all folders. -/
  | root
deriving Repr, DecidableEq

/-- A place in the tree of folders. -/
structure Place where
  /-- The folder from which the names lead on. -/
  base : Base
  /-- The names of the folders on the way, and of the place itself. -/
  names : List (List Char)
deriving Repr, DecidableEq

namespace Place

/-- The working folder. -/
def here : Place :=
  ⟨.above 0, []⟩

/-- The folder above a place; the root has none above it. -/
def parent (place : Place) : Place :=
  match place.base, place.names with
  | .above n, [] => ⟨.above (n + 1), []⟩
  | .root, [] => place
  | base, names => ⟨base, names.dropLast⟩

/-- The place of a name in a folder. -/
def child (place : Place) (name : List Char) : Place :=
  { place with names := place.names ++ [name] }

/-- Where a name leads from a folder, if it is not that of a link. -/
def enter (place : Place) (name : List Char) : Place :=
  if name = [] || name = ['.'] then place
  else if name = ['.', '.'] then place.parent
  else place.child name

/-- Whether one place is a folder on the way to another one. -/
def isAbove (place other : Place) : Bool :=
  place.base = other.base && place.names.isPrefixOf other.names &&
    place.names.length < other.names.length

/-- A place as a path that leads to it. -/
def path (place : Place) : List Char :=
  let names := ['/'].intercalate place.names
  match place.base with
  | .above n => (List.replicate n ['.', '.', '/']).flatten ++ names
  | .root => '/' :: names

end Place

/-! ## Reading paths -/

/-- The pieces of a text between slashes. -/
def splitSlashes : List Char → List (List Char)
  | [] => [[]]
  | c :: path =>
    if c = '/' then [] :: splitSlashes path
    else
      match splitSlashes path with
      | [] => [[c]]
      | name :: names => (c :: name) :: names

/-- Whether a name is that of no place in a folder. -/
def isDots (name : List Char) : Bool :=
  name = [] || name = ['.'] || name = ['.', '.']

/-- The place where a path begins, given the working folder: the root if it begins with a slash. -/
def startOf (working : Place) (path : List Char) : Place :=
  match path with
  | '/' :: _ => ⟨.root, []⟩
  | _ => working

/-- Where a path leads if no name in it is that of a link, and the working folder is all that is
known of where it begins. -/
def placeOf (path : List Char) : Place :=
  (splitSlashes path).foldl Place.enter (startOf .here path)

/-- The slashes that a path begins with and that say where it begins: two of them are told apart
from any other number. -/
def anchorOf : List Char → List Char
  | '/' :: '/' :: '/' :: _ => ['/']
  | '/' :: '/' :: _ => ['/', '/']
  | '/' :: _ => ['/']
  | _ => []

/-- Whether a name leads anywhere. -/
def isTelling (name : List Char) : Bool :=
  name ≠ [] && name ≠ ['.']

/-- A path without the names that lead nowhere; a path that has no other names is a single dot. -/
def tidy (path : List Char) : List Char :=
  let names := (splitSlashes path).filter isTelling
  match anchorOf path ++ ['/'].intercalate names with
  | [] => ['.']
  | tidied => tidied

/-- Whether a path holds the null character, which no path may. -/
def holdsNull (path : List Char) : Bool :=
  path.contains '\x00'

end LineEditor
