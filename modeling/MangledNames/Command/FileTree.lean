import MangledNames.Text.Utf8

/-!
# Files

A tree of files and directories, seen from a working directory. A path is followed name by name, and
every name but the last one must be that of a directory, so different paths may name one file.
-/

namespace MangledNames.Command

abbrev FileName := List UInt8

/-- The names on the way from the root. -/
abbrev Location := List FileName

inductive Device where
  /-- Takes everything and holds nothing. -/
  | null
  /-- Takes nothing. -/
  | full
  deriving DecidableEq, Repr

inductive Node where
  | file (content : List UInt8)
  | directory
  | device (device : Device)
  deriving DecidableEq, Repr

structure FileTree where
  workingDirectory : Location
  /-- All nodes but the root. -/
  nodes : List (Location × Node)
  deriving DecidableEq, Repr

/-- Why a path cannot be opened. -/
inductive PathError where
  | noEntry
  | notADirectory
  | isADirectory
  deriving DecidableEq, Repr

def PathError.message : PathError → String
  | noEntry => "No such file or directory (os error 2)"
  | notADirectory => "Not a directory (os error 20)"
  | isADirectory => "Is a directory (os error 21)"

def slash : UInt8 := '/'.toUInt8

def dot : FileName := Text.utf8 "."

def dotDot : FileName := Text.utf8 ".."

namespace FileTree

def node? (tree : FileTree) (location : Location) : Option Node :=
  if location = [] then some .directory
  else (tree.nodes.find? fun entry => entry.1 = location).map Prod.snd

/-- Puts a file in place of the node at a location, or adds it. -/
def write (tree : FileTree) (location : Location) (content : List UInt8) : FileTree :=
  if tree.nodes.any fun entry => entry.1 = location then
    { tree with
      nodes := tree.nodes.map fun entry =>
        if entry.1 = location then (location, .file content) else entry }
  else { tree with nodes := tree.nodes ++ [(location, .file content)] }

/-- Follows names from a location. -/
def follow (tree : FileTree) : Location → List FileName → Except PathError Location
  | location, [] => .ok location
  | location, name :: names =>
    match tree.node? location with
    | none => .error .noEntry
    | some .directory =>
      if name = dot then tree.follow location names
      else if name = dotDot then tree.follow location.dropLast names
      else tree.follow (location ++ [name]) names
    | some _ => .error .notADirectory

/-- The names of a path, which slashes separate. -/
def names (path : List UInt8) : List FileName :=
  (path.splitOn slash).filter (· ≠ [])

def locate (tree : FileTree) (path : List UInt8) : Except PathError Location :=
  tree.follow (if path.head? = some slash then [] else tree.workingDirectory) (names path)

/-- Whether a path must be that of a directory. -/
def endsWithSlash (path : List UInt8) : Bool := path.getLast? = some slash

/-- What there is to read at a path. -/
def openSource (tree : FileTree) (path : List UInt8) : Except PathError Location := do
  let location ← tree.locate path
  match tree.node? location with
  | none => .error .noEntry
  | some .directory => .ok location
  | some _ => if endsWithSlash path then .error .notADirectory else .ok location

/-- Creates an empty file, or empties the file that there is. A failure changes nothing. -/
def create (tree : FileTree) (path : List UInt8) : Except PathError (Location × FileTree) := do
  let location ← tree.locate path
  if endsWithSlash path then .error .isADirectory
  else
    match tree.node? location with
    | some .directory => .error .isADirectory
    | some (.device _) => .ok (location, tree)
    | _ => .ok (location, tree.write location [])

end FileTree

end MangledNames.Command
