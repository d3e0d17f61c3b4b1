import JsonLayout.Text.Utf8

/-!
# Files

The files and directories of a system, as a value.  A path is walked through them one name at a
time, from the root or from the working directory, and a walk that fails does so with the error of
the first name that stops it.

## Main definitions

* `SystemError`: why a file cannot be opened.
* `FileStore`: a working directory, and files and directories by the names that lead to them.
* `FileStore.read`: the content of the file with a path.
* `FileStore.create`: empties or makes the file with a path, to be written.
* `FileStore.put`: sets the content of a file.
-/

namespace JsonLayout

/-- Why a file cannot be opened. -/
inductive SystemError where
  | noSuchFile
  | permissionDenied
  | notDirectory
  | isDirectory
  | nameTooLong
deriving DecidableEq

namespace SystemError

/-- The number of an error. -/
def code : SystemError → Nat
  | .noSuchFile => 2
  | .permissionDenied => 13
  | .notDirectory => 20
  | .isDirectory => 21
  | .nameTooLong => 36

/-- An error in words. -/
def message : SystemError → Text
  | .noSuchFile => "No such file or directory"
  | .permissionDenied => "Permission denied"
  | .notDirectory => "Not a directory"
  | .isDirectory => "Is a directory"
  | .nameTooLong => "File name too long"

end SystemError

/-- The names that lead to a file from the root, outermost first. -/
abbrev Location := List Bytes

/-- What a name stands for: a directory, a file, or a file that may not be opened. -/
inductive Node where
  | directory
  | file (content : Bytes)
  | locked
deriving DecidableEq

/-- Files and directories, and the directory from which paths lead that do not begin at the root.
The root has no entry of its own. -/
structure FileStore where
  here : Location := []
  nodes : List (Location × Node) := []
deriving DecidableEq

/-! ### Paths -/

/-- The byte between the names of a path. -/
def slash : UInt8 := 0x2F

/-- The longest name that can stand in a path. -/
def longestName : Nat := 255

/-- The longest path. -/
def longestPath : Nat := 4095

/-- Bytes cut at every slash. -/
def splitSlashes : Bytes → List Bytes
  | [] => [[]]
  | b :: bytes =>
    if b = slash then [] :: splitSlashes bytes
    else
      match splitSlashes bytes with
      | [] => [[b]]
      | name :: names => (b :: name) :: names

/-- The names in a path.  Slashes next to each other count as one. -/
def pathNames (path : Bytes) : List Bytes := (splitSlashes path).filter fun name => !name.isEmpty

/-- The name of a directory in itself. -/
def dot : Bytes := [0x2E]

/-- The name in a directory of the one around it. -/
def dotDot : Bytes := [0x2E, 0x2E]

namespace FileStore

/-! ### Walks -/

/-- What is at a location. -/
def node? (files : FileStore) (location : Location) : Option Node :=
  if location = [] then some .directory
  else (files.nodes.find? fun e => e.1 = location).map (·.2)

/-- Fails unless a location is a directory. -/
def checkDirectory (files : FileStore) (location : Location) : Except SystemError Unit :=
  match files.node? location with
  | some .directory => .ok ()
  | some _ => .error .notDirectory
  | none => .error .noSuchFile

/-- Where a name leads from a directory.  The root is the directory around itself. -/
def enter (location : Location) (name : Bytes) : Except SystemError Location :=
  if name = dot then .ok location
  else if name = dotDot then .ok location.dropLast
  else if longestName < name.length then .error .nameTooLong
  else .ok (location ++ [name])

/-- Where names lead, each from a directory. -/
def walk (files : FileStore) (location : Location) : List Bytes → Except SystemError Location
  | [] => .ok location
  | name :: names => do
    files.checkDirectory location
    walk files (← enter location name) names

/-- Where the walk along a path begins. -/
def startOf (files : FileStore) (path : Bytes) : Location :=
  if path.head? = some slash then [] else files.here

/-- Fails for a path that is empty or too long. -/
def checkPath (path : Bytes) : Except SystemError Unit :=
  if path.isEmpty then .error .noSuchFile
  else if longestPath < path.length then .error .nameTooLong
  else .ok ()

/-- Whether a path ends in a slash, which asks for a directory. -/
def asksForDirectory (path : Bytes) : Bool := path.getLast? = some slash

/-! ### Reading and writing -/

/-- The content of the file with a path. -/
def read (files : FileStore) (path : Bytes) : Except SystemError Bytes := do
  checkPath path
  let location ← files.walk (files.startOf path) (pathNames path)
  match files.node? location with
  | none => .error .noSuchFile
  | some .directory => .error .isDirectory
  | some .locked =>
    .error (if asksForDirectory path then .notDirectory else .permissionDenied)
  | some (.file content) =>
    if asksForDirectory path then .error .notDirectory else .ok content

/-- Sets the node at a location, at its place if it has one. -/
def putNode : List (Location × Node) → Location → Node → List (Location × Node)
  | [], location, node => [(location, node)]
  | e :: nodes, location, node =>
    if e.1 = location then (location, node) :: nodes else e :: putNode nodes location node

/-- Sets the content of a file. -/
def put (files : FileStore) (location : Location) (content : Bytes) : FileStore :=
  { files with nodes := putNode files.nodes location (.file content) }

/-- Where the file is that a path names for writing.  The last name may be new, but it must not name
a directory or end in a slash. -/
def target (files : FileStore) (path : Bytes) : Except SystemError Location := do
  checkPath path
  let names := pathNames path
  let around ← files.walk (files.startOf path) names.dropLast
  match names.getLast? with
  | none => .error .isDirectory
  | some name =>
    files.checkDirectory around
    if asksForDirectory path then .error .isDirectory
    else
      let location ← enter around name
      match files.node? location with
      | some .directory => .error .isDirectory
      | some .locked => .error .permissionDenied
      | _ => .ok location

/-- Opens the file with a path for writing: where it is, and the files after it was emptied or
made. -/
def create (files : FileStore) (path : Bytes) : Except SystemError (Location × FileStore) := do
  let location ← files.target path
  return (location, files.put location [])

end FileStore

end JsonLayout
