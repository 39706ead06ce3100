import Rollout.Path
import Rollout.Store.Basic

/-!
# A disk

Directories, files and databases in their places. A database is held by whoever has opened
it, and nobody else can open it until it is released; its content is written back then.

A path is followed name by name, and every name needs a directory to be looked up in, also a
single point and a double one.
-/

namespace Rollout

/-- Why an operation on files failed. -/
inductive FileError where
  | notFound
  | alreadyExists
  | notDirectory
  | isDirectory
  | nameTooLong
  /-- The path holds the character that ends paths for the system. -/
  | nullInName
  | notText
  | other (detail : String)
  deriving DecidableEq, Repr

/-- The error in words, with the number that the system gives it. -/
def FileError.message : FileError → String
  | .notFound => "No such file or directory (os error 2)"
  | .alreadyExists => "File exists (os error 17)"
  | .notDirectory => "Not a directory (os error 20)"
  | .isDirectory => "Is a directory (os error 21)"
  | .nameTooLong => "File name too long (os error 36)"
  | .nullInName => "file name contained an unexpected NUL byte"
  | .notText => "stream did not contain valid UTF-8"
  | .other detail => detail

/-- What stands in a place. -/
inductive Node where
  | directory
  | file (content : ByteArray)
  | database (store : Store) (held : Bool)

/-- A place, by the names that lead to it from the root. -/
abbrev Place : Type :=
  List String

/-- The nodes in their places, and where paths begin that do not begin at the root. -/
structure Disk where
  nodes : List (Place × Node)
  working : Place

namespace Disk

/-- The disk that holds nothing but directories in these places, and works in the first. -/
def ofDirectories (working : Place) (others : List Place) : Disk where
  nodes := (working :: others).map fun place => (place, .directory)
  working := working

/-- The node in a place, without regard to what is above it. -/
def node? (disk : Disk) (place : Place) : Option Node :=
  if place.isEmpty then some .directory else disk.nodes.lookup place

/-- The most bytes that a name may have. -/
def nameLimit : Nat :=
  255

/-- The most bytes that a path may have. -/
def pathLimit : Nat :=
  4095

/-- Follows a name from a place. What it leads to may be missing. -/
def follow (disk : Disk) (place : Place) (name : String) : Except FileError Place :=
  match disk.node? place with
  | none => .error .notFound
  | some .directory =>
    if name = "." then .ok place
    else if name = ".." then .ok place.dropLast
    else if nameLimit < name.utf8ByteSize then .error .nameTooLong
    else .ok (place ++ [name])
  | some _ => .error .notDirectory

/-- The place to which a path leads. Everything above it is there. -/
def place (disk : Disk) (path : String) : Except FileError Place :=
  if path.contains '\x00' then .error .nullInName
  else if pathLimit < path.utf8ByteSize then .error .nameTooLong
  else if path.isEmpty then .error .notFound
  else
    let spelled := Path.ofText path
    spelled.names.foldlM disk.follow (if spelled.absolute then [] else disk.working)

/-- Whether a path ends with a name that something new could have. -/
def endsWithName (path : Path) : Bool :=
  path.names.getLast?.any fun name => name != "." && name != ".."

/-- The node to which a path leads. A slash at the end asks for a directory. -/
def find (disk : Disk) (path : String) : Except FileError Node := do
  match disk.node? (← disk.place path) with
  | none => throw .notFound
  | some .directory => return .directory
  | some node => if (Path.ofText path).slash then throw .notDirectory else return node

/-- Puts a node in a place. -/
def put (disk : Disk) (place : Place) (node : Node) : Disk :=
  { disk with nodes := (place, node) :: disk.nodes.filter (·.1 ≠ place) }

/-- Writes a file under a path, instead of what is there. Nothing is written over a directory
or over a database that is held. -/
def writeFile (disk : Disk) (path : String) (content : ByteArray) : Disk :=
  match disk.place path with
  | .error _ => disk
  | .ok place =>
    match disk.node? place with
    | some .directory => disk
    | some (.database _ true) => disk
    | _ => disk.put place (.file content)

/-- The text in a file. -/
def readText (disk : Disk) (path : String) : Except FileError String := do
  match ← disk.find path with
  | .directory => throw .isDirectory
  | .database .. => throw .notText
  | .file content =>
    match String.fromUTF8? content with
    | some text => return text
    | none => throw .notText

/-- Whether a path leads to a directory. -/
def isDirectory (disk : Disk) (path : String) : Bool :=
  match disk.find path with
  | .ok .directory => true
  | _ => false

/-- Creates a directory in a place where nothing is yet, inside one that is there. -/
def makeDirectory (disk : Disk) (path : String) : Except FileError Disk := do
  let place ← disk.place path
  if !endsWithName (Path.ofText path) || (disk.node? place).isSome then throw .alreadyExists
  return disk.put place .directory

/-- Opens the database under a path, which is created if there is none, or an empty file. -/
def openStore (disk : Disk) (path : String) : Except StoreError Store × Disk :=
  match disk.place path with
  | .error e => (.error (.cannotOpen e.message), disk)
  | .ok place =>
    let opened (store : Store) := (.ok store, disk.put place (.database store true))
    let spelled := Path.ofText path
    if spelled.slash || !endsWithName spelled then
      (.error (.cannotOpen FileError.isDirectory.message), disk)
    else
      match disk.node? place with
      | none => opened .empty
      | some .directory => (.error (.cannotOpen FileError.isDirectory.message), disk)
      | some (.file content) =>
        if content.isEmpty then opened .empty
        else (.error (.cannotOpen "the file is not a database"), disk)
      | some (.database store held) =>
        if held then (.error (.busy path), disk) else opened store

/-- Releases the database under a path with its last content. -/
def closeStore (disk : Disk) (path : String) (store : Store) : Disk :=
  match disk.place path with
  | .ok place => disk.put place (.database store false)
  | .error _ => disk

end Disk

end Rollout
