/-!
# Paths

A path names a place on a disk, from the root or from the working directory. Different texts
may name the same place: doubled slashes, a slash at the end and single points make no
difference to what is meant, only to what the system does on the way.
-/

namespace Rollout

/-- A path as it is spelled, apart from doubled slashes. -/
structure Path where
  /-- It begins at the root. -/
  absolute : Bool
  /-- What stands between the slashes, which may be single or double points. -/
  names : List String
  /-- It ends with a slash. -/
  slash : Bool
  deriving DecidableEq, Repr

namespace Path

/-- The path that a text spells. -/
def ofText (text : String) : Path where
  absolute := text.toList.head? == some '/'
  names := ((text.toList.splitOn '/').filter (!·.isEmpty)).map String.ofList
  slash := text.toList.getLast? == some '/'

/-- A spelling of a path. -/
def text (path : Path) : String :=
  (if path.absolute then "/" else "") ++ "/".intercalate path.names ++
    (if path.slash ∧ path.names ≠ [] then "/" else "")

/-- The names that count. A single point counts only in front of all others, where there is
no root in front of it. -/
def parts (path : Path) : List String :=
  match path.absolute, path.names with
  | false, "." :: names => "." :: names.filter (· ≠ ".")
  | _, names => names.filter (· ≠ ".")

/-- Whether two paths mean the same place, whatever is on the disk. -/
def agrees (a b : Path) : Bool :=
  a.absolute == b.absolute && a.parts == b.parts

/-- A name inside a directory: the empty directory and one that ends with a slash need no
slash between. -/
def join (dir name : String) : String :=
  if dir.isEmpty || dir.toList.getLast? == some '/' then dir ++ name else dir ++ "/" ++ name

end Path

end Rollout
