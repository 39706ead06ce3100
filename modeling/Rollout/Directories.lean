import Rollout.Disk

/-!
# Directories and those above them

A directory is made together with the directories above it that are missing. It is tried
first on its own; only if something above it is missing, the directory above is made in the
same way, and then it is tried once more. A directory that is there already will do.
-/

namespace Rollout

variable {m : Type → Type} [Monad m]

/-- Makes a directory, after another action if something above it is missing. -/
def makeAfter (make : String → m (Except FileError Unit)) (isDirectory : String → m Bool)
    (path : String) (makeAbove : m (Except FileError Unit)) : m (Except FileError Unit) := do
  match ← make path with
  | .error .notFound =>
    match ← makeAbove with
    | .error e => return .error e
    | .ok () => settle (← make path)
  | result => settle result
where
  settle : Except FileError Unit → m (Except FileError Unit)
    | .ok () => return .ok ()
    | .error e => do
      if ← isDirectory path then return .ok () else return .error e

/-- Makes the directory whose path has these parts, the last one first, and those above it. -/
def makeParts (make : String → m (Except FileError Unit)) (isDirectory : String → m Bool)
    (absolute : Bool) : List String → m (Except FileError Unit)
  | [] => return .ok ()
  | name :: above =>
    let path : Path := { absolute := absolute, names := (name :: above).reverse, slash := false }
    makeAfter make isDirectory path.text (makeParts make isDirectory absolute above)

/-- Makes a directory and those above it that are missing. The path is tried as it is spelled,
and only its parts count above it. -/
def makeDirectories (make : String → m (Except FileError Unit)) (isDirectory : String → m Bool)
    (path : String) : m (Except FileError Unit) :=
  if path.isEmpty then return .ok ()
  else
    let spelled := Path.ofText path
    makeAfter make isDirectory path
      (makeParts make isDirectory spelled.absolute spelled.parts.dropLast.reverse)

end Rollout
