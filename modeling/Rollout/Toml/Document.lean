import Rollout.Toml.Statement

/-!
# TOML documents

The statements of a document build its table from the top. A header names the table to which
the keys after it belong, up to the next header.
-/

namespace Rollout.Toml

/-- The document so far, and the table to which keys belong now. -/
structure Building where
  root : Entries
  current : List String

namespace Building

/-- Nothing has been said yet, and keys belong to the document itself. -/
def start : Building :=
  ⟨[], []⟩

/-- The document after one more statement, unless that contradicts the ones before. -/
def extend? (b : Building) : Statement → Option Building
  | .keyValue path key value => do
    let root ← Entries.descend false (Entries.addDotted? path key value) b.current .header b.root
    return { b with root := root }
  | .header path key => do
    let root ← Entries.descend false (fun _ => Entries.openTable? key) path .header b.root
    return { root := root, current := path ++ [key] }
  | .nextHeader path key => do
    let root ← Entries.descend false (fun _ => Entries.openNext? key) path .header b.root
    return { root := root, current := path ++ [key] }

end Building

/-- A text without a byte order mark at its front. -/
def dropMark : List Char → List Char
  | '\uFEFF' :: cs => cs
  | cs => cs

/-- The entries of the document that a text is, if it is one. -/
def parse? (s : String) : Option Entries := do
  let statements ← readStatements (dropMark s.toList)
  let built ← statements.foldlM Building.extend? .start
  return built.root

end Rollout.Toml
