import Rollout.Toml.Quoted
import Rollout.Toml.Scalar

/-!
# TOML statements

A document is a list of statements, each of which ends with its line: a key with a value, or a
header that says to which table the following keys belong.
-/

namespace Rollout.Toml

/-- A statement. A dotted key and the name in a header are given by the parts in front of the
last one, and the last one. -/
inductive Statement where
  | keyValue (path : List String) (key : String) (value : Value)
  | header (path : List String) (key : String)
  | nextHeader (path : List String) (key : String)

/-! ## White space and comments -/

/-- A text without the blanks and tabs at its front. -/
def skipWhite (cs : List Char) : List Char :=
  cs.dropWhile isWhite

/-- The characters of comments. -/
def isCommentChar (c : Char) : Bool :=
  c != '\n' && !isControl c

/-- A text without a comment at its front. -/
def skipComment : List Char → List Char
  | '#' :: cs => cs.dropWhile isCommentChar
  | cs => cs

/-- What follows the end of a line: a line break, or nothing if the text ends. -/
def afterLine? (cs : List Char) : Option (List Char) :=
  if cs.isEmpty then some [] else afterNewline? cs

/-- What follows the rest of a line that holds nothing more than white space and a comment. -/
def endLine? (cs : List Char) : Option (List Char) :=
  afterLine? (skipComment (skipWhite cs))

private theorem length_skipComment (cs : List Char) : (skipComment cs).length ≤ cs.length := by
  unfold skipComment
  split
  · next rest =>
    have := Text.length_dropWhile_le isCommentChar rest
    rw [List.length_cons]
    omega
  · exact Nat.le_refl _

private theorem length_afterFiller {cs rest : List Char}
    (h : afterNewline? (skipComment (skipWhite cs)) = some rest) : rest.length < cs.length := by
  have hnewline := length_afterNewline h
  have hcomment := length_skipComment (skipWhite cs)
  have hwhite : (skipWhite cs).length ≤ cs.length := Text.length_dropWhile_le isWhite cs
  omega

/-- A text without white space, comments and line breaks at its front, as they may stand
between the items of an array. -/
def skipFiller (cs : List Char) : List Char :=
  match h : afterNewline? (skipComment (skipWhite cs)) with
  | some rest =>
    have := length_afterFiller h
    skipFiller rest
  | none => skipComment (skipWhite cs)
termination_by cs.length

/-! ## Keys -/

/-- The characters of keys without quotes. -/
def isBareKeyChar (c : Char) : Bool :=
  c.isAlphanum || c == '_' || c == '-'

/-- Reads one part of a key, in quotes or without. -/
def readKeyPart (cs : List Char) : Option (String × List Char) :=
  match readLineString cs with
  | some (text, rest) => some (String.ofList text, rest)
  | none =>
    match cs.takeWhile isBareKeyChar with
    | [] => none
    | bare => some (String.ofList bare, cs.dropWhile isBareKeyChar)

/-- A key has fewer parts than this, and arrays and tables written in one line stand fewer
levels inside one another. -/
def nestingLimit : Nat :=
  80

/-- Reads the parts of a key, with points between them and white space around each. There must
be at most `limit` of them. -/
def readKeyParts : (limit : Nat) → List Char → Option (List String × String × List Char)
  | 0, _ => none
  | limit + 1, cs => do
    let (part, rest) ← readKeyPart (skipWhite cs)
    match skipWhite rest with
    | '.' :: rest =>
      let (path, key, rest) ← readKeyParts limit rest
      return (part :: path, key, rest)
    | rest => return ([], part, rest)

/-- Reads a key. -/
def readKey (cs : List Char) : Option (List String × String × List Char) :=
  readKeyParts (nestingLimit - 1) cs

/-! ## Values -/

/-- A reader of values: the value in front of a text, and what follows it. -/
abbrev ValueReader : Type :=
  List Char → Option (Value × List Char)

/-- Reads the items of an array up to its closing bracket, with a reader of one item. -/
def readItems (read : ValueReader) (cs : List Char) : Option (List Value × List Char) :=
  match skipFiller cs with
  | [] => none
  | c :: tail =>
    if c = ']' then some ([], tail)
    else do
      let (item, rest) ← read (c :: tail)
      match skipFiller rest with
      | ',' :: rest =>
        if rest.length < cs.length then
          let (items, rest) ← readItems read rest
          return (item :: items, rest)
        else none
      | ']' :: rest => return ([item], rest)
      | _ => none
termination_by cs.length

/-- Reads the entries of a table in one line up to its closing brace, with a reader of one
value. At least one is due. -/
def readInlineEntries (read : ValueReader) (entries : Entries) (cs : List Char) :
    Option (Entries × List Char) := do
  let (path, key, rest) ← readKey cs
  let (value, rest) ← read (skipWhite (← after? '=' rest))
  let entries ← entries.addDotted? path key value .inline
  match skipWhite rest with
  | ',' :: rest =>
    if rest.length < cs.length then readInlineEntries read entries rest else none
  | '\x7d' :: rest => return (entries, rest)
  | _ => none
termination_by cs.length

/-- Reads a table in one line after its opening brace. -/
def readInlineTable (read : ValueReader) (cs : List Char) : Option (Entries × List Char) :=
  match skipWhite cs with
  | '\x7d' :: rest => some ([], rest)
  | rest => readInlineEntries read [] rest

/-- Reads a value in which arrays and tables stand at most `levels` deep. -/
def readValueWithin : (levels : Nat) → ValueReader
  | levels, c :: rest =>
    if c = '"' ∨ c = '\'' then
      (readString (c :: rest)).map fun (text, rest) => (.string (String.ofList text), rest)
    else if c = '[' then
      match levels with
      | 0 => none
      | levels + 1 =>
        (readItems (readValueWithin levels) rest).map fun (items, rest) => (.array items, rest)
    else if c = '\x7b' then
      match levels with
      | 0 => none
      | levels + 1 =>
        (readInlineTable (readValueWithin levels) rest).map fun (entries, rest) =>
          (.table .inline entries, rest)
    else readScalar (c :: rest)
  | _, [] => none

/-- Reads a value. -/
def readValue : ValueReader :=
  readValueWithin (nestingLimit - 1)

/-! ## Statements -/

/-- Reads a header after its opening bracket or brackets, up to the end of its line. -/
def readHeader (closing : List Char) (cs : List Char) :
    Option (List String × String × List Char) := do
  let (path, key, rest) ← readKey cs
  if closing.isPrefixOf rest then
    return (path, key, ← endLine? (rest.drop closing.length))
  else none

/-- Reads a key and its value, up to the end of the line. -/
def readKeyValue (cs : List Char) : Option (Statement × List Char) := do
  let (path, key, rest) ← readKey cs
  let (value, rest) ← readValue (skipWhite (← after? '=' rest))
  return (.keyValue path key value, ← endLine? rest)

/-- Reads one line of a document, which may hold no statement; a value may make it span
several. -/
def readLine (cs : List Char) : Option (Option Statement × List Char) :=
  match skipWhite cs with
  | [] => some (none, [])
  | '[' :: '[' :: rest =>
    (readHeader [']', ']'] rest).map fun (path, key, rest) => (some (.nextHeader path key), rest)
  | '[' :: rest =>
    (readHeader [']'] rest).map fun (path, key, rest) => (some (.header path key), rest)
  | c :: rest =>
    if c = '#' ∨ c = '\n' ∨ c = '\r' then (endLine? (c :: rest)).map fun rest => (none, rest)
    else (readKeyValue (c :: rest)).map fun (statement, rest) => (some statement, rest)

/-- Reads all statements of a document. -/
def readStatements (cs : List Char) : Option (List Statement) :=
  match cs with
  | [] => some []
  | c :: tail => do
    let (statement, rest) ← readLine (c :: tail)
    if rest.length < (c :: tail).length then
      return statement.toList ++ (← readStatements rest)
    else none
termination_by cs.length
decreasing_by simp only [List.length_cons] at *; omega

end Rollout.Toml
