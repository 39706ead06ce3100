import Rollout.Text.Hexadecimal
import Rollout.Text.Scan

/-!
# Quoted strings in TOML

A string is written between double quotes, with escapes, or between single quotes as it is;
three quotes allow line breaks. Writing takes the first of these forms that needs no escapes,
and only then escapes. Reading undoes each form.
-/

namespace Rollout.Toml

/-- The characters that no string may hold unescaped: control characters other than the tab
and the line break. -/
def isControl (c : Char) : Bool :=
  (c.toNat < 0x20 && c != '\t' && c != '\n') || c.toNat == 0x7F

/-- Whether a character stands three times in a row. -/
def hasTriple (q : Char) : List Char → Bool
  | a :: b :: c :: rest => (a == q && b == q && c == q) || hasTriple q (b :: c :: rest)
  | _ => false

/-! ## Writing -/

/-- The forms in which a string may be written. -/
inductive Style where
  | basic
  | literal
  | multilineBasic
  | multilineLiteral
  deriving DecidableEq, Repr

/-- The first form that fits a text without escapes; else a basic form with them, over several
lines if the text has several. -/
def Style.choose (cs : List Char) : Style :=
  let control := cs.any isControl
  let newline := cs.contains '\n'
  let backslash := cs.contains '\\'
  if !control && !backslash && !newline && !cs.contains '"' then .basic
  else if !control && !newline && !cs.contains '\'' then .literal
  else if !control && !backslash && !hasTriple '"' cs then .multilineBasic
  else if !control && !hasTriple '\'' cs then .multilineLiteral
  else if newline then .multilineBasic
  else .basic

/-- The escape of a character that needs one wherever it stands in a basic string. -/
def escape? (c : Char) : Option (List Char) :=
  if c = '\x08' then some ['\\', 'b']
  else if c = '\t' then some ['\\', 't']
  else if c = '\x0c' then some ['\\', 'f']
  else if c = '\r' then some ['\\', 'r']
  else if c = '\\' then some ['\\', '\\']
  else if isControl c then
    some ['\\', 'u', '0', '0', Text.hexDigitUpper (c.toNat / 16), Text.hexDigitUpper (c.toNat % 16)]
  else none

/-- The inside of a basic string after `run` unescaped quotes. Over several lines, line breaks
stand as they are and so do up to two quotes in a row; else both are escaped. -/
def escapeFrom (multiline : Bool) (run : Nat) : List Char → List Char
  | [] => []
  | c :: rest =>
    if c = '"' then
      if multiline && run < 2 then '"' :: escapeFrom multiline (run + 1) rest
      else '\\' :: '"' :: escapeFrom multiline 0 rest
    else if c = '\n' && !multiline then '\\' :: 'n' :: escapeFrom multiline 0 rest
    else
      match escape? c with
      | some escaped => escaped ++ escapeFrom multiline 0 rest
      | none => c :: escapeFrom multiline 0 rest

/-- The line break after an opening delimiter, which does not belong to the text. -/
def leadingNewline (cs : List Char) : List Char :=
  if cs.contains '\n' then ['\n'] else []

/-- A text as a string. -/
def quote (s : String) : List Char :=
  let cs := s.toList
  match Style.choose cs with
  | .basic => ['"'] ++ escapeFrom false 0 cs ++ ['"']
  | .literal => ['\''] ++ cs ++ ['\'']
  | .multilineBasic =>
    ['"', '"', '"'] ++ leadingNewline cs ++ escapeFrom true 0 cs ++ ['"', '"', '"']
  | .multilineLiteral => ['\'', '\'', '\''] ++ leadingNewline cs ++ cs ++ ['\'', '\'', '\'']

/-! ## Reading -/

/-- The character with a code point given in hexadecimal, unless that is half of a surrogate
pair or out of range. -/
def codePoint? (ds : List Char) : Option Char := do
  let n := (← ds.mapM Text.hexValue?).foldl (fun n d => 16 * n + d) 0
  if h : n.isValidChar then some (Char.ofNatAux n h) else none

/-- The character that a one-letter escape stands for. -/
def escaped? (c : Char) : Option Char :=
  if c = '"' ∨ c = '\\' then some c
  else if c = 'b' then some '\x08'
  else if c = 't' then some '\t'
  else if c = 'n' then some '\n'
  else if c = 'f' then some '\x0c'
  else if c = 'r' then some '\r'
  else none

/-- Reads a code point of exactly so many hexadecimal digits. -/
def readCodePoint (width : Nat) (cs : List Char) : Option (Char × List Char) :=
  if width ≤ cs.length then (codePoint? (cs.take width)).map fun c => (c, cs.drop width) else none

/-- Reads an escape after its backslash. -/
def readEscape : List Char → Option (Char × List Char)
  | [] => none
  | c :: rest =>
    if c = 'u' then readCodePoint 4 rest
    else if c = 'U' then readCodePoint 8 rest
    else (escaped? c).map fun c => (c, rest)

private theorem length_readCodePoint {width : Nat} {cs rest : List Char} {c : Char}
    (h : readCodePoint width cs = some (c, rest)) : rest.length ≤ cs.length := by
  unfold readCodePoint at h
  split at h
  · obtain ⟨_, _, h⟩ := Option.map_eq_some_iff.mp h
    rw [← (Prod.mk.inj h).2, List.length_drop]
    omega
  · simp at h

/-- An escape has at least one character after its backslash. -/
theorem length_readEscape {cs rest : List Char} {c : Char} (h : readEscape cs = some (c, rest)) :
    rest.length < cs.length := by
  unfold readEscape at h
  split at h
  · simp at h
  · split at h
    · exact Nat.lt_succ_of_le (length_readCodePoint h)
    · split at h
      · exact Nat.lt_succ_of_le (length_readCodePoint h)
      · obtain ⟨_, _, h⟩ := Option.map_eq_some_iff.mp h
        rw [← (Prod.mk.inj h).2]
        exact Nat.lt_succ_self _

/-- A blank or a tab. -/
def isWhite (c : Char) : Bool :=
  c == ' ' || c == '\t'

/-- What follows a line break at the front of a text. -/
def afterNewline? : List Char → Option (List Char)
  | '\n' :: rest => some rest
  | '\r' :: '\n' :: rest => some rest
  | _ => none

/-- A text without the white space and line breaks at its front. -/
def skipLines : List Char → List Char
  | '\r' :: '\n' :: rest => skipLines rest
  | c :: rest => if isWhite c || c == '\n' then skipLines rest else c :: rest
  | [] => []

/-- What follows a line break that a backslash takes back, with the white space around it. -/
def afterJoin? (cs : List Char) : Option (List Char) :=
  (afterNewline? (cs.dropWhile isWhite)).map skipLines

/-- A line break has at least one character. -/
theorem length_afterNewline {cs rest : List Char} (h : afterNewline? cs = some rest) :
    rest.length < cs.length := by
  unfold afterNewline? at h
  split at h <;> cases h <;> simp only [List.length_cons] <;> omega

private theorem length_skipLines (cs : List Char) : (skipLines cs).length ≤ cs.length := by
  fun_induction skipLines cs <;> simp_all <;> omega

/-- A break that joins two lines has at least one character. -/
theorem length_afterJoin {cs rest : List Char} (h : afterJoin? cs = some rest) :
    rest.length < cs.length := by
  obtain ⟨tail, htail, rfl⟩ := Option.map_eq_some_iff.mp h
  have := length_afterNewline htail
  have := length_skipLines tail
  have := Text.length_dropWhile_le isWhite cs
  omega

/-- Puts a character in front of what has been read. -/
def consRead (c : Char) (read : Option (List Char × List Char)) :
    Option (List Char × List Char) :=
  read.map fun (text, rest) => (c :: text, rest)

/-- Reads a basic string after its opening quote. -/
def readBasic (cs : List Char) : Option (List Char × List Char) :=
  match cs with
  | [] => none
  | c :: rest =>
    if c = '"' then some ([], rest)
    else if c = '\\' then
      match h : readEscape rest with
      | some (e, rest') =>
        have := length_readEscape h
        consRead e (readBasic rest')
      | none => none
    else if isControl c || c = '\n' then none
    else consRead c (readBasic rest)
termination_by cs.length

/-- Reads a literal string after its opening quote. -/
def readLiteral : List Char → Option (List Char × List Char)
  | [] => none
  | c :: rest =>
    if c = '\'' then some ([], rest)
    else if isControl c || c = '\n' then none
    else consRead c (readLiteral rest)

/-- How a string of several lines goes on at a quote: three quotes end it, and up to two more
in front of them belong to the text. -/
def closing? (q : Char) : List Char → Option (List Char × List Char)
  | a :: b :: c :: rest =>
    if a = q ∧ b = q ∧ c = q then
      match rest with
      | d :: e :: rest' =>
        if d = q ∧ e = q then some ([q, q], rest')
        else if d = q then some ([q], e :: rest')
        else some ([], rest)
      | [d] => if d = q then some ([q], []) else some ([], [d])
      | [] => some ([], [])
    else none
  | _ => none

/-- Reads a basic string of several lines after its opening quotes. -/
def readMultilineBasic (cs : List Char) : Option (List Char × List Char) :=
  match closing? '"' cs with
  | some found => some found
  | none =>
    match cs with
    | [] => none
    | '\r' :: '\n' :: rest => consRead '\n' (readMultilineBasic rest)
    | c :: rest =>
      if c = '\\' then
        match h : afterJoin? rest with
        | some rest' =>
          have := length_afterJoin h
          readMultilineBasic rest'
        | none =>
          match h : readEscape rest with
          | some (e, rest') =>
            have := length_readEscape h
            consRead e (readMultilineBasic rest')
          | none => none
      else if isControl c then none
      else consRead c (readMultilineBasic rest)
termination_by cs.length

/-- Reads a literal string of several lines after its opening quotes. -/
def readMultilineLiteral (cs : List Char) : Option (List Char × List Char) :=
  match closing? '\'' cs with
  | some found => some found
  | none =>
    match cs with
    | [] => none
    | '\r' :: '\n' :: rest => consRead '\n' (readMultilineLiteral rest)
    | c :: rest => if isControl c then none else consRead c (readMultilineLiteral rest)

/-- A text without a line break at its front. -/
def dropNewline (cs : List Char) : List Char :=
  (afterNewline? cs).getD cs

/-- Reads a string of one line. -/
def readLineString : List Char → Option (List Char × List Char)
  | c :: rest =>
    if c = '"' then readBasic rest else if c = '\'' then readLiteral rest else none
  | [] => none

/-- Reads a string of any form. -/
def readString (cs : List Char) : Option (List Char × List Char) :=
  if ['"', '"', '"'].isPrefixOf cs then readMultilineBasic (dropNewline (cs.drop 3))
  else if ['\'', '\'', '\''].isPrefixOf cs then readMultilineLiteral (dropNewline (cs.drop 3))
  else readLineString cs

end Rollout.Toml
