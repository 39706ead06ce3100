import Rollout.Json.Basic
import Rollout.Text.Hexadecimal
import Rollout.Text.Numeral

/-!
# JSON texts

Stored records are written without white space; what an operator sees is spread over indented
lines. In strings only quotes, backslashes and control characters are escaped.
-/

namespace Rollout.Json

/-- A character as it stands inside a string literal. -/
def escape (c : Char) : List Char :=
  if c = '"' then ['\\', '"']
  else if c = '\\' then ['\\', '\\']
  else if c = '\x08' then ['\\', 'b']
  else if c = '\x0c' then ['\\', 'f']
  else if c = '\n' then ['\\', 'n']
  else if c = '\r' then ['\\', 'r']
  else if c = '\t' then ['\\', 't']
  else if c.toNat < 0x20 then
    ['\\', 'u', '0', '0', Text.hexDigit (c.toNat / 16), Text.hexDigit (c.toNat % 16)]
  else [c]

/-- A string literal. -/
def quote (cs : List Char) : List Char :=
  '"' :: cs.flatMap escape ++ ['"']

/-- A number: its digits, and an exponent where it is not a plain natural number. -/
def Number.render : Number → List Char
  | .natural n => Text.digits n
  | .decimal negative significand exponent =>
    (if negative then ['-'] else []) ++ Text.digits significand ++ 'e' ::
      (if exponent < 0 then ['-'] else []) ++ Text.digits exponent.natAbs

/-- The literal for a text; half of a surrogate pair is written for one that is no text. -/
def renderText : Option String → List Char
  | some s => quote s.toList
  | none => '"' :: '\\' :: 'u' :: 'd' :: '8' :: '0' :: '0' :: ['"']

mutual

/-- A value without white space. -/
def render : Json → List Char
  | .null => ['n', 'u', 'l', 'l']
  | .bool true => ['t', 'r', 'u', 'e']
  | .bool false => ['f', 'a', 'l', 's', 'e']
  | .number n => n.render
  | .string s => renderText s
  | .array [] => ['[', ']']
  | .array (item :: rest) => '[' :: item.render ++ renderItems rest ++ [']']
  | .object [] => ['\x7b', '\x7d']
  | .object ((name, value) :: rest) =>
    '\x7b' :: renderText name ++ ':' :: value.render ++ renderMembers rest ++ ['\x7d']

/-- Further items, each after a comma. -/
def renderItems : List Json → List Char
  | [] => []
  | item :: rest => ',' :: item.render ++ renderItems rest

/-- Further members, each after a comma. -/
def renderMembers : List (Option String × Json) → List Char
  | [] => []
  | (name, value) :: rest =>
    ',' :: renderText name ++ ':' :: value.render ++ renderMembers rest

end

/-- The text of a value without white space. -/
def compact (json : Json) : String :=
  String.ofList json.render

/-- The start of a line at a depth: two blanks a level. -/
def newLine (level : Nat) : List Char :=
  '\n' :: List.replicate (2 * level) ' '

mutual

/-- A value over several lines, whose items and members stand one level deeper. -/
def layOut (level : Nat) : Json → List Char
  | .array (item :: rest) =>
    '[' :: newLine (level + 1) ++ layOut (level + 1) item ++ layOutItems level rest ++
      newLine level ++ [']']
  | .object ((name, value) :: rest) =>
    '\x7b' :: newLine (level + 1) ++ renderText name ++ ':' :: ' ' :: layOut (level + 1) value ++
      layOutMembers level rest ++ newLine level ++ ['\x7d']
  | json => json.render

/-- Further items, each on a line of its own. -/
def layOutItems (level : Nat) : List Json → List Char
  | [] => []
  | item :: rest =>
    ',' :: newLine (level + 1) ++ layOut (level + 1) item ++ layOutItems level rest

/-- Further members, each on a line of its own. -/
def layOutMembers (level : Nat) : List (Option String × Json) → List Char
  | [] => []
  | (name, value) :: rest =>
    ',' :: newLine (level + 1) ++ renderText name ++ ':' :: ' ' :: layOut (level + 1) value ++
      layOutMembers level rest

end

/-- The text of a value over several indented lines. -/
def pretty (json : Json) : String :=
  String.ofList (layOut 0 json)

end Rollout.Json
