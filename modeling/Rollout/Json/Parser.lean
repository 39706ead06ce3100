import Rollout.Json.Token

/-!
# From JSON tokens to a value

Tokens are taken one after another by a machine whose stack holds the arrays and objects that
are still open. Its state says what may come next, so a text is refused at the first token
that cannot follow.
-/

namespace Rollout.Json

/-- An array or object that is still open, around the value being read. What has been read of
it is kept with the last piece first. -/
inductive Frame where
  | array (items : List Json)
  | object (done : List (Option String × Json)) (key : Option String)

/-- What has been read, and what may come next. Every state carries what is open around it,
innermost first. -/
inductive Reading where
  /-- A value is due. -/
  | value (outer : List Frame)
  /-- An array has just been opened: an item or its end is due. -/
  | arrayStart (outer : List Frame)
  /-- An object has just been opened: a name or its end is due. -/
  | objectStart (outer : List Frame)
  /-- A member has been followed by a comma: a name is due. -/
  | name (done : List (Option String × Json)) (outer : List Frame)
  /-- A name has been read: a colon is due. -/
  | colon (done : List (Option String × Json)) (key : Option String) (outer : List Frame)
  /-- A value is complete: a comma or the end of what is around it is due. -/
  | complete (result : Json) (outer : List Frame)

namespace Reading

/-- The reading after the first token of a value. -/
def begin? (outer : List Frame) : Token → Option Reading
  | .null => some (.complete .null outer)
  | .bool b => some (.complete (.bool b) outer)
  | .number n => some (.complete (.number n) outer)
  | .string s => some (.complete (.string s) outer)
  | .openArray => some (.arrayStart outer)
  | .openObject => some (.objectStart outer)
  | _ => none

/-- The reading after one more token, unless that token cannot follow. -/
def next? : Reading → Token → Option Reading
  | .value outer, token => begin? outer token
  | .arrayStart outer, .closeArray => some (.complete (.array []) outer)
  | .arrayStart outer, token => begin? (.array [] :: outer) token
  | .objectStart outer, .closeObject => some (.complete (.object []) outer)
  | .objectStart outer, .string s => some (.colon [] s outer)
  | .name done outer, .string s => some (.colon done s outer)
  | .colon done key outer, .colon => some (.value (.object done key :: outer))
  | .complete v (.array items :: outer), .comma => some (.value (.array (v :: items) :: outer))
  | .complete v (.array items :: outer), .closeArray =>
    some (.complete (.array (v :: items).reverse) outer)
  | .complete v (.object done key :: outer), .comma => some (.name ((key, v) :: done) outer)
  | .complete v (.object done key :: outer), .closeObject =>
    some (.complete (.object ((key, v) :: done).reverse) outer)
  | _, _ => none

/-- The value that has been read when nothing is open any more. -/
def result? : Reading → Option Json
  | .complete v [] => some v
  | _ => none

end Reading

/-- The value that tokens make up. -/
def ofTokens? (tokens : List Token) : Option Json :=
  (tokens.foldlM Reading.next? (.value [])).bind Reading.result?

/-- The value that a text denotes, if it is a JSON text. -/
def parse? (s : String) : Option Json :=
  (tokens? s.toList).bind ofTokens?

end Rollout.Json
