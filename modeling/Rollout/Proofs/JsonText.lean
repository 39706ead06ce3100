import Rollout.Json.Parser
import Rollout.Json.Printer
import Rollout.Proofs.JsonGrammar

/-!
# Reading JSON texts

The texts of a value are those that spell its tokens, and each of them is read as that value. The
text without white space that is written for a value is one of them, so every value is read back
as it was.
-/

namespace Rollout.Json

/-! ## The tokens of a value -/

mutual

/-- The tokens of a value. -/
def tokens : Json → List Token
  | .null => [.null]
  | .bool b => [.bool b]
  | .number n => [.number n]
  | .string s => [.string s]
  | .array [] => [.openArray, .closeArray]
  | .array (item :: rest) => .openArray :: item.tokens ++ tokensOfItems rest ++ [.closeArray]
  | .object [] => [.openObject, .closeObject]
  | .object ((name, value) :: rest) =>
    .openObject :: .string name :: .colon :: value.tokens ++ tokensOfMembers rest ++ [.closeObject]

/-- The tokens of further items, each after a comma. -/
def tokensOfItems : List Json → List Token
  | [] => []
  | item :: rest => .comma :: item.tokens ++ tokensOfItems rest

/-- The tokens of further members, each after a comma. -/
def tokensOfMembers : List (Option String × Json) → List Token
  | [] => []
  | (name, value) :: rest =>
    .comma :: .string name :: .colon :: value.tokens ++ tokensOfMembers rest

end

/-- The texts of a value: its tokens in order, in any spelling and with any blanks. -/
def IsText (json : Json) (s : String) : Prop :=
  Spelled json.tokens s.toList

/-- Tokens that may come after any others. -/
structure Follows (ts : List Token) : Prop where
  /-- They can stand next to one another. -/
  chain : ts.IsChain Apart
  /-- The first of them is no number, and so can stand after one. -/
  first : ∀ token ∈ ts.head?, ∀ n, token ≠ .number n

private theorem isChain_cons {token : Token} {ts : List Token} (hfixed : ∀ n, token ≠ .number n)
    (h : ts.IsChain Apart) : (token :: ts).IsChain Apart :=
  List.isChain_cons.mpr ⟨fun _ _ n _ hn => absurd hn (hfixed n), h⟩

private theorem follows_cons {token : Token} {ts : List Token} (hfixed : ∀ n, token ≠ .number n)
    (h : ts.IsChain Apart) : Follows (token :: ts) := by
  refine ⟨isChain_cons hfixed h, fun first hfirst => ?_⟩
  obtain rfl : token = first := by simpa using hfirst
  exact hfixed

mutual

/-- Two numbers never come together among the tokens of a value. -/
theorem isChain_tokens (json : Json) {ts : List Token} (hts : Follows ts) :
    (json.tokens ++ ts).IsChain Apart := by
  match json with
  | .null | .bool _ | .string _ => exact isChain_cons (by simp) hts.chain
  | .number n =>
    exact List.isChain_cons.mpr ⟨fun next hnext _ m _ => hts.first next hnext m, hts.chain⟩
  | .array [] => exact isChain_cons (by simp) (isChain_cons (by simp) hts.chain)
  | .array (item :: items) =>
    have hclose : Follows (.closeArray :: ts) := follows_cons (by simp) hts.chain
    have hitem := isChain_tokens item (follows_tokensOfItems items hclose)
    simp only [tokens, List.cons_append, List.append_assoc, List.nil_append]
    exact isChain_cons (by simp) hitem
  | .object [] => exact isChain_cons (by simp) (isChain_cons (by simp) hts.chain)
  | .object ((name, value) :: members) =>
    have hclose : Follows (.closeObject :: ts) := follows_cons (by simp) hts.chain
    have hvalue := isChain_tokens value (follows_tokensOfMembers members hclose)
    simp only [tokens, List.cons_append, List.append_assoc, List.nil_append]
    exact isChain_cons (by simp) (isChain_cons (by simp) (isChain_cons (by simp) hvalue))

private theorem follows_tokensOfItems (items : List Json) {ts : List Token} (hts : Follows ts) :
    Follows (tokensOfItems items ++ ts) := by
  match items with
  | [] => exact hts
  | item :: items =>
    have hitem := isChain_tokens item (follows_tokensOfItems items hts)
    simp only [tokensOfItems, List.cons_append, List.append_assoc]
    exact follows_cons (by simp) hitem

private theorem follows_tokensOfMembers (members : List (Option String × Json)) {ts : List Token}
    (hts : Follows ts) : Follows (tokensOfMembers members ++ ts) := by
  match members with
  | [] => exact hts
  | (name, value) :: members =>
    have hvalue := isChain_tokens value (follows_tokensOfMembers members hts)
    simp only [tokensOfMembers, List.cons_append, List.append_assoc]
    exact follows_cons (by simp) (isChain_cons (by simp) (isChain_cons (by simp) hvalue))

end

/-! ## The machine -/

/-- A value has a first token, and the machine takes it in an empty array as it does before any
value. -/
theorem exists_tokens_eq_cons (json : Json) :
    ∃ token ts, json.tokens = token :: ts ∧ ∀ outer,
      Reading.next? (.arrayStart outer) token =
        Reading.next? (.value (.array [] :: outer)) token := by
  match json with
  | .null | .bool _ | .number _ | .string _ | .array [] | .array (_ :: _) | .object []
  | .object (_ :: _) => exact ⟨_, _, rfl, fun _ => rfl⟩

mutual

/-- Over the tokens of a value the machine goes from where a value is due to where it is
complete. -/
theorem foldlM_tokens (json : Json) (outer : List Frame) (rest : List Token) :
    (json.tokens ++ rest).foldlM Reading.next? (.value outer) =
      rest.foldlM Reading.next? (.complete json outer) := by
  match json with
  | .null | .bool _ | .number _ | .string _ | .array [] | .object [] => rfl
  | .array (item :: items) =>
    obtain ⟨token, ts, htokens, hfirst⟩ := exists_tokens_eq_cons item
    have hitem := foldlM_tokens item (.array [] :: outer)
      (tokensOfItems items ++ .closeArray :: rest)
    rw [htokens, List.cons_append, List.foldlM_cons, ← hfirst] at hitem
    have hitems := foldlM_tokensOfItems items item [] outer rest
    simp only [tokens, htokens, List.cons_append, List.append_assoc, List.nil_append,
      List.foldlM_cons]
    change ((Reading.next? (.arrayStart outer) token).bind _) = _
    exact hitem.trans hitems
  | .object ((name, value) :: members) =>
    have hvalue := foldlM_tokens value (.object [] name :: outer)
      (tokensOfMembers members ++ .closeObject :: rest)
    have hmembers := foldlM_tokensOfMembers members name value [] outer rest
    simp only [tokens, List.cons_append, List.append_assoc, List.nil_append]
    exact hvalue.trans hmembers

/-- Over the tokens of further items the machine completes the array. -/
theorem foldlM_tokensOfItems (items : List Json) (item : Json) (done : List Json)
    (outer : List Frame) (rest : List Token) :
    (tokensOfItems items ++ .closeArray :: rest).foldlM Reading.next?
        (.complete item (.array done :: outer)) =
      rest.foldlM Reading.next? (.complete (.array (done.reverse ++ item :: items)) outer) := by
  match items with
  | [] =>
    rw [← List.reverse_cons]
    rfl
  | next :: items =>
    have hnext := foldlM_tokens next (.array (item :: done) :: outer)
      (tokensOfItems items ++ .closeArray :: rest)
    have hitems := foldlM_tokensOfItems items next (item :: done) outer rest
    rw [List.reverse_cons, List.append_assoc, List.singleton_append] at hitems
    simp only [tokensOfItems, List.cons_append, List.append_assoc]
    exact hnext.trans hitems

/-- Over the tokens of further members the machine completes the object. -/
theorem foldlM_tokensOfMembers (members : List (Option String × Json)) (name : Option String)
    (value : Json) (done : List (Option String × Json)) (outer : List Frame)
    (rest : List Token) :
    (tokensOfMembers members ++ .closeObject :: rest).foldlM Reading.next?
        (.complete value (.object done name :: outer)) =
      rest.foldlM Reading.next?
        (.complete (.object (done.reverse ++ (name, value) :: members)) outer) := by
  match members with
  | [] =>
    rw [← List.reverse_cons]
    rfl
  | (next, v) :: members =>
    have hnext := foldlM_tokens v (.object ((name, value) :: done) next :: outer)
      (tokensOfMembers members ++ .closeObject :: rest)
    have hmembers := foldlM_tokensOfMembers members next v ((name, value) :: done) outer rest
    rw [List.reverse_cons, List.append_assoc, List.singleton_append] at hmembers
    simp only [tokensOfMembers, List.cons_append, List.append_assoc]
    exact hnext.trans hmembers

end

/-- Every text of a value is read as that value. -/
theorem parse?_of_isText {json : Json} {s : String} (h : json.IsText s) : parse? s = some json := by
  have hchain := isChain_tokens json ⟨.nil, by simp⟩
  have hvalue := foldlM_tokens json [] []
  rw [List.append_nil] at hchain hvalue
  rw [parse?, h.tokens? hchain, Option.bind_some, ofTokens?, hvalue]
  rfl

/-! ## The written text -/

/-- Without blanks between them, a token's text goes before the text of what follows. -/
theorem Spelled.cons {token : Token} {ts : List Token} {cs rest : List Char}
    (h : TokenText token cs) (hrest : Spelled ts rest) : Spelled (token :: ts) (cs ++ rest) := by
  have hspelled : Spelled (token :: ts) ([] ++ (cs ++ rest)) := .token (by simp) h hrest
  exact hspelled

private theorem Spelled.mark {token : Token} {c : Char} {ts : List Token} {rest : List Char}
    (h : token.fixed? = some [c]) (hrest : Spelled ts rest) : Spelled (token :: ts) (c :: rest) :=
  .cons (.fixed h) hrest

/-- A control character is escaped by its code unit. -/
theorem unitText_control {n : Nat} (hn : n < 0x20) : UnitText (.code n)
    ['\\', 'u', '0', '0', Text.hexDigit (n / 16), Text.hexDigit (n % 16)] := by
  have hfirst : n / 4096 = 0 := by omega
  have hsecond : n / 256 % 16 = 0 := by omega
  have hthird : n / 16 % 16 = n / 16 := by omega
  refine .code (by omega) (Or.inl ?_) (Or.inl ?_) (Or.inl ?_) (Or.inl rfl)
  · rw [hfirst]
    rfl
  · rw [hsecond]
    rfl
  · rw [hthird]

/-- A character is written as one unit that stands for it. -/
theorem exists_unitText_escape (c : Char) :
    ∃ unit, CharUnits c [unit] ∧ UnitText unit (escape c) := by
  unfold escape
  split_ifs with hquote hslash hback hfeed hline hreturn htab hcontrol
  · exact ⟨_, .char, .short (by simp [hquote, shortEscapes])⟩
  · exact ⟨_, .char, .short (by simp [hslash, shortEscapes])⟩
  · exact ⟨_, .char, .short (by simp [hback, shortEscapes])⟩
  · exact ⟨_, .char, .short (by simp [hfeed, shortEscapes])⟩
  · exact ⟨_, .char, .short (by simp [hline, shortEscapes])⟩
  · exact ⟨_, .char, .short (by simp [hreturn, shortEscapes])⟩
  · exact ⟨_, .char, .short (by simp [htab, shortEscapes])⟩
  · exact ⟨_, .code (by omega), unitText_control hcontrol⟩
  · exact ⟨_, .char, .plain hquote hslash (by omega)⟩

/-- An escaped text is a text of units that give what was escaped. -/
theorem exists_unitsText_escape (cs : List Char) :
    ∃ units, TextUnits cs units ∧ UnitsText units (cs.flatMap escape) := by
  induction cs with
  | nil => exact ⟨[], .nil, .nil⟩
  | cons c cs ih =>
    obtain ⟨unit, hunit, hescape⟩ := exists_unitText_escape c
    obtain ⟨units, hunits, hescapes⟩ := ih
    exact ⟨[unit] ++ units, .cons hunit hunits, .cons hescape hescapes⟩

/-- What is written for a string is a text of it. -/
theorem tokenText_renderText (s : Option String) : TokenText (.string s) (renderText s) := by
  cases s with
  | some s =>
    obtain ⟨units, hunits, hescapes⟩ := exists_unitsText_escape s.toList
    exact .string (.text hunits hescapes)
  | none =>
    have hhalf : UnitText (.code 0xD800) ['\\', 'u', 'd', '8', '0', '0'] :=
      .code (by decide) (Or.inl rfl) (Or.inl rfl) (Or.inl rfl) (Or.inl rfl)
    refine .string (.broken (fun chars hchars => ?_) (.cons hhalf .nil))
    have hnone : spelled? [.code 0xD800] = none := rfl
    rw [hchars.spelled?] at hnone
    cases hnone

private theorem exponentText_render (e : Int) : ExponentText (some e)
    ('e' :: ((if e < 0 then ['-'] else []) ++ Text.digits e.natAbs)) := by
  have hdigits := isDigits_digits e.natAbs
  by_cases he : e < 0
  · have hminus : ExponentText _ ('e' :: '-' :: Text.digits e.natAbs) := .minus (Or.inl rfl) hdigits
    have hvalue : -Int.ofNat (Text.ofDigits (Text.digits e.natAbs)) = e := by
      rw [Text.ofDigits_digits, Int.ofNat_eq_natCast]
      omega
    rw [hvalue] at hminus
    rw [if_pos he]
    exact hminus
  · have hplain : ExponentText _ ('e' :: Text.digits e.natAbs) := .unsigned (Or.inl rfl) hdigits
    have hvalue : Int.ofNat (Text.ofDigits (Text.digits e.natAbs)) = e := by
      rw [Text.ofDigits_digits, Int.ofNat_eq_natCast]
      omega
    rw [hvalue] at hplain
    rw [if_neg he]
    exact hplain

/-- What is written for a number is a text of it. -/
theorem numberText_render (n : Number) : NumberText n n.render := by
  cases n with
  | natural n => exact .natural n
  | decimal negative significand exponent =>
    have h := NumberText.decimal negative significand .absent (exponentText_render exponent)
      (Or.inr (Or.inr (by simp)))
    simpa [Number.render, Text.ofDigits_digits] using h

mutual

/-- What is written for a value spells its tokens. -/
theorem spelled_render (json : Json) {ts : List Token} {rest : List Char} (h : Spelled ts rest) :
    Spelled (json.tokens ++ ts) (json.render ++ rest) := by
  match json with
  | .null | .bool true | .bool false => exact .cons (.fixed rfl) h
  | .number n => exact .cons (.number (numberText_render n)) h
  | .string s => exact .cons (tokenText_renderText s) h
  | .array [] => exact .mark rfl (.mark rfl h)
  | .array (item :: items) =>
    have hclose : Spelled (.closeArray :: ts) (']' :: rest) := .mark rfl h
    have hitem := spelled_render item (spelled_renderItems items hclose)
    simp only [tokens, render, List.cons_append, List.append_assoc, List.nil_append]
    exact .mark rfl hitem
  | .object [] => exact .mark rfl (.mark rfl h)
  | .object ((name, value) :: members) =>
    have hclose : Spelled (.closeObject :: ts) ('\x7d' :: rest) := .mark rfl h
    have hvalue := spelled_render value (spelled_renderMembers members hclose)
    simp only [tokens, render, List.cons_append, List.append_assoc, List.nil_append]
    exact .mark rfl (.cons (tokenText_renderText name) (.mark rfl hvalue))

private theorem spelled_renderItems (items : List Json) {ts : List Token} {rest : List Char}
    (h : Spelled ts rest) : Spelled (tokensOfItems items ++ ts) (renderItems items ++ rest) := by
  match items with
  | [] => exact h
  | item :: items =>
    have hitem := spelled_render item (spelled_renderItems items h)
    simp only [tokensOfItems, renderItems, List.cons_append, List.append_assoc]
    exact .mark rfl hitem

private theorem spelled_renderMembers (members : List (Option String × Json)) {ts : List Token}
    {rest : List Char} (h : Spelled ts rest) :
    Spelled (tokensOfMembers members ++ ts) (renderMembers members ++ rest) := by
  match members with
  | [] => exact h
  | (name, value) :: members =>
    have hvalue := spelled_render value (spelled_renderMembers members h)
    simp only [tokensOfMembers, renderMembers, List.cons_append, List.append_assoc]
    exact .mark rfl (.cons (tokenText_renderText name) (.mark rfl hvalue))

end

/-- What is written for a value is a text of it. -/
theorem isText_compact (json : Json) : json.IsText json.compact := by
  have hend : Spelled [] [] := .blank (by simp)
  have h := spelled_render json hend
  rw [List.append_nil, List.append_nil] at h
  rwa [IsText, compact, String.toList_ofList]

/-- A value is read back from what is written for it. -/
theorem parse_compact (json : Json) : parse? json.compact = some json :=
  parse?_of_isText json.isText_compact

end Rollout.Json
