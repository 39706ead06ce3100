import Rollout.Json.Basic
import Rollout.Text.Hexadecimal
import Rollout.Text.Numeral
import Rollout.Text.Scan

/-!
# JSON tokens

A text is first cut into tokens, which takes care of white space, escapes and the form of
numbers. How tokens make up a value is the concern of the parser.
-/

namespace Rollout.Json

/-- A token of a JSON text. -/
inductive Token where
  | openArray
  | closeArray
  | openObject
  | closeObject
  | comma
  | colon
  | null
  | bool (value : Bool)
  | number (value : Number)
  | string (text : Option String)
  deriving Repr

/-- The four characters that may stand between tokens. -/
def isSpace (c : Char) : Bool :=
  c = ' ' || c = '\t' || c = '\n' || c = '\r'

/-! ## Strings -/

/-- One unit of a string literal: a character, or a UTF-16 code unit given by number. -/
inductive Unit16 where
  | char (c : Char)
  | code (n : Nat)
  deriving Repr, DecidableEq

/-- The code unit that four hexadecimal digits give. -/
def codeUnit? (a b c d : Char) : Option Nat := do
  return ((← Text.hexValue? a) * 16 + (← Text.hexValue? b)) * 256 +
    ((← Text.hexValue? c) * 16 + (← Text.hexValue? d))

/-- The character that a one-letter escape stands for. -/
def escaped? (c : Char) : Option Char :=
  if c = '"' ∨ c = '\\' ∨ c = '/' then some c
  else if c = 'b' then some '\x08'
  else if c = 'f' then some '\x0c'
  else if c = 'n' then some '\n'
  else if c = 'r' then some '\r'
  else if c = 't' then some '\t'
  else none

/-- Reads the units of a string literal after its opening quote, up to and with the closing
one. Control characters must be escaped. -/
def scanUnits : List Char → Option (List Unit16 × List Char)
  | '"' :: rest => some ([], rest)
  | '\\' :: 'u' :: a :: b :: c :: d :: rest => do
    let n ← codeUnit? a b c d
    let (units, rest) ← scanUnits rest
    return (.code n :: units, rest)
  | '\\' :: e :: rest => do
    let c ← escaped? e
    let (units, rest) ← scanUnits rest
    return (.char c :: units, rest)
  | c :: rest =>
    if c.toNat < 0x20 ∨ c = '\\' then none
    else do
      let (units, rest) ← scanUnits rest
      return (.char c :: units, rest)
  | [] => none

/-- The text that units spell. A high surrogate must be followed by a low one; with it, it
stands for a character beyond the first 65536. -/
def spelled? : List Unit16 → Option (List Char)
  | [] => some []
  | .char c :: rest => (spelled? rest).map (c :: ·)
  | .code high :: .code low :: rest =>
    if high < 0xD800 ∨ 0xE000 ≤ high then
      (spelled? (.code low :: rest)).map (Char.ofNat high :: ·)
    else if high < 0xDC00 ∧ 0xDC00 ≤ low ∧ low < 0xE000 then
      (spelled? rest).map (Char.ofNat (0x10000 + (high - 0xD800) * 0x400 + (low - 0xDC00)) :: ·)
    else none
  | .code n :: rest =>
    if n < 0xD800 ∨ 0xE000 ≤ n then (spelled? rest).map (Char.ofNat n :: ·) else none

/-- Reads a string literal after its opening quote. -/
def scanString (cs : List Char) : Option (Option String × List Char) :=
  (scanUnits cs).map fun (units, rest) => ((spelled? units).map String.ofList, rest)

private theorem length_scanUnits {cs : List Char} {units : List Unit16} {rest : List Char}
    (h : scanUnits cs = some (units, rest)) : rest.length < cs.length := by
  fun_induction scanUnits cs generalizing units rest with
  | case1 rest' => simp_all
  | case2 a b c d tail ih =>
    simp only [Option.bind_eq_bind, Option.bind_eq_some_iff, Option.pure_def, Option.some.injEq,
      Prod.exists, Prod.mk.injEq] at h
    obtain ⟨_, _, _, _, htail, _, rfl⟩ := h
    have := ih htail
    simp only [List.length_cons]
    omega
  | case3 e tail _ ih =>
    simp only [Option.bind_eq_bind, Option.bind_eq_some_iff, Option.pure_def, Option.some.injEq,
      Prod.exists, Prod.mk.injEq] at h
    obtain ⟨_, _, _, _, htail, _, rfl⟩ := h
    have := ih htail
    simp only [List.length_cons]
    omega
  | case4 => simp at h
  | case5 c tail _ _ _ _ ih =>
    simp only [Option.bind_eq_bind, Option.bind_eq_some_iff, Option.pure_def, Option.some.injEq,
      Prod.exists, Prod.mk.injEq] at h
    obtain ⟨_, _, htail, _, rfl⟩ := h
    have := ih htail
    simp only [List.length_cons]
    omega
  | case6 => simp at h

private theorem length_scanString {cs : List Char} {text : Option String} {rest : List Char}
    (h : scanString cs = some (text, rest)) : rest.length < cs.length := by
  simp only [scanString, Option.map_eq_some_iff, Prod.mk.injEq, Prod.exists] at h
  obtain ⟨units, rest', h, _, rfl⟩ := h
  exact length_scanUnits h

/-! ## Numbers -/

/-- The digits at the front of a text, and what follows them. -/
def scanDigits (cs : List Char) : List Char × List Char :=
  (cs.takeWhile Text.isDigit, cs.dropWhile Text.isDigit)

/-- Reads the digits of a fraction, if a point follows. -/
def scanFraction : List Char → Option (List Char × List Char)
  | '.' :: cs =>
    match scanDigits cs with
    | ([], _) => none
    | found => some found
  | cs => some ([], cs)

/-- Reads an exponent, if its letter follows. -/
def scanExponent : List Char → Option (Option Int × List Char)
  | 'e' :: cs => exponent cs
  | 'E' :: cs => exponent cs
  | cs => some (none, cs)
where
  exponent : List Char → Option (Option Int × List Char)
    | '+' :: cs => (magnitude cs).map fun (n, rest) => (some (Int.ofNat n), rest)
    | '-' :: cs => (magnitude cs).map fun (n, rest) => (some (-Int.ofNat n), rest)
    | cs => (magnitude cs).map fun (n, rest) => (some (Int.ofNat n), rest)
  magnitude (cs : List Char) : Option (Nat × List Char) :=
    match scanDigits cs with
    | ([], _) => none
    | (ds, rest) => some (Text.ofDigits ds, rest)

/-- The whole part of a number: a zero alone, or digits that begin with another one. -/
def scanWhole (cs : List Char) : Option (List Char × List Char) :=
  match cs with
  | '0' :: rest => some (['0'], rest)
  | _ =>
    match scanDigits cs with
    | ([], _) => none
    | found => some found

/-- Reads a number without a sign. -/
def scanMagnitude (negative : Bool) (cs : List Char) : Option (Number × List Char) := do
  let (whole, cs) ← scanWhole cs
  let (fraction, cs) ← scanFraction cs
  let (exponent, cs) ← scanExponent cs
  match negative, fraction, exponent with
  | false, [], none => return (.natural (Text.ofDigits whole), cs)
  | _, _, _ =>
    return (.decimal negative (Text.ofDigits (whole ++ fraction))
      (exponent.getD 0 - fraction.length), cs)

/-- Reads a number. -/
def scanNumber : List Char → Option (Number × List Char)
  | '-' :: cs => scanMagnitude true cs
  | cs => scanMagnitude false cs

private theorem length_scanDigits (cs : List Char) : (scanDigits cs).2.length ≤ cs.length :=
  Text.length_dropWhile_le _ cs

private theorem length_scanFraction {cs ds rest : List Char}
    (h : scanFraction cs = some (ds, rest)) : rest.length ≤ cs.length := by
  unfold scanFraction at h
  split at h
  · next cs =>
    have := length_scanDigits cs
    split at h
    · simp at h
    · simp only [Option.some.injEq] at h
      rw [h] at this
      exact Nat.le_succ_of_le this
  · simp_all

private theorem length_scanExponent {cs rest : List Char} {e : Option Int}
    (h : scanExponent cs = some (e, rest)) : rest.length ≤ cs.length := by
  have hmagnitude {n : Nat} {cs rest : List Char}
      (h : scanExponent.magnitude cs = some (n, rest)) : rest.length ≤ cs.length := by
    unfold scanExponent.magnitude at h
    have := length_scanDigits cs
    split at h
    · simp at h
    · next hscan =>
      rw [hscan] at this
      simp only [Option.some.injEq, Prod.mk.injEq] at h
      rw [← h.2]
      exact this
  have hexponent {cs rest : List Char} {e : Option Int}
      (h : scanExponent.exponent cs = some (e, rest)) : rest.length ≤ cs.length := by
    unfold scanExponent.exponent at h
    split at h <;>
      · simp only [Option.map_eq_some_iff, Prod.mk.injEq, Prod.exists] at h
        obtain ⟨n, rest', h, _, rfl⟩ := h
        have := hmagnitude h
        grind
  unfold scanExponent at h
  split at h
  · exact Nat.le_succ_of_le (hexponent h)
  · exact Nat.le_succ_of_le (hexponent h)
  · simp_all

private theorem length_scanDigits_lt {cs : List Char} (h : (scanDigits cs).1 ≠ []) :
    (scanDigits cs).2.length < cs.length :=
  Text.length_dropWhile_lt h

private theorem length_scanWhole {cs ds rest : List Char} (h : scanWhole cs = some (ds, rest)) :
    rest.length < cs.length := by
  unfold scanWhole at h
  split at h
  · simp_all
  · split at h
    · simp at h
    · next found hfound =>
      simp only [Option.some.injEq] at h
      have hne : (scanDigits cs).1 ≠ [] := fun hnil => hfound (scanDigits cs).2 (by rw [← hnil])
      simpa only [h] using length_scanDigits_lt hne

private theorem length_scanMagnitude {negative : Bool} {cs rest : List Char} {n : Number}
    (h : scanMagnitude negative cs = some (n, rest)) : rest.length < cs.length := by
  simp only [scanMagnitude, Option.bind_eq_bind, Option.bind_eq_some_iff, Prod.exists] at h
  obtain ⟨whole, afterWhole, hwhole, fraction, afterFraction, hfraction, exponent,
    afterExponent, hexponent, h⟩ := h
  have := length_scanWhole hwhole
  have := length_scanFraction hfraction
  have := length_scanExponent hexponent
  split at h <;>
    · simp only [Option.pure_def, Option.some.injEq, Prod.mk.injEq] at h
      rw [← h.2]
      omega

private theorem length_scanNumber {cs rest : List Char} {n : Number}
    (h : scanNumber cs = some (n, rest)) : rest.length < cs.length := by
  unfold scanNumber at h
  split at h
  · have := length_scanMagnitude h
    simp only [List.length_cons]
    omega
  · exact length_scanMagnitude h

/-! ## Tokens -/

/-- The token that a punctuation mark is. -/
def punctuation? (c : Char) : Option Token :=
  if c = '[' then some .openArray
  else if c = ']' then some .closeArray
  else if c = '\x7b' then some .openObject
  else if c = '\x7d' then some .closeObject
  else if c = ',' then some .comma
  else if c = ':' then some .colon
  else none

/-- Reads a word, of which there are three. -/
def scanWord : List Char → Option (Token × List Char)
  | 'n' :: 'u' :: 'l' :: 'l' :: rest => some (.null, rest)
  | 't' :: 'r' :: 'u' :: 'e' :: rest => some (.bool true, rest)
  | 'f' :: 'a' :: 'l' :: 's' :: 'e' :: rest => some (.bool false, rest)
  | _ => none

/-- Reads the token at the front of a text that does not begin with white space. -/
def scanToken : List Char → Option (Token × List Char)
  | [] => none
  | c :: rest =>
    match punctuation? c with
    | some token => some (token, rest)
    | none =>
      if c = '"' then (scanString rest).map fun (s, rest) => (.string s, rest)
      else if c = '-' ∨ Text.isDigit c then
        (scanNumber (c :: rest)).map fun (n, rest) => (.number n, rest)
      else scanWord (c :: rest)

/-- A token has at least one character. -/
theorem length_scanToken {cs rest : List Char} {token : Token}
    (h : scanToken cs = some (token, rest)) : rest.length < cs.length := by
  unfold scanToken at h
  split at h
  · simp at h
  · next c tail =>
    split at h
    · simp_all
    · split at h
      · simp only [Option.map_eq_some_iff, Prod.mk.injEq, Prod.exists] at h
        obtain ⟨_, _, h, _, rfl⟩ := h
        have := length_scanString h
        simp only [List.length_cons]
        omega
      · split at h
        · simp only [Option.map_eq_some_iff, Prod.mk.injEq, Prod.exists] at h
          obtain ⟨_, _, h, _, rfl⟩ := h
          exact length_scanNumber h
        · unfold scanWord at h
          split at h <;> simp_all <;> omega

/-- The tokens of a text. -/
def tokens? (cs : List Char) : Option (List Token) :=
  match cs with
  | [] => some []
  | c :: rest =>
    if isSpace c then tokens? rest
    else
      match h : scanToken (c :: rest) with
      | none => none
      | some (token, rest') =>
        have := length_scanToken h
        (tokens? rest').map (token :: ·)
termination_by cs.length
decreasing_by all_goals simp only [List.length_cons] at *; omega

end Rollout.Json
