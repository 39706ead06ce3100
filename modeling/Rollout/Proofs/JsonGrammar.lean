import Mathlib.Data.List.Chain
import Rollout.Json.Token

/-!
# The grammar of JSON tokens

One token has many texts. A character of a string stands for itself or is escaped by a letter, by
its code unit or by a pair of surrogates, a number may have a fraction and an exponent, and blanks
may stand between any two tokens. A text is read as the tokens that it spells, whatever spelling
it has chosen.
-/

namespace Rollout

namespace Text

/-- The numeral of a number other than zero does not begin with a zero. -/
theorem exists_digits_eq_cons {n : Nat} (hn : n ≠ 0) : ∃ c cs, digits n = c :: cs ∧ c ≠ '0' := by
  fun_induction digits n with
  | case1 n hlt =>
    have hdigit : ∀ d < 10, d ≠ 0 → digitChar d ≠ '0' := by decide
    exact ⟨digitChar n, [], rfl, hdigit n hlt hn⟩
  | case2 n hge ih =>
    obtain ⟨c, cs, hdigits, hc⟩ := ih (by omega)
    exact ⟨c, cs ++ [digitChar (n % 10)], by rw [hdigits]; rfl, hc⟩

end Text

namespace Json

/-! ## String literals -/

/-- A hexadecimal digit in either case. -/
def IsHexDigit (n : Nat) (c : Char) : Prop :=
  c = Text.hexDigit n ∨ c = Text.hexDigitUpper n

/-- The letters of the short escapes, and what they stand for. -/
def shortEscapes : List (Char × Char) :=
  [('"', '"'), ('\\', '\\'), ('/', '/'), ('b', '\x08'), ('f', '\x0c'), ('n', '\n'), ('r', '\r'),
    ('t', '\t')]

/-- How a unit stands in a literal: a character as it is or by a short escape, and a code unit by
four hexadecimal digits. -/
inductive UnitText : Unit16 → List Char → Prop where
  | plain {c : Char} (hquote : c ≠ '"') (hslash : c ≠ '\\') (hcontrol : 0x20 ≤ c.toNat) :
    UnitText (.char c) [c]
  | short {e c : Char} (h : (e, c) ∈ shortEscapes) : UnitText (.char c) ['\\', e]
  | code {n : Nat} (hn : n < 0x10000) {a b c d : Char} (ha : IsHexDigit (n / 4096) a)
    (hb : IsHexDigit (n / 256 % 16) b) (hc : IsHexDigit (n / 16 % 16) c)
    (hd : IsHexDigit (n % 16) d) : UnitText (.code n) ['\\', 'u', a, b, c, d]

/-- Units one after another. -/
inductive UnitsText : List Unit16 → List Char → Prop where
  | nil : UnitsText [] []
  | cons {unit : Unit16} {units : List Unit16} {cs rest : List Char} (h : UnitText unit cs)
    (hrest : UnitsText units rest) : UnitsText (unit :: units) (cs ++ rest)

/-- The units that a character may be given by: the character, its number, or two surrogates if
it lies beyond the first 65536. -/
inductive CharUnits (c : Char) : List Unit16 → Prop where
  | char : CharUnits c [.char c]
  | code (hc : c.toNat < 0x10000) : CharUnits c [.code c.toNat]
  | pair (hc : 0x10000 ≤ c.toNat) : CharUnits c
    [.code (0xD800 + (c.toNat - 0x10000) / 0x400), .code (0xDC00 + (c.toNat - 0x10000) % 0x400)]

/-- The units that a text may be given by. -/
inductive TextUnits : List Char → List Unit16 → Prop where
  | nil : TextUnits [] []
  | cons {c : Char} {cs : List Char} {first rest : List Unit16} (h : CharUnits c first)
    (hrest : TextUnits cs rest) : TextUnits (c :: cs) (first ++ rest)

/-- A string literal after its opening quote: it holds a text, or units that make up no text. -/
inductive StringText : Option String → List Char → Prop where
  | text {s : String} {units : List Unit16} {cs : List Char} (hunits : TextUnits s.toList units)
    (h : UnitsText units cs) : StringText (some s) (cs ++ ['"'])
  | broken {units : List Unit16} {cs : List Char} (hunits : ∀ chars, ¬TextUnits chars units)
    (h : UnitsText units cs) : StringText none (cs ++ ['"'])

private theorem IsHexDigit.hexValue? {n : Nat} {c : Char} (h : IsHexDigit n c) (hn : n < 16) :
    Text.hexValue? c = some n := by
  rcases h with rfl | rfl
  · exact Text.hexValue_hexDigit hn
  · exact Text.hexValue_hexDigitUpper hn

private theorem escaped?_of_mem {e c : Char} (h : (e, c) ∈ shortEscapes) : escaped? e = some c := by
  simp only [shortEscapes, List.mem_cons, Prod.mk.injEq, List.not_mem_nil, or_false] at h
  rcases h with ⟨rfl, rfl⟩ | ⟨rfl, rfl⟩ | ⟨rfl, rfl⟩ | ⟨rfl, rfl⟩ | ⟨rfl, rfl⟩ | ⟨rfl, rfl⟩ |
    ⟨rfl, rfl⟩ | ⟨rfl, rfl⟩ <;> decide

private theorem scanUnits_plain {c : Char} (hquote : c ≠ '"') (hslash : c ≠ '\\')
    (hc : 0x20 ≤ c.toNat) (rest : List Char) :
    scanUnits (c :: rest) = (scanUnits rest).map fun p => (.char c :: p.1, p.2) := by
  rw [scanUnits.eq_def]
  split
  · simp_all
  · simp_all
  · simp_all
  · next heq =>
    obtain ⟨rfl, rfl⟩ := List.cons.inj heq
    rw [if_neg (by simp only [not_or]; exact ⟨by omega, hslash⟩)]
    cases scanUnits rest <;> rfl
  · simp_all

private theorem scanUnits_escaped {e c : Char} (h : escaped? e = some c) (rest : List Char) :
    scanUnits ('\\' :: e :: rest) = (scanUnits rest).map fun p => (.char c :: p.1, p.2) := by
  have hu : e ≠ 'u' := by
    rintro rfl
    have hnone : escaped? 'u' = none := by decide
    simp only [hnone, reduceCtorEq] at h
  rw [scanUnits.eq_def]
  split
  · simp_all
  · simp_all
  · next heq =>
    obtain ⟨-, heq⟩ := List.cons.inj heq
    obtain ⟨rfl, rfl⟩ := List.cons.inj heq
    rw [h]
    cases scanUnits rest <;> rfl
  · next hpair heq =>
    obtain ⟨rfl, rfl⟩ := List.cons.inj heq
    exact absurd rfl (hpair e rest rfl)
  · simp_all

private theorem scanUnits_code {n : Nat} {a b c d : Char} (h : codeUnit? a b c d = some n)
    (rest : List Char) : scanUnits ('\\' :: 'u' :: a :: b :: c :: d :: rest) =
      (scanUnits rest).map fun p => (.code n :: p.1, p.2) := by
  simp only [scanUnits, h, Option.bind_eq_bind, Option.bind_some]
  cases scanUnits rest <;> rfl

/-- The digits of a code unit give it back. -/
theorem codeUnit?_of_isHexDigit {n : Nat} (hn : n < 0x10000) {a b c d : Char}
    (ha : IsHexDigit (n / 4096) a) (hb : IsHexDigit (n / 256 % 16) b)
    (hc : IsHexDigit (n / 16 % 16) c) (hd : IsHexDigit (n % 16) d) :
    codeUnit? a b c d = some n := by
  simp only [codeUnit?, ha.hexValue? (by omega), hb.hexValue? (by omega),
    hc.hexValue? (by omega), hd.hexValue? (by omega), Option.bind_eq_bind, Option.bind_some,
    Option.pure_def, Option.some.injEq]
  omega

/-- A unit is read from each of its texts. -/
theorem UnitText.scanUnits {unit : Unit16} {cs : List Char} (h : UnitText unit cs)
    (rest : List Char) :
    scanUnits (cs ++ rest) = (scanUnits rest).map fun p => (unit :: p.1, p.2) := by
  cases h with
  | plain hquote hslash hcontrol => exact scanUnits_plain hquote hslash hcontrol rest
  | short h => exact scanUnits_escaped (escaped?_of_mem h) rest
  | code hn ha hb hc hd => exact scanUnits_code (codeUnit?_of_isHexDigit hn ha hb hc hd) rest

/-- Units are read from their texts up to the closing quote. -/
theorem UnitsText.scanUnits {units : List Unit16} {cs : List Char} (h : UnitsText units cs)
    (rest : List Char) : scanUnits (cs ++ '"' :: rest) = some (units, rest) := by
  induction h with
  | nil => simp [Json.scanUnits]
  | cons h _ ih =>
    rw [List.append_assoc, h.scanUnits, ih]
    rfl

/-- A code unit outside the surrogates spells the character with its number. -/
theorem spelled?_code {n : Nat} (hn : n < 0xD800 ∨ 0xE000 ≤ n) (units : List Unit16) :
    spelled? (.code n :: units) = (spelled? units).map (Char.ofNat n :: ·) := by
  rw [spelled?.eq_def]
  split
  · simp_all
  · simp_all
  · next heq =>
    obtain ⟨hcode, rfl⟩ := List.cons.inj heq
    obtain rfl := Unit16.code.inj hcode
    rw [if_pos hn]
  · next heq =>
    obtain ⟨hcode, rfl⟩ := List.cons.inj heq
    obtain rfl := Unit16.code.inj hcode
    rw [if_pos hn]

private theorem isValidChar_toNat (c : Char) :
    c.toNat < 0xD800 ∨ 0xDFFF < c.toNat ∧ c.toNat < 0x110000 :=
  c.valid

/-- A character is read from each of the units that it may be given by. -/
theorem CharUnits.spelled? {c : Char} {units : List Unit16} (h : CharUnits c units)
    (rest : List Unit16) : spelled? (units ++ rest) = (spelled? rest).map (c :: ·) := by
  have hvalid := isValidChar_toNat c
  cases h with
  | char => rfl
  | code =>
    have hcode := spelled?_code (n := c.toNat) (by omega) rest
    rwa [Char.ofNat_toNat] at hcode
  | pair hc =>
    have hnumber : 0x10000 + (0xD800 + (c.toNat - 0x10000) / 0x400 - 0xD800) * 0x400 +
        (0xDC00 + (c.toNat - 0x10000) % 0x400 - 0xDC00) = c.toNat := by omega
    simp only [List.cons_append, List.nil_append, Json.spelled?]
    rw [if_neg (by omega), if_pos (by omega), hnumber, Char.ofNat_toNat]

/-- The units of a text spell the text. -/
theorem TextUnits.spelled? {cs : List Char} {units : List Unit16} (h : TextUnits cs units) :
    spelled? units = some cs := by
  induction h with
  | nil => rfl
  | cons h _ ih =>
    rw [h.spelled?, ih]
    rfl

private theorem toNat_ofNat_of_isValidChar {n : Nat} (h : n.isValidChar) :
    (Char.ofNat n).toNat = n := by
  rw [Char.ofNat, dif_pos h]
  rfl

/-- A code unit that is no surrogate gives its character. -/
theorem charUnits_ofNat {n : Nat} (hn : n < 0xD800 ∨ 0xE000 ≤ n) (hlt : n < 0x10000) :
    CharUnits (Char.ofNat n) [.code n] := by
  have heq : (Char.ofNat n).toNat = n := toNat_ofNat_of_isValidChar (by omega)
  have hcode : CharUnits (Char.ofNat n) [.code (Char.ofNat n).toNat] := .code (by omega)
  rwa [heq] at hcode

/-- A high surrogate and a low one give a character beyond the first 65536. -/
theorem charUnits_pair {high low : Nat} (hhigh : 0xD800 ≤ high ∧ high < 0xDC00)
    (hlow : 0xDC00 ≤ low ∧ low < 0xE000) :
    CharUnits (Char.ofNat (0x10000 + (high - 0xD800) * 0x400 + (low - 0xDC00)))
      [.code high, .code low] := by
  generalize hn : 0x10000 + (high - 0xD800) * 0x400 + (low - 0xDC00) = n
  have heq : (Char.ofNat n).toNat = n := toNat_ofNat_of_isValidChar (by omega)
  have hpair : CharUnits (Char.ofNat n) [.code (0xD800 + ((Char.ofNat n).toNat - 0x10000) / 0x400),
      .code (0xDC00 + ((Char.ofNat n).toNat - 0x10000) % 0x400)] := .pair (by omega)
  have hfirst : 0xD800 + (n - 0x10000) / 0x400 = high := by omega
  have hsecond : 0xDC00 + (n - 0x10000) % 0x400 = low := by omega
  rwa [heq, hfirst, hsecond] at hpair

/-- Whatever units are read as a text are units of that text. -/
theorem textUnits_of_spelled? {units : List Unit16} (hcodes : ∀ n, .code n ∈ units → n < 0x10000)
    {cs : List Char} (h : spelled? units = some cs) : TextUnits cs units := by
  fun_induction spelled? units generalizing cs with
  | case1 =>
    obtain rfl := Option.some.inj h
    exact .nil
  | case2 c rest ih =>
    obtain ⟨tail, htail, rfl⟩ := Option.map_eq_some_iff.mp h
    exact .cons .char (ih (fun n hn => hcodes n (List.mem_cons_of_mem _ hn)) htail)
  | case3 high low rest hhigh ih =>
    obtain ⟨tail, htail, rfl⟩ := Option.map_eq_some_iff.mp h
    exact .cons (charUnits_ofNat hhigh (hcodes high List.mem_cons_self))
      (ih (fun n hn => hcodes n (List.mem_cons_of_mem _ hn)) htail)
  | case4 high low rest hhigh hpair ih =>
    obtain ⟨tail, htail, rfl⟩ := Option.map_eq_some_iff.mp h
    exact .cons (charUnits_pair (by omega) (by omega))
      (ih (fun n hn => hcodes n (List.mem_cons_of_mem _ (List.mem_cons_of_mem _ hn))) htail)
  | case5 => cases h
  | case6 n rest hrest hn ih =>
    obtain ⟨tail, htail, rfl⟩ := Option.map_eq_some_iff.mp h
    exact .cons (charUnits_ofNat hn (hcodes n List.mem_cons_self))
      (ih (fun n hn => hcodes n (List.mem_cons_of_mem _ hn)) htail)
  | case7 => cases h

private theorem UnitsText.code_lt {units : List Unit16} {cs : List Char} (h : UnitsText units cs)
    {n : Nat} (hn : .code n ∈ units) : n < 0x10000 := by
  induction h with
  | nil => cases hn
  | cons h _ ih =>
    rcases List.mem_cons.mp hn with rfl | hn
    · cases h with
      | code hlt => exact hlt
    · exact ih hn

/-- A string literal is read as what it holds. -/
theorem StringText.scanString {s : Option String} {cs : List Char} (h : StringText s cs)
    (rest : List Char) : scanString (cs ++ rest) = some (s, rest) := by
  cases h with
  | text hunits h =>
    simp only [List.append_assoc, List.singleton_append, Json.scanString, h.scanUnits,
      Option.map_some, hunits.spelled?, String.ofList_toList]
  | @broken units cs hunits h =>
    have hnone : Json.spelled? units = none := by
      refine Option.eq_none_iff_forall_ne_some.mpr fun chars hchars => hunits chars ?_
      exact textUnits_of_spelled? (fun n hn => h.code_lt hn) hchars
    simp only [List.append_assoc, List.singleton_append, Json.scanString, h.scanUnits,
      Option.map_some, hnone, Option.map_none]

/-! ## Numbers -/

/-- A run of digits that is not empty. -/
structure IsDigits (ds : List Char) : Prop where
  /-- There is at least one. -/
  nonempty : ds ≠ []
  /-- All of them are digits. -/
  digits : ∀ c ∈ ds, Text.isDigit c = true

/-- The digits of a fraction, of which there are none without a point. -/
inductive FractionText : List Char → List Char → Prop where
  | absent : FractionText [] []
  | present {ds : List Char} (h : IsDigits ds) : FractionText ds ('.' :: ds)

/-- An exponent, if there is one. -/
inductive ExponentText : Option Int → List Char → Prop where
  | absent : ExponentText none []
  | unsigned {mark : Char} {ds : List Char} (hmark : mark = 'e' ∨ mark = 'E') (h : IsDigits ds) :
    ExponentText (some (Int.ofNat (Text.ofDigits ds))) (mark :: ds)
  | plus {mark : Char} {ds : List Char} (hmark : mark = 'e' ∨ mark = 'E') (h : IsDigits ds) :
    ExponentText (some (Int.ofNat (Text.ofDigits ds))) (mark :: '+' :: ds)
  | minus {mark : Char} {ds : List Char} (hmark : mark = 'e' ∨ mark = 'E') (h : IsDigits ds) :
    ExponentText (some (-Int.ofNat (Text.ofDigits ds))) (mark :: '-' :: ds)

/-- The texts of a number. One that has no sign, no fraction and no exponent is natural. -/
inductive NumberText : Number → List Char → Prop where
  | natural (n : Nat) : NumberText (.natural n) (Text.digits n)
  | decimal (negative : Bool) (whole : Nat) {fraction cs es : List Char} {exponent : Option Int}
    (hfraction : FractionText fraction cs) (hexponent : ExponentText exponent es)
    (hparts : negative = true ∨ fraction ≠ [] ∨ exponent ≠ none) :
    NumberText (.decimal negative (Text.ofDigits (Text.digits whole ++ fraction))
        (exponent.getD 0 - fraction.length))
      ((if negative then ['-'] else []) ++ Text.digits whole ++ cs ++ es)

/-- What follows digits and cannot go on with them. -/
def EndsDigits (rest : List Char) : Prop :=
  ∀ c ∈ rest.head?, Text.isDigit c = false

/-- What follows a number and cannot go on with it. -/
def Breaks (rest : List Char) : Prop :=
  ∀ c ∈ rest.head?, Text.isDigit c = false ∧ c ≠ '.' ∧ c ≠ 'e' ∧ c ≠ 'E'

variable {rest : List Char}

private theorem endsDigits_cons {c : Char} (h : Text.isDigit c = false) (rest : List Char) :
    EndsDigits (c :: rest) := by
  intro d hd
  obtain rfl : c = d := by simpa using hd
  exact h

private theorem Breaks.endsDigits (h : Breaks rest) : EndsDigits rest :=
  fun c hc => (h c hc).1

/-- The digits of a number are a run of digits. -/
theorem isDigits_digits (n : Nat) : IsDigits (Text.digits n) :=
  ⟨Text.digits_ne_nil n, fun _ => Text.isDigit_of_mem_digits⟩

/-- A run of digits is read up to its end. -/
theorem IsDigits.scanDigits {ds : List Char} (h : IsDigits ds) (hrest : EndsDigits rest) :
    scanDigits (ds ++ rest) = (ds, rest) := by
  have hstop : rest.takeWhile Text.isDigit = [] ∧ rest.dropWhile Text.isDigit = rest := by
    cases rest with
    | nil => exact ⟨rfl, rfl⟩
    | cons c rest => simp [hrest c rfl]
  rw [Json.scanDigits, List.takeWhile_append_of_pos h.digits,
    List.dropWhile_append_of_pos h.digits, hstop.1, hstop.2, List.append_nil]

private theorem scanWhole_digits (n : Nat) (hrest : EndsDigits rest) :
    scanWhole (Text.digits n ++ rest) = some (Text.digits n, rest) := by
  by_cases hn : n = 0
  · subst hn
    have hzero : Text.digits 0 = ['0'] := by decide +kernel
    rw [hzero]
    rfl
  · obtain ⟨c, cs, hdigits, hc⟩ := Text.exists_digits_eq_cons hn
    have hscan := (isDigits_digits n).scanDigits hrest
    rw [hdigits, List.cons_append] at hscan ⊢
    unfold scanWhole
    split
    · next heq => exact absurd (List.cons.inj heq).1 hc
    · rw [hscan]

/-- A fraction is read up to its end, and none is read where there is no point. -/
theorem FractionText.scanFraction {ds cs : List Char} (h : FractionText ds cs)
    (hrest : EndsDigits rest) (hpoint : rest.head? ≠ some '.') :
    scanFraction (cs ++ rest) = some (ds, rest) := by
  cases h with
  | absent =>
    rw [List.nil_append]
    unfold Json.scanFraction
    split
    · exact absurd rfl hpoint
    · rfl
  | present h =>
    have hscan := h.scanDigits hrest
    rw [List.cons_append, Json.scanFraction, hscan]
    split
    · next heq => exact absurd (congrArg Prod.fst heq) h.nonempty
    · rfl

private theorem IsDigits.magnitude {ds : List Char} (h : IsDigits ds) (hrest : EndsDigits rest) :
    scanExponent.magnitude (ds ++ rest) = some (Text.ofDigits ds, rest) := by
  rw [scanExponent.magnitude, h.scanDigits hrest]
  split
  · next heq => exact absurd (congrArg Prod.fst heq) h.nonempty
  · next heq =>
    obtain ⟨rfl, rfl⟩ := Prod.mk.inj heq
    rfl

/-- Digits that come right after the mark of an exponent are no sign. -/
theorem IsDigits.exponent {ds : List Char} (h : IsDigits ds) (hrest : EndsDigits rest) :
    scanExponent.exponent (ds ++ rest) = some (some (Int.ofNat (Text.ofDigits ds)), rest) := by
  have hmagnitude := h.magnitude hrest
  obtain ⟨c, cs, rfl⟩ := List.exists_cons_of_ne_nil h.nonempty
  have hc := h.digits c List.mem_cons_self
  unfold scanExponent.exponent
  split
  · next heq =>
    rw [(List.cons.inj heq).1] at hc
    exact absurd hc (by decide)
  · next heq =>
    rw [(List.cons.inj heq).1] at hc
    exact absurd hc (by decide)
  · rw [hmagnitude]
    rfl

private theorem scanExponent_mark {mark : Char} (hmark : mark = 'e' ∨ mark = 'E') (cs : List Char) :
    scanExponent (mark :: cs) = scanExponent.exponent cs := by
  rcases hmark with rfl | rfl <;> rfl

/-- An exponent is read up to its end. -/
theorem ExponentText.scanExponent {exponent : Option Int} {cs : List Char}
    (h : ExponentText exponent cs) (hrest : Breaks rest) :
    scanExponent (cs ++ rest) = some (exponent, rest) := by
  cases h with
  | absent =>
    rw [List.nil_append]
    unfold Json.scanExponent
    split
    · exact absurd rfl (hrest 'e' rfl).2.2.1
    · exact absurd rfl (hrest 'E' rfl).2.2.2
    · rfl
  | unsigned hmark h =>
    rw [List.cons_append, scanExponent_mark hmark, h.exponent hrest.endsDigits]
  | plus hmark h | minus hmark h =>
    rw [List.cons_append, List.cons_append, scanExponent_mark hmark, Json.scanExponent.exponent,
      h.magnitude hrest.endsDigits]
    rfl

/-- An exponent does not go on with the digits or the fraction before it. -/
theorem ExponentText.ends {exponent : Option Int} {cs : List Char} (h : ExponentText exponent cs)
    (hrest : Breaks rest) : EndsDigits (cs ++ rest) ∧ (cs ++ rest).head? ≠ some '.' := by
  cases h with
  | absent => exact ⟨hrest.endsDigits, fun hpoint => (hrest '.' hpoint).2.1 rfl⟩
  | unsigned hmark h | plus hmark h | minus hmark h =>
    rcases hmark with rfl | rfl <;> exact ⟨endsDigits_cons (by decide) _, by simp⟩

private theorem FractionText.endsDigits {ds cs : List Char} (h : FractionText ds cs)
    (hrest : EndsDigits rest) : EndsDigits (cs ++ rest) := by
  cases h with
  | absent => exact hrest
  | present h => exact endsDigits_cons (by decide) _

private theorem scanMagnitude_natural (n : Nat) (hrest : Breaks rest) :
    scanMagnitude false (Text.digits n ++ rest) = some (.natural n, rest) := by
  have hpoint : rest.head? ≠ some '.' := fun hpoint => (hrest '.' hpoint).2.1 rfl
  have hfraction := FractionText.absent.scanFraction hrest.endsDigits hpoint
  have hexponent := ExponentText.absent.scanExponent hrest
  rw [List.nil_append] at hfraction hexponent
  simp only [scanMagnitude, scanWhole_digits n hrest.endsDigits, hfraction, hexponent,
    Option.bind_eq_bind, Option.bind_some, Text.ofDigits_digits, Option.pure_def]

/-- The parts of a number are read one after another. -/
theorem scanMagnitude_decimal {negative : Bool} (whole : Nat) {fraction cs es : List Char}
    {exponent : Option Int} (hfraction : FractionText fraction cs)
    (hexponent : ExponentText exponent es)
    (hparts : negative = true ∨ fraction ≠ [] ∨ exponent ≠ none) (hrest : Breaks rest) :
    scanMagnitude negative (Text.digits whole ++ (cs ++ (es ++ rest))) =
      some (.decimal negative (Text.ofDigits (Text.digits whole ++ fraction))
        (exponent.getD 0 - fraction.length), rest) := by
  obtain ⟨hends, hpoint⟩ := hexponent.ends hrest
  simp only [scanMagnitude, scanWhole_digits whole (hfraction.endsDigits hends),
    hfraction.scanFraction hends hpoint, hexponent.scanExponent hrest, Option.bind_eq_bind,
    Option.bind_some]
  split
  · simp at hparts
  · rfl

/-- A number does not begin with a minus sign unless it is negative. -/
theorem scanNumber_digits (n : Nat) (rest : List Char) :
    scanNumber (Text.digits n ++ rest) = scanMagnitude false (Text.digits n ++ rest) := by
  obtain ⟨c, cs, hdigits⟩ := List.exists_cons_of_ne_nil (Text.digits_ne_nil n)
  have hc : Text.isDigit c = true :=
    Text.isDigit_of_mem_digits (n := n) (by rw [hdigits]; exact List.mem_cons_self)
  unfold scanNumber
  split
  · next heq =>
    rw [hdigits] at heq
    rw [(List.cons.inj heq).1] at hc
    exact absurd hc (by decide)
  · rfl

/-- A number is read from any of its texts. -/
theorem NumberText.scanNumber {n : Number} {cs : List Char} (h : NumberText n cs)
    (hrest : Breaks rest) : scanNumber (cs ++ rest) = some (n, rest) := by
  cases h with
  | natural n => rw [scanNumber_digits, scanMagnitude_natural n hrest]
  | decimal negative whole hfraction hexponent hparts =>
    have hscan := scanMagnitude_decimal whole hfraction hexponent hparts hrest
    simp only [List.append_assoc]
    cases negative with
    | true => exact hscan
    | false => exact (scanNumber_digits whole _).trans hscan

/-! ## Tokens -/

/-- The text of a token that has no other. -/
def Token.fixed? : Token → Option (List Char)
  | .openArray => some ['[']
  | .closeArray => some [']']
  | .openObject => some ['\x7b']
  | .closeObject => some ['\x7d']
  | .comma => some [',']
  | .colon => some [':']
  | .null => some ['n', 'u', 'l', 'l']
  | .bool true => some ['t', 'r', 'u', 'e']
  | .bool false => some ['f', 'a', 'l', 's', 'e']
  | .number _ | .string _ => none

/-- The texts of a token. -/
inductive TokenText : Token → List Char → Prop where
  | fixed {token : Token} {cs : List Char} (h : token.fixed? = some cs) : TokenText token cs
  | number {n : Number} {cs : List Char} (h : NumberText n cs) : TokenText (.number n) cs
  | string {s : Option String} {cs : List Char} (h : StringText s cs) :
    TokenText (.string s) ('"' :: cs)

/-- Tokens one after another, with blanks before each of them and at the end. -/
inductive Spelled : List Token → List Char → Prop where
  | blank {blanks : List Char} (hblanks : ∀ c ∈ blanks, isSpace c = true) : Spelled [] blanks
  | token {token : Token} {tokens : List Token} {blanks cs rest : List Char}
    (hblanks : ∀ c ∈ blanks, isSpace c = true) (h : TokenText token cs)
    (hrest : Spelled tokens rest) : Spelled (token :: tokens) (blanks ++ (cs ++ rest))

/-- Tokens that are not both numbers, which would run into one another without a blank. -/
def Apart (token next : Token) : Prop :=
  ∀ m n, token = .number m → next ≠ .number n

private theorem punctuation?_of_isDigit {c : Char} (h : Text.isDigit c = true) :
    punctuation? c = none := by
  have hne (d : Char) (hd : Text.isDigit d = false) : c ≠ d := by
    rintro rfl
    simp [hd] at h
  rw [punctuation?, if_neg (hne '[' rfl), if_neg (hne ']' rfl), if_neg (hne '\x7b' rfl),
    if_neg (hne '\x7d' rfl), if_neg (hne ',' rfl), if_neg (hne ':' rfl)]

private theorem isSpace_of_isDigit {c : Char} (h : Text.isDigit c = true) : isSpace c = false := by
  have hne (d : Char) (hd : Text.isDigit d = false) : c ≠ d := by
    rintro rfl
    simp [hd] at h
  simp only [isSpace, hne ' ' rfl, hne '\t' rfl, hne '\n' rfl, hne '\r' rfl, decide_false,
    Bool.or_self]

/-- What a number begins with. -/
theorem NumberText.exists_cons {n : Number} {cs : List Char} (h : NumberText n cs) :
    ∃ c tail, cs = c :: tail ∧ (c = '-' ∨ Text.isDigit c = true) := by
  have hdigits (m : Nat) (tail : List Char) :
      ∃ c rest, Text.digits m ++ tail = c :: rest ∧ (c = '-' ∨ Text.isDigit c = true) := by
    obtain ⟨c, cs, hcons⟩ := List.exists_cons_of_ne_nil (Text.digits_ne_nil m)
    refine ⟨c, cs ++ tail, by rw [hcons]; rfl, Or.inr ?_⟩
    exact Text.isDigit_of_mem_digits (n := m) (by rw [hcons]; exact List.mem_cons_self)
  cases h with
  | natural m => simpa using hdigits m []
  | decimal negative whole =>
    cases negative with
    | true => exact ⟨'-', _, rfl, Or.inl rfl⟩
    | false =>
      simpa only [Bool.false_eq_true, if_false, List.nil_append, List.append_assoc] using
        hdigits whole _

/-- A number is read from each of its texts. -/
theorem scanToken_number {n : Number} {cs : List Char} (h : NumberText n cs)
    (hrest : Breaks rest) : scanToken (cs ++ rest) = some (.number n, rest) := by
  have hscan := h.scanNumber hrest
  obtain ⟨c, tail, rfl, hc⟩ := h.exists_cons
  have hpunctuation : punctuation? c = none := by
    rcases hc with rfl | hc
    · rfl
    · exact punctuation?_of_isDigit hc
  have hquote : c ≠ '"' := by
    rintro rfl
    exact absurd hc (by decide)
  rw [List.cons_append] at hscan ⊢
  simp only [scanToken, hpunctuation, if_neg hquote, if_pos hc, hscan, Option.map_some]

/-- A token with only one text is read from it. -/
theorem scanToken_fixed {token : Token} {cs : List Char} (h : token.fixed? = some cs) :
    scanToken (cs ++ rest) = some (token, rest) := by
  cases token with
  | number | string => cases h
  | bool b => cases b <;> obtain rfl := Option.some.inj h <;> rfl
  | _ =>
    obtain rfl := Option.some.inj h
    rfl

/-- A token is read from any of its texts, unless what follows goes on with a number. -/
theorem TokenText.scanToken {token : Token} {cs : List Char} (h : TokenText token cs)
    (hrest : ∀ n, token = .number n → Breaks rest) :
    scanToken (cs ++ rest) = some (token, rest) := by
  cases h with
  | fixed h => exact scanToken_fixed h
  | number h => exact scanToken_number h (hrest _ rfl)
  | string h =>
    have hpunctuation : punctuation? '"' = none := rfl
    simp only [List.cons_append, Json.scanToken, hpunctuation, if_true, h.scanString,
      Option.map_some]

/-- A token does not begin with a blank, and only a number goes on with a number. -/
theorem TokenText.exists_cons {token : Token} {cs : List Char} (h : TokenText token cs)
    (rest : List Char) :
    ∃ c tail, cs = c :: tail ∧ isSpace c = false ∧
      ((∀ n, token ≠ .number n) → Breaks (c :: (tail ++ rest))) := by
  have hfixed (c : Char) (tail : List Char) (hspace : isSpace c = false)
      (hc : Text.isDigit c = false ∧ c ≠ '.' ∧ c ≠ 'e' ∧ c ≠ 'E') :
      ∃ c' tail', c :: tail = c' :: tail' ∧ isSpace c' = false ∧
        ((∀ n, token ≠ .number n) → Breaks (c' :: (tail' ++ rest))) := by
    refine ⟨c, tail, rfl, hspace, fun _ d hd => ?_⟩
    obtain rfl : c = d := by simpa using hd
    exact hc
  cases h with
  | fixed h =>
    cases token with
    | number | string => cases h
    | bool b => cases b <;> obtain rfl := Option.some.inj h <;> exact hfixed _ _ rfl (by decide)
    | _ =>
      obtain rfl := Option.some.inj h
      exact hfixed _ _ rfl (by decide)
  | number h =>
    obtain ⟨c, tail, rfl, hc⟩ := h.exists_cons
    refine ⟨c, tail, rfl, ?_, fun hnot => absurd rfl (hnot _)⟩
    rcases hc with rfl | hc
    · rfl
    · exact isSpace_of_isDigit hc
  | string h => exact hfixed '"' _ rfl (by decide)

private theorem breaks_of_isSpace {c : Char} (hc : isSpace c = true) (rest : List Char) :
    Breaks (c :: rest) := by
  intro d hd
  obtain rfl : c = d := by simpa using hd
  simp only [isSpace, Bool.or_eq_true, decide_eq_true_eq] at hc
  rcases hc with ((rfl | rfl) | rfl) | rfl <;> decide

/-- No number is gone on with by tokens that do not begin with one. -/
theorem Spelled.breaks {tokens : List Token} {cs : List Char} (h : Spelled tokens cs)
    (hfirst : ∀ token ∈ tokens.head?, ∀ n, token ≠ .number n) : Breaks cs := by
  have hspace {blanks : List Char} (hblanks : ∀ c ∈ blanks, isSpace c = true) (rest : List Char)
      (hrest : Breaks rest) : Breaks (blanks ++ rest) := by
    cases blanks with
    | nil => exact hrest
    | cons c blanks => exact breaks_of_isSpace (hblanks c List.mem_cons_self) _
  cases h with
  | blank hblanks => simpa using hspace hblanks [] (by simp [Breaks])
  | @token token tokens blanks cs rest hblanks h hrest =>
    obtain ⟨c, tail, rfl, -, hbreaks⟩ := h.exists_cons rest
    exact hspace hblanks _ (hbreaks (hfirst token rfl))

/-- Blanks before a token are skipped. -/
theorem tokens?_blanks {blanks : List Char} (hblanks : ∀ c ∈ blanks, isSpace c = true)
    (cs : List Char) : tokens? (blanks ++ cs) = tokens? cs := by
  induction blanks with
  | nil => rfl
  | cons c blanks ih =>
    obtain ⟨hc, hrest⟩ := List.forall_mem_cons.mp hblanks
    rw [List.cons_append, tokens?, if_pos hc, ih hrest]

private theorem tokens?_of_scanToken {c : Char} {cs rest : List Char} {token : Token}
    (hc : isSpace c = false) (h : scanToken (c :: cs) = some (token, rest)) :
    tokens? (c :: cs) = (tokens? rest).map (token :: ·) := by
  rw [tokens?]
  simp only [hc, Bool.false_eq_true, if_false]
  split
  · next hnone => simp only [h, reduceCtorEq] at hnone
  · next hsome =>
    obtain ⟨rfl, rfl⟩ : token = _ ∧ rest = _ := by simpa [h] using hsome
    rfl

/-- The tokens that a text spells are read from it, unless two numbers come together. -/
theorem Spelled.tokens? {tokens : List Token} {cs : List Char} (h : Spelled tokens cs)
    (hapart : tokens.IsChain Apart) : tokens? cs = some tokens := by
  induction h with
  | blank hblanks =>
    have hskip := tokens?_blanks hblanks []
    rwa [List.append_nil, Json.tokens?] at hskip
  | @token token tokens blanks cs rest hblanks h hrest ih =>
    obtain ⟨hfirst, htokens⟩ := List.isChain_cons.mp hapart
    have hscan : scanToken (cs ++ rest) = some (token, rest) := h.scanToken fun m hm =>
      hrest.breaks fun next hnext n => hfirst next hnext m n hm
    obtain ⟨c, tail, rfl, hc, -⟩ := h.exists_cons rest
    rw [tokens?_blanks hblanks]
    exact (tokens?_of_scanToken hc hscan).trans (by rw [ih htokens]; rfl)

end Json

end Rollout
