import Rollout.Proofs.JsonGrammar
import Rollout.Proofs.TomlString
import Rollout.Toml.Document

/-!
# Lines are read back

A document is written line by line: headers, keys without quotes, each with a value that takes no
second line but where it is a string, and blank lines between. A line is read as its statement
whatever lines follow, so that a document is read as the statements of its lines.
-/

namespace Rollout.Toml

/-- A part of a key that needs no quotes. -/
def IsBare (part : String) : Prop :=
  part.toList ≠ [] ∧ ∀ c ∈ part.toList, isBareKeyChar c = true

/-- Whether a part of a key needs quotes is seen from its characters. -/
instance (part : String) : Decidable (IsBare part) :=
  decidable_of_iff (part.toList ≠ [] ∧ part.toList.all isBareKeyChar = true) (by simp [IsBare])

/-- A key with points between its parts. -/
def dotted : List String → String → List Char
  | [], key => key.toList
  | part :: path, key => part.toList ++ '.' :: dotted path key

/-- A value without others in it. -/
inductive Plain where
  | text (s : String)
  | number (n : Nat)
  | flag (b : Bool)

namespace Plain

/-- How a value is written. -/
def written : Plain → List Char
  | .text s => quote s
  | .number n => Text.digits n
  | .flag b => (if b then "true" else "false").toList

/-- The value that is meant. -/
def value : Plain → Value
  | .text s => .string s
  | .number n => .integer n
  | .flag b => .boolean b

/-- A number must not need more than 64 bits with a sign. -/
def Fits : Plain → Prop
  | .text _ => True
  | .number n => n ≤ 9223372036854775807
  | .flag _ => True

end Plain

/-- A line of a document. -/
inductive Line where
  | blank
  | header (path : List String) (key : String)
  | setting (key : String) (value : Plain)

namespace Line

/-- How a line is written, with its line break. -/
def written : Line → List Char
  | .blank => ['\n']
  | .header path key => '[' :: dotted path key ++ [']', '\n']
  | .setting key value => key.toList ++ ' ' :: '=' :: ' ' :: (value.written ++ ['\n'])

/-- What a line says. -/
def statement? : Line → Option Statement
  | .blank => none
  | .header path key => some (.header path key)
  | .setting key value => some (.keyValue [] key value.value)

/-- The keys need no quotes, there are not too many of them, and the value fits. -/
def Fits : Line → Prop
  | .blank => True
  | .header path key => (∀ part ∈ path, IsBare part) ∧ IsBare key ∧ path.length < nestingLimit - 1
  | .setting key value => IsBare key ∧ value.Fits

end Line

/-! ## Keys -/

private theorem IsBare.exists_cons {part : String} (h : IsBare part) :
    ∃ c cs, part.toList = c :: cs ∧ isBareKeyChar c = true := by
  obtain ⟨hne, hall⟩ := h
  obtain ⟨c, cs, heq⟩ := List.exists_cons_of_ne_nil hne
  exact ⟨c, cs, heq, hall c (heq ▸ List.mem_cons_self)⟩

/-- The character of a key is none of those that could start something else. -/
theorem ne_of_isBareKeyChar {c d : Char} (hc : isBareKeyChar c = true)
    (hd : isBareKeyChar d = false) : c ≠ d := by
  rintro rfl
  rw [hc] at hd
  cases hd

private theorem isWhite_of_isBareKeyChar {c : Char} (h : isBareKeyChar c = true) :
    isWhite c = false := by
  have hblank : c ≠ ' ' := ne_of_isBareKeyChar h (by decide)
  have htab : c ≠ '\t' := ne_of_isBareKeyChar h (by decide)
  simp [isWhite, hblank, htab]

private theorem skipWhite_cons {c : Char} (h : isWhite c = false) (cs : List Char) :
    skipWhite (c :: cs) = c :: cs := by
  simp [skipWhite, h]

private theorem IsBare.skipWhite_append {part : String} (h : IsBare part) (rest : List Char) :
    skipWhite (part.toList ++ rest) = part.toList ++ rest := by
  obtain ⟨c, cs, heq, hc⟩ := h.exists_cons
  rw [heq]
  exact skipWhite_cons (isWhite_of_isBareKeyChar hc) _

/-- A run of characters ends where the first other one stands. -/
theorem span_append {p : Char → Bool} {cs rest : List Char} (hcs : ∀ c ∈ cs, p c = true)
    (hrest : ∀ c ∈ rest.head?, p c = false) :
    (cs ++ rest).takeWhile p = cs ∧ (cs ++ rest).dropWhile p = rest := by
  rw [List.takeWhile_append_of_pos hcs, List.dropWhile_append_of_pos hcs]
  cases rest with
  | nil => simp
  | cons c rest => simp [hrest c rfl]

/-- A part without quotes is read up to the first character that cannot stand in one. -/
theorem readKeyPart_bare {part : String} (hpart : IsBare part) {rest : List Char}
    (hrest : ∀ c ∈ rest.head?, isBareKeyChar c = false) :
    readKeyPart (part.toList ++ rest) = some (part, rest) := by
  obtain ⟨htake, hdrop⟩ := span_append hpart.2 hrest
  obtain ⟨c, cs, heq, hc⟩ := hpart.exists_cons
  have hline : readLineString (part.toList ++ rest) = none := by
    rw [heq]
    simp [readLineString, ne_of_isBareKeyChar hc (d := '"') (by decide),
      ne_of_isBareKeyChar hc (d := '\'') (by decide)]
  unfold readKeyPart
  rw [hline, htake, hdrop, heq]
  simp [← heq]

/-- A key is read up to the first character that can belong to none. -/
theorem readKeyParts_dotted {path : List String} {key : String} (hpath : ∀ part ∈ path, IsBare part)
    (hkey : IsBare key) {limit : Nat} (hlimit : path.length < limit) {rest : List Char}
    (hrest : ∀ c ∈ rest.head?, isBareKeyChar c = false)
    (hpoint : (skipWhite rest).head? ≠ some '.') :
    readKeyParts limit (dotted path key ++ rest) = some (path, key, skipWhite rest) := by
  induction path generalizing limit with
  | nil =>
    obtain _ | limit := limit
    · omega
    · simp only [dotted, readKeyParts, hkey.skipWhite_append, readKeyPart_bare hkey hrest,
        Option.bind_eq_bind, Option.bind_some]
      split
      · next heq => simp [heq] at hpoint
      · rfl
  | cons part path ih =>
    obtain _ | limit := limit
    · omega
    · obtain ⟨hpart, hpath⟩ := List.forall_mem_cons.mp hpath
      have hmore := ih hpath (Nat.lt_of_succ_lt_succ hlimit)
      have hpoint : ∀ c ∈ ('.' :: (dotted path key ++ rest)).head?, isBareKeyChar c = false := by
        rintro c ⟨⟩
        decide
      simp only [dotted, List.append_assoc, List.cons_append, readKeyParts,
        hpart.skipWhite_append, readKeyPart_bare hpart hpoint,
        skipWhite_cons (c := '.') (by decide), hmore, Option.bind_eq_bind, Option.bind_some]
      rfl

/-! ## Values -/

private theorem readValue_string {c : Char} (hc : c = '"' ∨ c = '\'') (cs : List Char) :
    readValue (c :: cs) =
      (readString (c :: cs)).map fun (text, rest) => (.string (String.ofList text), rest) := by
  unfold readValue readValueWithin
  rw [if_pos hc]

private theorem readValue_scalar {c : Char} (hc : isScalarChar c = true) (cs : List Char) :
    readValue (c :: cs) = readScalar (c :: cs) := by
  have hne (d : Char) (hd : isScalarChar d = false) : c ≠ d := by
    rintro rfl
    simp [hd] at hc
  unfold readValue readValueWithin
  rw [if_neg (not_or.mpr ⟨hne '"' (by decide), hne '\'' (by decide)⟩), if_neg (hne '[' (by decide)),
    if_neg (hne '\x7b' (by decide))]

private theorem isScalarChar_of_isDigit {c : Char} (h : Text.isDigit c = true) :
    isScalarChar c = true := by
  have hdigit : c.isDigit = true := by
    simpa [Char.isDigit, Text.isDigit, UInt32.le_iff_toNat_le] using h
  simp [isScalarChar, Char.isAlphanum, hdigit]

/-- A numeral begins with a digit, and with a zero only where it is nothing else. -/
theorem exists_digits_eq_cons (n : Nat) :
    ∃ c cs, Text.digits n = c :: cs ∧ Text.isDigit c = true ∧ (c = '0' → cs = []) := by
  by_cases hn : n = 0
  · subst hn
    exact ⟨'0', [], by rw [Text.digits]; rfl, rfl, fun _ => rfl⟩
  · obtain ⟨c, cs, heq, hc⟩ := Text.exists_digits_eq_cons hn
    exact ⟨c, cs, heq, Text.isDigit_of_mem_digits (heq ▸ List.mem_cons_self), fun h => absurd h hc⟩

private theorem splitSign_digits (n : Nat) :
    splitSign (Text.digits n) = (false, Text.digits n) := by
  obtain ⟨c, cs, heq, hc, -⟩ := exists_digits_eq_cons n
  rw [heq]
  unfold splitSign
  split
  · next h => exact absurd ((List.cons.inj h).1 ▸ hc) (by decide)
  · next h => exact absurd ((List.cons.inj h).1 ▸ hc) (by decide)
  · rfl

private theorem wholeDigits?_digits (n : Nat) :
    wholeDigits? (Text.digits n) = some (Text.digits n) := by
  have hdigit : ∀ c ∈ Text.digits n, Text.isDigit c = true := fun _ => Text.isDigit_of_mem_digits
  have hungroup : ungroup? Text.isDigit (Text.digits n) = some (Text.digits n) := by
    have hmem : '_' ∉ Text.digits n := fun hmem => absurd (hdigit '_' hmem) (by decide)
    simpa [ungroup?, List.splitOn_eq_singleton hmem, Text.digits_ne_nil] using hdigit
  obtain ⟨c, cs, heq, -, hzero⟩ := exists_digits_eq_cons n
  unfold wholeDigits?
  rw [hungroup]
  split
  · next h =>
    rw [heq] at h
    obtain ⟨rfl, htail⟩ := List.cons.inj (Option.some.inj h)
    simp [hzero rfl] at htail
  · rfl

/-- The digits of a number in range are read as that number. -/
theorem integer?_digits {n : Nat} (h : n ≤ 9223372036854775807) :
    integer? (Text.digits n) = some (n : Int) := by
  have hdecimal : decimalInteger? (Text.digits n) = some (n : Int) := by
    have hbounded : bounded? n = some (n : Int) := if_pos (by omega)
    simp [decimalInteger?, splitSign_digits, wholeDigits?_digits, Text.ofDigits_digits, hbounded]
  obtain ⟨c, cs, heq, -, hzero⟩ := exists_digits_eq_cons n
  rw [heq] at hdecimal ⊢
  unfold integer?
  split
  · next h => simpa [hzero (List.cons.inj h).1] using (List.cons.inj h).2
  · next h => simpa [hzero (List.cons.inj h).1] using (List.cons.inj h).2
  · next h => simpa [hzero (List.cons.inj h).1] using (List.cons.inj h).2
  · exact hdecimal

private theorem scalar?_digits {n : Nat} (h : n ≤ 9223372036854775807) :
    scalar? (Text.digits n) = some (.integer n) := by
  obtain ⟨c, cs, heq, hc, -⟩ := exists_digits_eq_cons n
  have htrue : Text.digits n ≠ ['t', 'r', 'u', 'e'] := fun heq' =>
    absurd ((List.cons.inj (heq.symm.trans heq')).1 ▸ hc) (by decide)
  have hfalse : Text.digits n ≠ ['f', 'a', 'l', 's', 'e'] := fun heq' =>
    absurd ((List.cons.inj (heq.symm.trans heq')).1 ▸ hc) (by decide)
  unfold scalar?
  rw [if_neg htrue, if_neg hfalse, integer?_digits h]

/-- A word is read up to the end of its line. -/
theorem readValue_word {word : List Char} {value : Value} (hne : word ≠ [])
    (hall : ∀ c ∈ word, isScalarChar c = true) (h : scalar? word = some value)
    (rest : List Char) : readValue (word ++ '\n' :: rest) = some (value, '\n' :: rest) := by
  have hbreak : ∀ c ∈ ('\n' :: rest).head?, isScalarChar c = false := by
    rintro c ⟨⟩
    decide
  obtain ⟨htake, hdrop⟩ := span_append hall hbreak
  have hread : readScalar (word ++ '\n' :: rest) = some (value, '\n' :: rest) := by
    simp [readScalar, htake, hdrop, h]
  obtain ⟨c, cs, rfl⟩ := List.exists_cons_of_ne_nil hne
  exact (readValue_scalar (hall c List.mem_cons_self) _).trans hread

/-- A value is read back up to the end of its line. -/
theorem Plain.readValue_written {value : Plain} (h : value.Fits) (rest : List Char) :
    readValue (value.written ++ '\n' :: rest) = some (value.value, '\n' :: rest) := by
  cases value with
  | text s =>
    have hread : readString (quote s ++ '\n' :: rest) = some (s.toList, '\n' :: rest) :=
      readString_quote s (by simp)
    obtain ⟨c, cs, heq, hc⟩ := exists_quote_eq_cons s
    rw [Plain.written]
    rw [heq, List.cons_append] at hread ⊢
    simp [readValue_string hc, hread, Plain.value]
  | number n =>
    exact readValue_word (Text.digits_ne_nil n)
      (fun _ hc => isScalarChar_of_isDigit (Text.isDigit_of_mem_digits hc)) (scalar?_digits h) rest
  | flag b =>
    cases b with
    | false => exact readValue_word (by decide) (List.all_eq_true.mp (by decide)) rfl rest
    | true => exact readValue_word (by decide) (List.all_eq_true.mp (by decide)) rfl rest

private theorem Plain.head?_written (value : Plain) :
    ∀ c ∈ value.written.head?, isWhite c = false := by
  cases value with
  | text s =>
    obtain ⟨c, cs, heq, rfl | rfl⟩ := exists_quote_eq_cons s
    · simp only [Plain.written, heq, List.head?_cons]
      exact fun c hc => Option.some.inj hc ▸ rfl
    · simp only [Plain.written, heq, List.head?_cons]
      exact fun c hc => Option.some.inj hc ▸ rfl
  | number n =>
    obtain ⟨c, cs, heq, hc, -⟩ := exists_digits_eq_cons n
    have hblank : c ≠ ' ' := fun h => absurd (h ▸ hc) (by decide)
    have htab : c ≠ '\t' := fun h => absurd (h ▸ hc) (by decide)
    simp [Plain.written, heq, isWhite, hblank, htab]
  | flag b =>
    cases b with
    | false => exact fun c hc => Option.some.inj hc ▸ rfl
    | true => exact fun c hc => Option.some.inj hc ▸ rfl

/-! ## Lines -/

private theorem exists_dotted_eq_cons {path : List String} {key : String}
    (hpath : ∀ part ∈ path, IsBare part) (hkey : IsBare key) :
    ∃ c cs, dotted path key = c :: cs ∧ isBareKeyChar c = true := by
  cases path with
  | nil => exact hkey.exists_cons
  | cons part path =>
    obtain ⟨c, cs, heq, hc⟩ := (hpath part List.mem_cons_self).exists_cons
    exact ⟨c, _, by rw [dotted, heq, List.cons_append], hc⟩

/-- A header is read as its path. -/
theorem readLine_header {path : List String} {key : String} (hpath : ∀ part ∈ path, IsBare part)
    (hkey : IsBare key) (hdepth : path.length < nestingLimit - 1) (rest : List Char) :
    readLine ('[' :: (dotted path key ++ ']' :: '\n' :: rest)) =
      some (some (.header path key), rest) := by
  have hhead : ∀ c ∈ (']' :: '\n' :: rest).head?, isBareKeyChar c = false := by
    rintro c ⟨⟩
    decide
  have hread : readKey (dotted path key ++ ']' :: '\n' :: rest) =
      some (path, key, ']' :: '\n' :: rest) :=
    readKeyParts_dotted hpath hkey hdepth hhead (by simp [skipWhite_cons (c := ']') (by decide)])
  have hheader : readHeader [']'] (dotted path key ++ ']' :: '\n' :: rest) =
      some (path, key, rest) := by
    simp only [readHeader, hread, Option.bind_eq_bind, Option.bind_some]
    rfl
  obtain ⟨c, cs, heq, hc⟩ := exists_dotted_eq_cons hpath hkey
  have hopen : c ≠ '[' := ne_of_isBareKeyChar hc (by decide)
  unfold readLine
  rw [skipWhite_cons (by decide)]
  split
  · next heq => cases heq
  · next tail htail =>
    rw [heq] at htail
    exact absurd (List.cons.inj (List.cons.inj htail).2).1 hopen
  · next tail _ htail =>
    obtain rfl := (List.cons.inj htail).2
    rw [hheader]
    rfl
  · next hbracket htail => exact absurd (List.cons.inj htail).1.symm hbracket

/-- A setting is read as its key and its value. -/
theorem readKeyValue_setting {key : String} (hkey : IsBare key) {value : Plain} (h : value.Fits)
    (rest : List Char) :
    readKeyValue (key.toList ++ ' ' :: '=' :: ' ' :: (value.written ++ '\n' :: rest)) =
      some (.keyValue [] key value.value, rest) := by
  have hhead : ∀ c ∈ (' ' :: '=' :: ' ' :: (value.written ++ '\n' :: rest)).head?,
      isBareKeyChar c = false := by
    rintro c ⟨⟩
    decide
  have hskip : skipWhite (' ' :: '=' :: ' ' :: (value.written ++ '\n' :: rest)) =
      '=' :: ' ' :: (value.written ++ '\n' :: rest) := rfl
  have hread : readKey (dotted [] key ++ ' ' :: '=' :: ' ' :: (value.written ++ '\n' :: rest)) =
      some ([], key, '=' :: ' ' :: (value.written ++ '\n' :: rest)) :=
    readKeyParts_dotted (by simp) hkey (by decide) hhead (by simp [hskip])
  have hvalue : skipWhite (' ' :: (value.written ++ '\n' :: rest)) =
      value.written ++ '\n' :: rest := by
    show skipWhite (value.written ++ '\n' :: rest) = value.written ++ '\n' :: rest
    have hbegins := value.head?_written
    cases heq : value.written with
    | nil => rfl
    | cons c cs => exact skipWhite_cons (hbegins c (by simp [heq])) _
  rw [dotted] at hread
  simp only [readKeyValue, hread, after?, hvalue, Plain.readValue_written h, Option.bind_eq_bind,
    Option.bind_some, if_true]
  rfl

/-- **A line is read back**, whatever comes after it. -/
theorem Line.readLine_written {line : Line} (h : line.Fits) (rest : List Char) :
    readLine (line.written ++ rest) = some (line.statement?, rest) := by
  cases line with
  | blank => rfl
  | header path key =>
    obtain ⟨hpath, hkey, hdepth⟩ := h
    simpa [Line.written, Line.statement?] using readLine_header hpath hkey hdepth rest
  | setting key value =>
    obtain ⟨hkey, hvalue⟩ := h
    have hread := readKeyValue_setting hkey hvalue rest
    obtain ⟨c, cs, heq, hc⟩ := hkey.exists_cons
    have hne (d : Char) (hd : isBareKeyChar d = false) : c ≠ d := ne_of_isBareKeyChar hc hd
    simp only [Line.written, List.append_assoc, List.cons_append, List.nil_append]
    rw [heq, List.cons_append] at hread ⊢
    unfold readLine
    rw [skipWhite_cons (isWhite_of_isBareKeyChar hc)]
    split
    · next h => cases h
    · next h => exact absurd (List.cons.inj h).1 (hne '[' (by decide))
    · next h => exact absurd (List.cons.inj h).1 (hne '[' (by decide))
    · next h =>
      obtain ⟨rfl, rfl⟩ := List.cons.inj h
      rw [if_neg (by simp [hne '#' (by decide), hne '\n' (by decide), hne '\r' (by decide)]), hread]
      rfl

private theorem Line.written_ne_nil (line : Line) : line.written ≠ [] := by
  cases line <;> simp [Line.written]

/-- **A document is read line by line.** -/
theorem readStatements_lines {lines : List Line} (h : ∀ line ∈ lines, line.Fits) :
    readStatements (lines.flatMap Line.written) = some (lines.filterMap Line.statement?) := by
  induction lines with
  | nil => simp [readStatements]
  | cons line lines ih =>
    obtain ⟨hline, hlines⟩ := List.forall_mem_cons.mp h
    have hread := Line.readLine_written hline (lines.flatMap Line.written)
    obtain ⟨c, cs, heq⟩ := List.exists_cons_of_ne_nil line.written_ne_nil
    have hlength : (lines.flatMap Line.written).length <
        (c :: (cs ++ lines.flatMap Line.written)).length := by
      simp only [List.length_cons, List.length_append]
      omega
    have hmore : line.statement?.toList ++ lines.filterMap Line.statement? =
        (line :: lines).filterMap Line.statement? := by
      rw [List.filterMap_cons]
      cases line.statement? <;> rfl
    rw [List.flatMap_cons]
    rw [heq, List.cons_append] at hread ⊢
    rw [readStatements, hread, ← hmore]
    simp only [Option.bind_eq_bind, Option.bind_some, if_pos hlength, ih hlines]
    rfl

end Rollout.Toml
