import Rollout.Text.DoubleRange
import Rollout.Text.Hexadecimal
import Rollout.Text.Numeral
import Rollout.Toml.Value

/-!
# TOML scalars

Numbers, truth values and dates are written without quotes. Such a scalar is the longest run
of the characters that may occur in one; it is then read as a whole.
-/

namespace Rollout.Toml

/-- The characters of unquoted scalars. -/
def isScalarChar (c : Char) : Bool :=
  c.isAlphanum || c == '_' || c == '+' || c == '-' || c == '.' || c == ':'

/-- Digits with single underscores between them, without these. -/
def ungroup? (isDigit : Char → Bool) (cs : List Char) : Option (List Char) :=
  let groups := cs.splitOn '_'
  if groups.all fun g => !g.isEmpty && g.all isDigit then some groups.flatten else none

/-- Decimal digits in groups; only a zero alone begins with zero. -/
def wholeDigits? (cs : List Char) : Option (List Char) :=
  match ungroup? Text.isDigit cs with
  | some ('0' :: _ :: _) => none
  | found => found

/-- A sign in front, and what follows it. -/
def splitSign : List Char → Bool × List Char
  | '-' :: cs => (true, cs)
  | '+' :: cs => (false, cs)
  | cs => (false, cs)

/-! ## Integers -/

/-- Whether a character is a digit in a base of at most sixteen. -/
def isDigitOf (base : Nat) (c : Char) : Bool :=
  (Text.hexValue? c).any (· < base)

/-- The number that digits of a base denote. -/
def ofDigitsOf (base : Nat) (cs : List Char) : Nat :=
  cs.foldl (fun n c => base * n + (Text.hexValue? c).getD 0) 0

/-- An integer of 64 bits with a sign. -/
def bounded? (i : Int) : Option Int :=
  if -9223372036854775808 ≤ i ∧ i ≤ 9223372036854775807 then some i else none

/-- A number in another base, after its mark. -/
def basedInteger? (base : Nat) (cs : List Char) : Option Int :=
  (ungroup? (isDigitOf base) cs).bind fun ds => bounded? (ofDigitsOf base ds)

/-- A decimal number with or without a sign. -/
def decimalInteger? (cs : List Char) : Option Int :=
  let (negative, cs) := splitSign cs
  (wholeDigits? cs).bind fun ds =>
    let n : Int := Text.ofDigits ds
    bounded? (if negative then -n else n)

/-- An integer in any of the four bases. -/
def integer? : List Char → Option Int
  | '0' :: 'x' :: cs => basedInteger? 16 cs
  | '0' :: 'o' :: cs => basedInteger? 8 cs
  | '0' :: 'b' :: cs => basedInteger? 2 cs
  | cs => decimalInteger? cs

/-! ## Floating point numbers -/

/-- The digits of a fraction after its point. -/
def fraction? : List Char → Option (List Char)
  | [] => some []
  | '.' :: cs => ungroup? Text.isDigit cs
  | _ => none

/-- An exponent after its letter. -/
def exponent? : List Char → Option Int
  | [] => some 0
  | _ :: cs =>
    let (negative, cs) := splitSign cs
    (ungroup? Text.isDigit cs).map fun ds =>
      if negative then -Text.ofDigits ds else Text.ofDigits ds

/-- Whether a character marks an exponent. -/
def isExponentMark (c : Char) : Bool :=
  c == 'e' || c == 'E'

/-- Whether a text is a floating point number: infinite, not a number, or decimal with a
fraction or an exponent. A positive one must not be beyond the largest double. -/
def isFloat (cs : List Char) : Bool :=
  let (negative, cs) := splitSign cs
  if cs = ['i', 'n', 'f'] ∨ cs = ['n', 'a', 'n'] then true
  else
    let mantissa := cs.takeWhile (!isExponentMark ·)
    let tail := cs.dropWhile (!isExponentMark ·)
    let point := mantissa.dropWhile (· != '.')
    match wholeDigits? (mantissa.takeWhile (· != '.')), fraction? point, exponent? tail with
    | some whole, some fraction, some exponent =>
      !(point.isEmpty && tail.isEmpty) &&
        (negative ||
          Text.isWithinDoubles (Text.ofDigits (whole ++ fraction)) (exponent - fraction.length))
    | _, _, _ => false

/-! ## Dates and times -/

/-- A number of exactly so many digits in front, and what follows it. -/
def fixedDigits? (width : Nat) (cs : List Char) : Option (Nat × List Char) :=
  let ds := cs.take width
  if ds.length = width ∧ ds.all Text.isDigit then some (Text.ofDigits ds, cs.drop width) else none

/-- What follows a character that has to be in front. -/
def after? (c : Char) : List Char → Option (List Char)
  | [] => none
  | d :: rest => if d = c then some rest else none

/-- How many days a month has. -/
def daysInMonth (year month : Nat) : Nat :=
  if month = 2 then
    if year % 4 = 0 ∧ (year % 100 ≠ 0 ∨ year % 400 = 0) then 29 else 28
  else if month = 4 ∨ month = 6 ∨ month = 9 ∨ month = 11 then 30
  else 31

/-- What follows a date in front. -/
def afterDate? (cs : List Char) : Option (List Char) := do
  let (year, cs) ← fixedDigits? 4 cs
  let (month, cs) ← fixedDigits? 2 (← after? '-' cs)
  let (day, cs) ← fixedDigits? 2 (← after? '-' cs)
  if 1 ≤ month ∧ month ≤ 12 ∧ 1 ≤ day ∧ day ≤ daysInMonth year month then some cs else none

/-- What follows hours and minutes in front. -/
def afterMinutes? (cs : List Char) : Option (List Char) := do
  let (hour, cs) ← fixedDigits? 2 cs
  let (minute, cs) ← fixedDigits? 2 (← after? ':' cs)
  if hour ≤ 23 ∧ minute ≤ 59 then some cs else none

/-- What follows the fraction of a second, if there is one. -/
def afterSecondFraction? : List Char → Option (List Char)
  | '.' :: cs =>
    if (cs.takeWhile Text.isDigit).isEmpty then none else some (cs.dropWhile Text.isDigit)
  | cs => some cs

/-- What follows a time of day in front; a second may be a leap second. -/
def afterTime? (cs : List Char) : Option (List Char) := do
  let (second, cs) ← fixedDigits? 2 (← after? ':' (← afterMinutes? cs))
  if second ≤ 60 then afterSecondFraction? cs else none

/-- Whether a text is empty or an offset from universal time. -/
def isOffset : List Char → Bool
  | [] => true
  | [c] => c == 'Z' || c == 'z'
  | c :: cs => (c == '+' || c == '-') && afterMinutes? cs == some []

/-- Whether a text is a time of day, perhaps with an offset. -/
def isTimeWithOffset (cs : List Char) : Bool :=
  (afterTime? cs).any isOffset

/-- Whether a text is a date alone. -/
def isDate (cs : List Char) : Bool :=
  afterDate? cs == some []

/-- Whether a text without blanks is a date, a time of day, or both with a letter between. -/
def isDatetime (cs : List Char) : Bool :=
  afterTime? cs == some [] ||
    match afterDate? cs with
    | some [] => true
    | some (c :: rest) => (c == 'T' || c == 't') && isTimeWithOffset rest
    | none => false

/-! ## All scalars -/

/-- The value of an unquoted scalar. -/
def scalar? (cs : List Char) : Option Value :=
  if cs = ['t', 'r', 'u', 'e'] then some (.boolean true)
  else if cs = ['f', 'a', 'l', 's', 'e'] then some (.boolean false)
  else
    match integer? cs with
    | some i => some (.integer i)
    | none =>
      if isFloat cs then some .float
      else if isDatetime cs then some .datetime
      else none

/-- Reads an unquoted scalar. A blank may stand between a date and a time. -/
def readScalar (cs : List Char) : Option (Value × List Char) :=
  let token := cs.takeWhile isScalarChar
  let rest := cs.dropWhile isScalarChar
  let time := (rest.drop 1).takeWhile isScalarChar
  if rest.head? = some ' ' ∧ isDate token ∧ isTimeWithOffset time then
    some (.datetime, (rest.drop 1).dropWhile isScalarChar)
  else (scalar? token).map fun v => (v, rest)

end Rollout.Toml
