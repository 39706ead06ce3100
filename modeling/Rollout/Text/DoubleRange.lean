/-!
# The range of doubles

A decimal beyond the largest double is refused where numbers are read in full. There are two
ways to read one: rounding it once, or multiplying two doubles that are rounded on their own.
They disagree about some decimals next to the bound.
-/

namespace Rollout.Text

/-- The least magnitude that rounds to infinity, half a unit beyond the largest double. -/
def doubleBound : Nat :=
  Nat.pow 2 1024 - Nat.pow 2 970

/-- Whether the double nearest to `significand * 10 ^ exponent` is finite. Magnitudes far from
the bound are told apart by their number of digits. -/
def isWithinDoubles (significand : Nat) (exponent : Int) : Bool :=
  let width : Int := (Nat.toDigits 10 significand).length
  if significand = 0 || width + exponent < 300 then true
  else if 400 < width + exponent then false
  else if exponent < 0 then significand < doubleBound * Nat.pow 10 exponent.natAbs
  else significand * Nat.pow 10 exponent.natAbs < doubleBound

/-- The double nearest to a natural number below the bound: 53 binary digits, and of two that
are equally near the even one. -/
def nearestDouble (n : Nat) : Nat :=
  let unit := 1 <<< (n.log2 + 1 - 53)
  let kept := n / unit
  let lost := n % unit
  if unit < 2 * lost ∨ (unit = 2 * lost ∧ kept % 2 = 1) then (kept + 1) * unit else kept * unit

/-- A decimal cut to as many of its first digits as fit in 64 bits. -/
def firstDigits (significand : Nat) (exponent : Int) : Nat × Int :=
  let width := (Nat.toDigits 10 significand).length
  let cut (n : Nat) : Nat × Int := (significand / Nat.pow 10 n, exponent + n)
  let twenty := cut (width - 20)
  if twenty.1 < UInt64.size then twenty else cut (width - 19)

/-- Whether the product of the double nearest to the first digits of a decimal and the double
nearest to its power of ten is finite. A power of ten beyond the largest double counts as
infinite, but nothing is as long as the digits are zero. -/
def isFiniteProduct (significand : Nat) (exponent : Int) : Bool :=
  let (significand, exponent) := firstDigits significand exponent
  if significand = 0 ∨ exponent < 0 then true
  else if 308 < exponent then false
  else nearestDouble significand * nearestDouble (Nat.pow 10 exponent.toNat) < doubleBound

end Rollout.Text
