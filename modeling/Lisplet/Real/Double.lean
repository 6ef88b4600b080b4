/-!
# Doubles as exact multiples of the smallest one

Every finite double is an integer multiple of `2 ^ (-1074)`, the smallest positive one. With that
unit a double is a sign, a mantissa below `2 ^ 53` and a shift, and its distance from zero is the
natural number `mantissa * 2 ^ shift`. Comparison, rounding and the choice of digits all work on
these naturals, so nothing here rounds twice.

The non-negative finite doubles in ascending order are numbered by their bit patterns. The number
of the double `mantissa * 2 ^ shift` is `shift * 2 ^ 52 + mantissa`.
-/

namespace Lisplet.Real

/-- What a double is: no number at all, an infinity, or an exact multiple of the unit
`2 ^ (-1074)`. -/
inductive Shape where
  /-- The value of an undefined operation. -/
  | undefined
  /-- One of the two infinities. -/
  | infinite (negative : Bool)
  /-- The value `± mantissa * 2 ^ shift` units. -/
  | finite (negative : Bool) (mantissa shift : Nat)
deriving DecidableEq, Repr

/-- The shape of a double, read off its bits. -/
def shape (x : Float) : Shape :=
  let bits := x.toBits.toNat
  let negative := Nat.pow 2 63 ≤ bits
  let exponent := bits / Nat.pow 2 52 % Nat.pow 2 11
  let fraction := bits % Nat.pow 2 52
  if exponent = 2047 then
    if fraction = 0 then .infinite negative else .undefined
  else if exponent = 0 then .finite negative fraction 0
  else .finite negative (Nat.pow 2 52 + fraction) (exponent - 1)

/-- The number of the positive infinity in the order of bit patterns. -/
def infinityOrdinal : Nat := 2047 * Nat.pow 2 52

/-- The double with a given sign whose distance from zero has the given number. -/
def ofOrdinal (negative : Bool) (ordinal : Nat) : Float :=
  Float.ofBits (UInt64.ofNat (if negative then Nat.pow 2 63 + ordinal else ordinal))

/-- A double that is no number. -/
def nan : Float := 0.0 / 0.0

/-- Where a double lies on the extended line, in units of `2 ^ (-1074)`. -/
inductive Extent where
  /-- Nowhere: the double is no number. -/
  | nowhere
  /-- Below every finite number. -/
  | below
  /-- At a multiple of the unit. -/
  | units (count : Int)
  /-- Above every finite number. -/
  | above
deriving DecidableEq, Repr

namespace Extent

/-- Two numbers are equal when they lie at the same place. What lies nowhere is equal to
nothing. -/
def same : Extent → Extent → Bool
  | nowhere, _ => false
  | a, b => a == b

/-- The order of the extended line. What lies nowhere is in order with nothing. -/
def less : Extent → Extent → Bool
  | below, units _ | below, above | units _, above => true
  | units m, units n => m < n
  | _, _ => false

end Extent

/-- The place of a double. -/
def extent (x : Float) : Extent :=
  match shape x with
  | .undefined => .nowhere
  | .infinite negative => if negative then .below else .above
  | .finite negative mantissa shift =>
    let distance : Int := Int.ofNat (mantissa * Nat.pow 2 shift)
    .units (if negative then -distance else distance)

/-- The place of an integer. -/
def extentOfInt (n : Int) : Extent :=
  .units (n * Int.ofNat (Nat.pow 2 1074))

/-! ## Ratios rounded to doubles

A ratio of two naturals is rounded to the nearest double, a tie going to the even mantissa. The
same rule turns integers, integer quotients and decimal literals into doubles, so each of them is
rounded exactly once. -/

/-- The quotient of two naturals rounded to the nearest natural, a tie going to the even one. -/
def roundDiv (num den : Nat) : Nat :=
  let quotient := num / den
  let twice := 2 * (num % den)
  if twice < den || (twice = den && quotient % 2 = 0) then quotient else quotient + 1

/-- The number, in the order of bit patterns, of the double nearest to `num / den`.

The shift leaves a mantissa of 53 binary digits, or fewer for a ratio below `2 ^ (-1022)`. A
mantissa that is rounded up to `2 ^ 53` yields the first double of the next shift, and the numbers
from `infinityOrdinal` on stand for ratios too large for a double. -/
def roundOrdinal (num den : Nat) : Nat :=
  let units := num * Nat.pow 2 1074
  let shift := Nat.log2 (units / den) - 52
  shift * Nat.pow 2 52 + roundDiv units (den * Nat.pow 2 shift)

/-- The double nearest to `± num / den`, or `none` when that is beyond the largest one. -/
def ofRatio? (negative : Bool) (num den : Nat) : Option Float :=
  let ordinal := roundOrdinal num den
  if ordinal < infinityOrdinal then some (ofOrdinal negative ordinal) else none

/-- The double nearest to an integer, or `none` when that is beyond the largest one. -/
def ofInt? (n : Int) : Option Float :=
  ofRatio? (n < 0) n.natAbs 1

/-- The double nearest to `± digits * 10 ^ exponent`, an infinity when that is beyond the largest
one.

An exponent whose size alone decides between zero and infinity is never raised to a power. -/
def ofDecimal (negative : Bool) (digits : Nat) (exponent : Int) : Float :=
  let power := exponent.natAbs
  if digits = 0 then ofOrdinal negative 0
  else if 0 ≤ exponent then
    if 1100 < Nat.log2 digits + 3 * power then ofOrdinal negative infinityOrdinal
    else (ofRatio? negative (digits * Nat.pow 10 power) 1).getD (ofOrdinal negative infinityOrdinal)
  else if Nat.log2 digits + 1 + 1080 < 3 * power then ofOrdinal negative 0
  else (ofRatio? negative digits (Nat.pow 10 power)).getD (ofOrdinal negative infinityOrdinal)

end Lisplet.Real
