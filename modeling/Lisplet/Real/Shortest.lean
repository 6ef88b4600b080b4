import Lisplet.Real.Double

/-!
# The shortest decimal of a double

A double is written with the fewest digits that read back as the same double, and of the decimals
with that many digits the nearest one. The reals that read back as a double form an interval
around it, with its ends included exactly when the mantissa is even. A grid of decimals with a
common power of ten has a point in that interval only if one of the two grid points next to the
double lies in it, so two candidates per grid are enough.

The second half lays the digits out: positionally while the leading digit stands for a power of
ten from `10 ^ (-4)` to `10 ^ 15`, otherwise with an exponent of at least two digits.
-/

namespace Lisplet.Real

/-- A positive decimal `digits * 10 ^ power`. -/
structure Decimal where
  /-- All digits, read as a natural number. -/
  digits : Nat
  /-- The power of ten that the last digit stands for. -/
  power : Int
deriving DecidableEq, Repr

/-- The reals that are read as one double, in quarters of its spacing above: the double lies at
`centre`, and the reals from `low` to `high` are read as it. -/
structure Interval where
  /-- The lower end. -/
  low : Nat
  /-- The double itself. -/
  centre : Nat
  /-- The upper end. -/
  high : Nat
  /-- Whether the ends are read as this double too. -/
  closed : Bool
  /-- The power of two that one quarter of the spacing amounts to, in units of `2 ^ (-1076)`. -/
  shift : Nat

/-- The interval of a double. Below a power of two the doubles are twice as dense, so the lower
half of the interval is narrower there. -/
def interval (mantissa shift : Nat) : Interval where
  low := 4 * mantissa - if mantissa = Nat.pow 2 52 ∧ 0 < shift then 1 else 2
  centre := 4 * mantissa
  high := 4 * mantissa + 2
  closed := mantissa % 2 = 0
  shift := shift

namespace Interval

/-- The ratio of a quarter of the spacing to `10 ^ power`. -/
def scale (i : Interval) (power : Int) : Nat × Nat :=
  if 0 ≤ power then (Nat.pow 2 i.shift, Nat.pow 2 1076 * Nat.pow 10 power.toNat)
  else (Nat.pow 2 i.shift * Nat.pow 10 power.natAbs, Nat.pow 2 1076)

/-- Whether the decimal `digits * 10 ^ power` is read as the double, where the ratio of a quarter
of the spacing to `10 ^ power` is `num / den`. -/
def admits (i : Interval) (num den digits : Nat) : Bool :=
  if i.closed then i.low * num ≤ digits * den && digits * den ≤ i.high * num
  else i.low * num < digits * den && digits * den < i.high * num

/-- The point of the grid of multiples of `10 ^ power` that is read as the double and nearest to
it, if there is one. -/
def onGrid? (i : Interval) (power : Int) : Option Nat :=
  let (num, den) := i.scale power
  let down := i.centre * num / den
  let remainder := i.centre * num % den
  match i.admits num den down, i.admits num den (down + 1) with
  | false, false => none
  | true, false => some down
  | false, true => some (down + 1)
  | true, true =>
    if 2 * remainder < den || (2 * remainder = den && down % 2 = 0) then some down
    else some (down + 1)

/-- The first grid with a point in the interval, going from coarse to fine. -/
def search (i : Interval) : Nat → Int → Decimal
  | 0, power => ⟨(i.onGrid? power).getD 0, power⟩
  | steps + 1, power =>
    match i.onGrid? power with
    | some digits => ⟨digits, power⟩
    | none => i.search steps (power - 1)

end Interval

/-- The shortest decimal that is read as the positive double `mantissa * 2 ^ shift`.

The search starts at a power of ten above the double, estimated from its binary size, and needs at
most seventeen digits below the first one. -/
def shortest (mantissa shift : Nat) : Decimal :=
  let size : Int := Int.ofNat (Nat.log2 mantissa + shift) - 1074
  (interval mantissa shift).search 20 (((size + 1) * 30103).fdiv 100000 + 1)

/-- The digits of a decimal without trailing zeros, and the power of ten of the leading one. -/
def Decimal.scientific (d : Decimal) : List Char × Int :=
  let digits := Nat.toDigits 10 d.digits
  ((digits.reverse.dropWhile (· == '0')).reverse, d.power + (Int.ofNat digits.length - 1))

/-- Digits written positionally, where the leading one stands for `10 ^ exponent`. There is
always a digit on either side of the point. -/
def positional (digits : List Char) (exponent : Int) : List Char :=
  if 0 ≤ exponent then
    let whole := exponent.toNat + 1
    if digits.length ≤ whole then
      digits ++ List.replicate (whole - digits.length) '0' ++ ['.', '0']
    else digits.take whole ++ '.' :: digits.drop whole
  else '0' :: '.' :: List.replicate (exponent.natAbs - 1) '0' ++ digits

/-- Digits written with an exponent, which has a sign and at least two digits. -/
def exponential (digits : List Char) (exponent : Int) : List Char :=
  let power := Nat.toDigits 10 exponent.natAbs
  let mantissa := match digits with
    | [] => []
    | [digit] => [digit]
    | digit :: rest => digit :: '.' :: rest
  mantissa ++ 'e' :: (if exponent < 0 then '-' else '+') ::
    (if power.length < 2 then '0' :: power else power)

/-- The text of a positive decimal. -/
def Decimal.text (d : Decimal) : List Char :=
  let (digits, exponent) := d.scientific
  if -4 ≤ exponent ∧ exponent < 16 then positional digits exponent
  else exponential digits exponent

/-- The text of a double. -/
def text (x : Float) : String :=
  match shape x with
  | .undefined => "nan"
  | .infinite negative => if negative then "-inf" else "inf"
  | .finite negative mantissa shift =>
    let distance := if mantissa = 0 then ['0', '.', '0'] else (shortest mantissa shift).text
    String.ofList (if negative then '-' :: distance else distance)

end Lisplet.Real
