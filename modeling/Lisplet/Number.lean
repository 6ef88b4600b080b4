import Lisplet.Real.Double
import Lisplet.Real.Shortest

/-!
# Numbers

A number is an integer of any size, a double, or a truth value that counts as zero or one. Numbers
are compared by their exact places on the extended line, whatever their kinds. Arithmetic on
integers is exact. As soon as a double takes part, the other operand is rounded to a double first.

A double that is no number has no place, and so is equal to nothing. Lists and trees that hold the
same one are equal nevertheless. So each of them has an identity: the call that made it, if a call
made it at all, and an index that tells it apart from others of this origin.
-/

namespace Lisplet

/-- A number of the language. -/
inductive Number where
  /-- An integer of any size. -/
  | int (n : Int)
  /-- A double. -/
  | real (x : Float)
  /-- A truth value, which only host procedures produce. -/
  | bool (b : Bool)
  /-- A double that is no number, known by the call that made it, which is `none` for one that was
  given from outside, and by an index. -/
  | undefined (origin : Option Nat) (index : Nat)
deriving DecidableEq

namespace Number

/-- What can go wrong in arithmetic. -/
inductive Fault where
  /-- An integer divided by the integer zero. -/
  | divisionByZero
  /-- A division by zero in which a double takes part. -/
  | realDivisionByZero
  /-- An integer beyond the largest double where a double is needed. -/
  | integerTooLarge
  /-- A quotient of integers beyond the largest double. -/
  | quotientTooLarge
deriving DecidableEq, Repr

/-- The integer that a number is, if it is an integer or counts as one. -/
def whole? : Number → Option Int
  | int n => some n
  | real _ => none
  | bool b => some (if b then 1 else 0)
  | undefined _ _ => none

/-- The place of a number on the extended line. -/
def extent : Number → Real.Extent
  | int n => Real.extentOfInt n
  | real x => Real.extent x
  | bool b => Real.extentOfInt (if b then 1 else 0)
  | undefined _ _ => .nowhere

/-- Numbers are the same when their exact values are. -/
def same (a b : Number) : Bool :=
  a.extent.same b.extent

/-- Numbers are alike inside lists and trees when they are the same or one number. -/
def alike (a b : Number) : Bool :=
  a.same b || a == b

/-- The order of the exact values. -/
def less (a b : Number) : Bool :=
  a.extent.less b.extent

/-- Whether a number is zero, of whatever kind and sign. -/
def isZero (a : Number) : Bool :=
  a.same (int 0)

/-- A number as a double. -/
def toReal : Number → Except Fault Float
  | real x => .ok x
  | int n =>
    match Real.ofInt? n with
    | some x => .ok x
    | none => .error .integerTooLarge
  | bool b => .ok (if b then 1.0 else 0.0)
  | undefined _ _ => .ok Real.nan

/-- An operation that is exact on integers and otherwise works on doubles. -/
def combine (exact : Int → Int → Int) (rounded : Float → Float → Float) (a b : Number) :
    Except Fault Number :=
  match a.whole?, b.whole? with
  | some m, some n => .ok (int (exact m n))
  | _, _ => do
    let x ← a.toReal
    let y ← b.toReal
    .ok (real (rounded x y))

/-- The sum of two numbers. -/
def add : Number → Number → Except Fault Number :=
  combine (· + ·) (· + ·)

/-- The difference of two numbers. -/
def sub : Number → Number → Except Fault Number :=
  combine (· - ·) (· - ·)

/-- The product of two numbers. -/
def mul : Number → Number → Except Fault Number :=
  combine (· * ·) (· * ·)

/-- The number with the opposite sign. -/
def neg : Number → Number
  | int n => int (-n)
  | real x => real (-x)
  | bool b => int (if b then -1 else 0)
  | undefined _ _ => real Real.nan

/-- The quotient of two numbers, which is always a double. The quotient of two integers is rounded
once, however large they are, and has the sign of a quotient even when it is zero. -/
def div (a b : Number) : Except Fault Number :=
  match a.whole?, b.whole? with
  | some m, some n =>
    if n = 0 then .error .divisionByZero
    else match Real.ofRatio? ((m < 0) != (n < 0)) m.natAbs n.natAbs with
      | some x => .ok (real x)
      | none => .error .quotientTooLarge
  | _, _ => do
    let x ← a.toReal
    let y ← b.toReal
    if y == 0.0 then .error .realDivisionByZero else .ok (real (x / y))

/-- A number as the result of a call. If it has no place on the line, it is a new one. -/
def madeBy (call : Nat) (n : Number) : Number :=
  if n.extent = .nowhere then undefined (some call) 0 else n

/-- The most decimal digits that an integer may have in a text. -/
def digitLimit : Nat := 4300

/-- The decimal text of an integer. -/
def integerText (n : Int) : String :=
  String.ofList (if n < 0 then '-' :: Nat.toDigits 10 n.natAbs else Nat.toDigits 10 n.natAbs)

/-- The text of a number. An integer of more than `digitLimit` digits has none. -/
def text : Number → Option String
  | int n => if n.natAbs < Nat.pow 10 digitLimit then some (integerText n) else none
  | real x => some (Real.text x)
  | bool b => some (if b then "True" else "False")
  | undefined _ _ => some (Real.text Real.nan)

end Number

end Lisplet
