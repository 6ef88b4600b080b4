import Lisplet.Error
import Lisplet.Text
import Lisplet.Value

/-!
# Numeric literals

An integer literal is a row of digits with an optional sign. A real literal has a point with digits
on at least one side, or an exponent, or both. The digits are decimal digits of any script, and
what is neither kind of literal is a name.

An integer literal is limited to 4300 digits, leading zeros included. A real literal of any length
is rounded once to the nearest double.
-/

namespace Lisplet

/-- A numeric literal, with its digits as values. -/
inductive Literal where
  /-- An integer. -/
  | integer (negative : Bool) (digits : List Nat)
  /-- The digits before and after the point, times a power of ten. -/
  | real (negative : Bool) (whole fraction : List Nat) (exponent : Int)
deriving DecidableEq, Repr

namespace Literal

/-- The digits at the start of a text, and the rest. -/
def takeDigits (text : List Char) : List Nat × List Char :=
  ((text.takeWhile Text.isDecimalDigit).filterMap Text.digitValue?,
    text.dropWhile Text.isDecimalDigit)

/-- Whether a text starts with a minus sign, and the text after its sign. -/
def takeSign : List Char → Bool × List Char
  | '-' :: rest => (true, rest)
  | '+' :: rest => (false, rest)
  | text => (false, text)

/-- The exponent that a whole text spells. A missing exponent is zero. -/
def exponent? : List Char → Option Int
  | [] => some 0
  | c :: rest =>
    if c = 'e' || c = 'E' then
      let (negative, rest) := takeSign rest
      match takeDigits rest with
      | (digit :: digits, []) =>
        let size := Int.ofNat (Text.digitsValue (digit :: digits))
        some (if negative then -size else size)
      | _ => none
    else none

/-- The literal that a whole text spells. -/
def read? (text : List Char) : Option Literal :=
  let (negative, unsigned) := takeSign text
  match takeDigits unsigned with
  | (digit :: digits, []) => some (.integer negative (digit :: digits))
  | (whole, '.' :: rest) =>
    let (fraction, rest) := takeDigits rest
    if whole.isEmpty && fraction.isEmpty then none
    else (exponent? rest).map (.real negative whole fraction)
  | ([], _) => none
  | (whole, rest) => (exponent? rest).map (.real negative whole [])

/-- The number that a literal denotes. -/
def value : Literal → Except Error Number
  | .integer negative digits =>
    if digits.length ≤ Number.digitLimit then
      let size := Int.ofNat (Text.digitsValue digits)
      .ok (.int (if negative then -size else size))
    else .error (.literalTooLong digits.length)
  | .real negative whole fraction exponent =>
    .ok (.real (Real.ofDecimal negative (Text.digitsValue (whole ++ fraction))
      (exponent - Int.ofNat fraction.length)))

end Literal

/-- The tree of an atom: a number if it is a numeric literal, otherwise a name. -/
def Node.ofAtom (text : String) : Except Error Node :=
  match Literal.read? text.toList with
  | some literal => literal.value.map Node.number
  | none => .ok (.identifier text)

end Lisplet
