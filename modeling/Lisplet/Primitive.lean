import Lisplet.Error
import Lisplet.Value.Equality
import Lisplet.Value.Render

/-!
# Primitives

The primitives take any number of arguments. All but equality look for an argument that is no
number before anything else, from left to right. Truth values are no numbers to them. Comparisons
look at neighbours and answer with one or zero.
-/

namespace Lisplet

namespace Primitive

/-- The numbers that a list of arguments consists of. Which of the doubles they are that are no
numbers does not matter to arithmetic. -/
def numbers (primitive : Primitive) : List Value → Except Error (List Number)
  | [] => .ok []
  | .number (.int n) :: rest => (numbers primitive rest).map (.int n :: ·)
  | .number (.real x) :: rest => (numbers primitive rest).map (.real x :: ·)
  | .number (.undefined _ _) :: rest => (numbers primitive rest).map (.real Real.nan :: ·)
  | other :: _ => .error (Error.naming other.inspect (.notNumber primitive))

/-- Combines numbers from left to right. -/
def fold (combine : Number → Number → Except Number.Fault Number) (start : Number) :
    List Number → Except Error Number
  | [] => .ok start
  | n :: rest =>
    match combine start n with
    | .ok next => fold combine next rest
    | .error fault => .error (.arithmetic fault)

/-- The sum of numbers. -/
def sum : List Number → Except Error Number :=
  fold Number.add (.int 0)

/-- The product of numbers. -/
def product : List Number → Except Error Number :=
  fold Number.mul (.int 1)

/-- The first number less the sum of the others. A single number is negated. -/
def difference : List Number → Except Error Number
  | [] => .error (.tooFewArguments .sub)
  | [n] => .ok n.neg
  | n :: rest => do
    let total ← sum rest
    fold Number.sub n [total]

/-- The first number divided by the others in turn. -/
def quotient : List Number → Except Error Number
  | n :: divisor :: rest => fold Number.div n (divisor :: rest)
  | _ => .error (.tooFewArguments .div)

/-- Whether a relation holds between all neighbours. -/
def neighbours {α : Type} (related : α → α → Bool) : List α → Bool
  | a :: b :: rest => related a b && neighbours related (b :: rest)
  | _ => true

/-- One if a relation holds between all neighbours of at least two arguments, otherwise zero. -/
def compare {α : Type} (primitive : Primitive) (related : α → α → Bool) (arguments : List α) :
    Except Error Value :=
  if arguments.length < 2 then .error (.tooFewArguments primitive)
  else .ok (.int (if neighbours related arguments then 1 else 0))

/-- The value of a primitive at a list of arguments. -/
def run (primitive : Primitive) (arguments : List Value) : Except Error Value :=
  match primitive with
  | add => do return .number (← sum (← numbers add arguments))
  | sub => do return .number (← difference (← numbers sub arguments))
  | mul => do return .number (← product (← numbers mul arguments))
  | div => do return .number (← quotient (← numbers div arguments))
  | equals => compare equals Value.same arguments
  | less => do compare less Number.less (← numbers less arguments)
  | greater => do compare greater (fun a b => b.less a) (← numbers greater arguments)

/-- The bindings of the primitives to their symbols. -/
def bindings : List (String × Value) :=
  all.map fun primitive => (primitive.symbol, .host (.primitive primitive))

end Primitive

/-- What the procedures of a host do. Every call has an identity, which a procedure can give to the
doubles that it makes and that are no numbers. -/
abbrev Host := Procedure → Nat → List Value → Except Error Value

/-- A value as the result of a call, which makes every number anew. -/
def Value.madeBy (call : Nat) : Value → Value
  | .number n => .number (n.madeBy call)
  | value => value

/-- The value that a call of a host procedure yields for a list of arguments. -/
def Callable.call (host : Host) (call : Nat) (arguments : List Value) :
    Callable → Except Error Value
  | .primitive p => (p.run arguments).map (Value.madeBy call)
  | .function procedure => host procedure call arguments
  | .object procedure => host procedure call arguments

end Lisplet
