import Lisplet.Callable
import Lisplet.Number

/-!
# Syntax trees and values

The two types are mutually recursive: quoted code is a value, and code that a program assembles
holds values as constants. A closure knows the frame that it was made in by the number of the frame,
and has a number of its own that tells it apart from every other closure.
-/

namespace Lisplet

/-- The name of a frame, which is its number in the order of creation. -/
structure FrameId where
  /-- The number of frames that are older. -/
  index : Nat
deriving DecidableEq, Repr

mutual

/-- What evaluation yields and frames hold. -/
inductive Value where
  /-- A number. -/
  | number (n : Number)
  /-- A text. -/
  | text (s : String)
  /-- A list of values. -/
  | list (items : List Value)
  /-- The value of the empty form. -/
  | empty
  /-- The value of a name that nothing binds. -/
  | absent
  /-- The host's value for "nothing". -/
  | nothing
  /-- Code as data. -/
  | quoted (node : Node)
  /-- A closure: its identity, parameters, body, and the frame it was made in. -/
  | closure (identity : Nat) (params : List String) (body : Node) (scope : FrameId)
  /-- A procedure of the host. -/
  | host (callable : Callable)

/-- A syntax tree. -/
inductive Node where
  /-- A name. -/
  | identifier (name : String)
  /-- A numeric literal. -/
  | number (n : Number)
  /-- A text literal. -/
  | string (s : String)
  /-- A parenthesised row of trees. -/
  | form (children : List Node)
  /-- A quoted tree. -/
  | quote (inner : Node)
  /-- An evaluated value that stands in assembled code. -/
  | constant (value : Value)
  /-- A value that stands where code is expected but is no code. -/
  | foreign (value : Value)

end

instance : Inhabited Value := ⟨.empty⟩

instance : Inhabited Node := ⟨.form []⟩

namespace Value

/-- An integer as a value. -/
def int (n : Int) : Value :=
  .number (.int n)

/-- Only numbers that are zero are false. -/
def isFalse : Value → Bool
  | .number n => n.isZero
  | _ => false

/-- The tree that an item of a list contributes to assembled code: quoted code stands for itself,
any other value for a constant. -/
def toNode : Value → Node
  | .quoted node => node
  | value => .constant value

end Value

/-- The form that a list of values spells. -/
def Node.ofItems (items : List Value) : Node :=
  .form (items.map Value.toNode)

end Lisplet
