/-!
# Host procedures

Programs call procedures of their host through ordinary bindings. Seven primitives come with the
language. Every other procedure has a name and an identity, and what it does is up to the host.
-/

namespace Lisplet

/-- The arithmetic and comparison procedures that come with the language. -/
inductive Primitive where
  /-- The sum of all arguments. -/
  | add
  /-- The first argument less the others, or the negated argument. -/
  | sub
  /-- The product of all arguments. -/
  | mul
  /-- The first argument divided by the others in turn. -/
  | div
  /-- Whether neighbours are equal. -/
  | equals
  /-- Whether the arguments ascend. -/
  | less
  /-- Whether the arguments descend. -/
  | greater
deriving DecidableEq, Repr

namespace Primitive

/-- All primitives, in the order in which they are bound. -/
def all : List Primitive :=
  [add, sub, mul, div, equals, less, greater]

/-- The name that programs use. -/
def symbol : Primitive → String
  | add => "+"
  | sub => "-"
  | mul => "*"
  | div => "/"
  | equals => "="
  | less => "<"
  | greater => ">"

/-- The name of the procedure behind the symbol. -/
def name : Primitive → String
  | add => "add"
  | sub => "sub"
  | mul => "mul"
  | div => "div"
  | equals => "equals"
  | less => "less_than"
  | greater => "greater_than"

end Primitive

/-- A procedure that the host has beside the primitives. Several of them may share a name. -/
structure Procedure where
  /-- What tells it apart from every other procedure of the host. -/
  identity : Nat
  /-- Its name, or the name of its class. -/
  name : String
deriving DecidableEq, Repr

/-- A procedure of the host. -/
inductive Callable where
  /-- A procedure that comes with the language. -/
  | primitive (p : Primitive)
  /-- A named procedure of the host. -/
  | function (procedure : Procedure)
  /-- An object of the host that can be called, with the name of its class. -/
  | object (procedure : Procedure)
deriving DecidableEq, Repr

namespace Callable

/-- The name of a host procedure. -/
def name : Callable → String
  | primitive p => p.name
  | function procedure => procedure.name
  | object procedure => procedure.name

end Callable

end Lisplet
