import Lisplet.Eval.Action
import Lisplet.Primitive
import Lisplet.SpecialForm

/-!
# Evaluation

Literals and constants are their values, names are looked up, quoted trees are data. A form either
has a rule of its own, known by the name it starts with, or is the application of the value of its
head to the values of its other trees.

Programs need not end, so the evaluator is limited to a number of nested steps. Application, the
rules of the special forms and one step of evaluation are written against the evaluator for the
trees below, and `evaluate` ties the knot.
-/

namespace Lisplet

/-! ## Application

A closure runs its body in a new frame inside the frame that it was made in, with its parameters
bound to the arguments. A host procedure is called, also without arguments. Every other value stands
for itself when there are no arguments, and cannot be applied to any. -/

/-- How trees are evaluated in a frame. -/
abbrev Evaluator := Node → FrameId → Action Value

/-- What a run is given from outside. -/
structure Context where
  /-- Where prints go. -/
  outlet : Outlet
  /-- What the procedures of the host do. -/
  host : Host

/-- Applies a closure. The number of arguments is checked before a frame is made. -/
def applyClosure (eval : Evaluator) (params : List String) (body : Node) (scope : FrameId)
    (arguments : List Value) : Action Value :=
  if params.length = arguments.length then do
    let frame ← Action.child scope
    Action.bindAll frame (params.zip arguments)
    Action.trace .application
      ("apply closure (" ++ Text.joined " " params ++ ") to " ++ toString arguments.length ++
        " argument(s)")
    eval body frame
  else
    Action.fail (Error.naming ((body.render .surface).map (closureText params)) fun shown =>
      .argumentCount params.length shown arguments.length)

/-- Calls a host procedure. The call gets an identity, whether it fails or not. -/
def callHost (host : Host) (callable : Callable) (arguments : List Value) : Action Value :=
  fun store =>
    some ⟨callable.call host store.identities arguments, store.next, []⟩

/-- The error of applying a value that takes no arguments. -/
def notApplicable (head : Value) (arguments : List Value) : Error :=
  match head.inspect, (Value.list arguments).inspect with
  | some head, some arguments => .notCallable head arguments
  | _, _ => .integerTooLong

/-- Applies a value to arguments. -/
def apply (context : Context) (eval : Evaluator) (head : Value) (arguments : List Value) :
    Action Value :=
  match head with
  | .closure _ params body scope => applyClosure eval params body scope arguments
  | .host callable => callHost context.host callable arguments
  | head =>
    match arguments with
    | [] => pure head
    | _ => Action.fail (notApplicable head arguments)

/-! ## The rules of the special forms

Every rule looks at the number of its operands before it evaluates any of them. Operands are
evaluated from left to right in the frame of the form. -/

/-- The values of trees in order. -/
def evalAll (eval : Evaluator) (frame : FrameId) : List Node → Action (List Value)
  | [] => pure []
  | node :: rest => do
    let value ← eval node frame
    let values ← evalAll eval frame rest
    return value :: values

namespace SpecialForm

/-- The items of the list that an operand evaluates to. -/
def listOperand (eval : Evaluator) (form : SpecialForm) (node : Node) (frame : FrameId) :
    Action (List Value) := do
  match ← eval node frame with
  | .list items => pure items
  | other => Action.fail (Error.naming other.inspect (.notList form))

/-- A list of the values of all operands. -/
def evalList (eval : Evaluator) (operands : List Node) (frame : FrameId) : Action Value := do
  let values ← evalAll eval frame operands
  return .list values

/-- The first item of a list. -/
def evalFirst (eval : Evaluator) (operands : List Node) (frame : FrameId) : Action Value :=
  match operands with
  | [node] => do
    match ← listOperand eval first node frame with
    | item :: _ => pure item
    | [] => Action.fail .firstOfEmpty
  | _ => Action.fail (.operandCount first)

/-- A list without its first item. The empty list stays empty. -/
def evalRest (eval : Evaluator) (operands : List Node) (frame : FrameId) : Action Value :=
  match operands with
  | [node] => do
    let items ← listOperand eval rest node frame
    return .list (items.drop 1)
  | _ => Action.fail (.operandCount rest)

/-- Prints the value of the operand and yields it. A value without a text cannot be printed,
whatever the outlet is. -/
def evalPrint (context : Context) (eval : Evaluator) (operands : List Node) (frame : FrameId) :
    Action Value :=
  match operands with
  | [node] => do
    let value ← eval node frame
    match value.display with
    | some text =>
      Action.emit (context.outlet.print value text)
      return value
    | none => Action.fail .integerTooLong
  | _ => Action.fail (.operandCount print)

/-- The names of parameters. -/
def parameterNames : List Node → Except Error (List String)
  | [] => .ok []
  | .identifier name :: more => (parameterNames more).map (name :: ·)
  | other :: _ => .error (Error.naming other.inspect .parameterNotName)

/-- A closure over the frame of the form. Nothing is evaluated. -/
def evalLambda (operands : List Node) (frame : FrameId) : Action Value :=
  match operands with
  | [.form params, body] => do
    let names ← Action.ofResult (parameterNames params)
    Action.newClosure names body frame
  | [other, _] => Action.fail (Error.naming other.inspect .parametersNotList)
  | _ => Action.fail (.operandCount lambda)

/-- The names of new bindings with the values of their trees. A tree sees none of the new
bindings. -/
def initialValues (eval : Evaluator) (frame : FrameId) : List Node → Action Bindings
  | [] => pure []
  | .form [.identifier name, init] :: more => do
    let value ← eval init frame
    let bindings ← initialValues eval frame more
    return (name, value) :: bindings
  | other :: _ => Action.fail (Error.naming other.inspect .malformedBinding)

/-- A body in a new frame with new bindings. -/
def evalLet (eval : Evaluator) (operands : List Node) (frame : FrameId) : Action Value :=
  match operands with
  | [.form bindings, body] => do
    let initial ← initialValues eval frame bindings
    let inner ← Action.child frame
    Action.bindAll inner initial
    eval body inner
  | [other, _] => Action.fail (Error.naming other.inspect .bindingsNotList)
  | _ => Action.fail (.operandCount letIn)

/-- The operand as data. -/
def evalQuote (operands : List Node) : Action Value :=
  match operands with
  | [node] => pure (.quoted node)
  | _ => Action.fail (.operandCount quote)

/-- The value of the operand, evaluated once more if it is code or a list that spells code. -/
def evalEval (eval : Evaluator) (operands : List Node) (frame : FrameId) : Action Value :=
  match operands with
  | [node] => do
    match ← eval node frame with
    | .quoted code =>
      Action.trace .reentry "eval: re-entering evaluator on quoted node"
      eval code frame
    | .list items =>
      Action.trace .reentry
        ("eval: synthesizing form from " ++ toString items.length ++ " list element(s)")
      eval (Node.ofItems items) frame
    | value => pure value
  | _ => Action.fail (.operandCount .eval)

/-- The second operand unless the first one is false, otherwise the third. -/
def evalChoice (eval : Evaluator) (operands : List Node) (frame : FrameId) : Action Value :=
  match operands with
  | [condition, consequent, alternative] => do
    let value ← eval condition frame
    if value.isFalse then eval alternative frame else eval consequent frame
  | _ => Action.fail (.operandCount choice)

/-- The value of a special form. -/
def run (context : Context) (eval : Evaluator) (operands : List Node) (frame : FrameId) :
    SpecialForm → Action Value
  | list => evalList eval operands frame
  | first => evalFirst eval operands frame
  | rest => evalRest eval operands frame
  | print => evalPrint context eval operands frame
  | lambda => evalLambda operands frame
  | letIn => evalLet eval operands frame
  | quote => evalQuote operands
  | .eval => evalEval eval operands frame
  | choice => evalChoice eval operands frame

end SpecialForm

/-! ## Steps -/

/-- The special form that a tree names at the head of a form. -/
def Node.specialForm? : Node → Option SpecialForm
  | .identifier name => SpecialForm.ofName? name
  | _ => none

/-- One step of evaluation, given an evaluator for what comes below. -/
def evalStep (context : Context) (eval : Evaluator) (node : Node) (frame : FrameId) :
    Action Value :=
  match node with
  | .number n => pure (.number n)
  | .string s => pure (.text s)
  | .constant value => pure value
  | .identifier name => Action.lookup frame name
  | .quote inner => pure (.quoted inner)
  | .form [] => pure .empty
  | .form (head :: operands) =>
    match head.specialForm? with
    | some form => do
      Action.trace .evaluator
        ("special form " ++ form.name ++ " with " ++ toString operands.length ++ " operand(s)")
      form.run context eval operands frame
    | none => do
      let function ← eval head frame
      let arguments ← evalAll eval frame operands
      apply context eval function arguments
  | .foreign value => Action.fail (Error.naming value.inspect .notCode)

/-- Evaluation of a tree in a frame, with at most `fuel` steps inside one another. -/
def evaluate (context : Context) : Nat → Evaluator
  | 0 => fun _ _ => Action.exhausted
  | fuel + 1 => evalStep context (evaluate context fuel)

end Lisplet
