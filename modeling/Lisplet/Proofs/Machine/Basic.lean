import Lisplet.Session
import Mathlib.Tactic.Common

/-!
# A machine that evaluates step by step

The evaluator calls itself for the parts of a tree, so it shows the store only at the end of an
evaluation that ends. The machine of this module does the same work one small step at a time. It
keeps what is left to do as a row of tasks, the next one first, and what it is busy with as its
focus. Every step changes the store in at most one way: it gives out an identity, makes a frame, or
adds one binding to a frame. So the states that the machine goes through are the moments of a run,
also of a run that never ends.

A machine that fails drops its tasks. It stops when it has failed, or has a value and no task for
it.
-/

namespace Lisplet

namespace Machine

/-- What the values of a row of trees are for. -/
inductive Purpose where
  /-- They are the items of a list. -/
  | list
  /-- They are the arguments of a value. -/
  | arguments (function : Value)

/-- What is to be done with the value of a tree as soon as it is there. -/
inductive Task where
  /-- Evaluate the operands and apply the value to theirs. -/
  | operator (operands : List Node) (frame : FrameId)
  /-- Put the value after the earlier ones, which are in reverse, and evaluate the rest of a row. -/
  | row (purpose : Purpose) (reversed : List Value) (rest : List Node) (frame : FrameId)
  /-- Keep the value for a name, after the earlier ones, and go on with the new bindings. -/
  | initial (name : String) (reversed : Bindings) (rest : List Node) (body : Node) (frame : FrameId)
  /-- Take its first item. -/
  | first
  /-- Drop its first item. -/
  | rest
  /-- Print it. -/
  | print
  /-- Evaluate it, if it is code or spells code. -/
  | reenter (frame : FrameId)
  /-- Choose between two trees. -/
  | choice (consequent alternative : Node) (frame : FrameId)

/-- What a machine has besides its focus. -/
structure Memory where
  /-- What is left to do, the next task first. -/
  tasks : List Task
  /-- All frames so far. -/
  store : Store
  /-- The values that were printed, with their texts. -/
  printed : List (Value × String)

/-- What a machine is busy with. -/
inductive Focus where
  /-- Evaluating a tree in a frame. -/
  | evaluate (node : Node) (frame : FrameId)
  /-- Handing a value to the next task. -/
  | yield (value : Value)
  /-- Adding bindings to a new frame, in which a body is evaluated afterwards. -/
  | bind (frame : FrameId) (bindings : Bindings) (body : Node)
  /-- Nothing, because of an error. -/
  | failed (error : Error)

/-- A moment of a run. -/
structure State where
  /-- What the machine is busy with. -/
  focus : Focus
  /-- What else it has. -/
  memory : Memory

/-! ## What a step can lead to -/

namespace Memory

/-- A machine that has a value. -/
def yield (memory : Memory) (value : Value) : State :=
  ⟨.yield value, memory⟩

/-- A machine that has failed. -/
def fail (memory : Memory) (error : Error) : State :=
  ⟨.failed error, { memory with tasks := [] }⟩

/-- A machine that has a value or has failed. -/
def settle (memory : Memory) : Except Error Value → State
  | .ok value => memory.yield value
  | .error error => memory.fail error

/-- A machine that evaluates a tree. -/
def evaluate (memory : Memory) (node : Node) (frame : FrameId) : State :=
  ⟨.evaluate node frame, memory⟩

/-- A machine that evaluates a tree and has a task for its value. -/
def await (memory : Memory) (task : Task) (node : Node) (frame : FrameId) : State :=
  ⟨.evaluate node frame, { memory with tasks := task :: memory.tasks }⟩

/-- A machine that has made a frame and is about to fill it. -/
def enter (memory : Memory) (outer : FrameId) (bindings : Bindings) (body : Node) : State :=
  let (frame, store) := memory.store.child outer
  ⟨.bind frame bindings body, { memory with store := store }⟩

/-- A machine that has made a closure. -/
def close (memory : Memory) (params : List String) (body : Node) (scope : FrameId) : State :=
  ⟨.yield (.closure memory.store.identities params body scope),
    { memory with store := memory.store.next }⟩

/-- A machine that has called a host procedure. -/
def call (host : Host) (memory : Memory) (callable : Callable) (arguments : List Value) : State :=
  settle { memory with store := memory.store.next }
    (callable.call host memory.store.identities arguments)

/-- A memory with one more print. -/
def print (memory : Memory) (value : Value) (text : String) : Memory :=
  { memory with printed := memory.printed ++ [(value, text)] }

/-- Applies a value to arguments. -/
def apply (host : Host) (memory : Memory) (function : Value) (arguments : List Value) : State :=
  match function with
  | .closure _ params body scope =>
    if params.length = arguments.length then memory.enter scope (params.zip arguments) body
    else memory.fail (Error.naming ((body.render .surface).map (closureText params)) fun shown =>
      .argumentCount params.length shown arguments.length)
  | .host callable => memory.call host callable arguments
  | head =>
    match arguments with
    | [] => memory.yield head
    | _ => memory.fail (notApplicable head arguments)

/-- Goes on with a row of trees. -/
def gather (host : Host) (memory : Memory) (purpose : Purpose) (reversed : List Value)
    (frame : FrameId) : List Node → State
  | node :: rest => memory.await (.row purpose reversed rest frame) node frame
  | [] =>
    match purpose with
    | .list => memory.yield (.list reversed.reverse)
    | .arguments function => memory.apply host function reversed.reverse

/-- Goes on with new bindings. -/
def initialise (memory : Memory) (frame : FrameId) (body : Node) (reversed : Bindings) :
    List Node → State
  | [] => memory.enter frame reversed.reverse body
  | .form [.identifier name, init] :: more =>
    memory.await (.initial name reversed more body frame) init frame
  | other :: _ => memory.fail (Error.naming other.inspect .malformedBinding)

/-- Makes a closure with given trees as parameters. -/
def abstract (memory : Memory) (params : List Node) (body : Node) (frame : FrameId) : State :=
  match SpecialForm.parameterNames params with
  | .ok names => memory.close names body frame
  | .error error => memory.fail error

/-- Starts with a special form. -/
def special (host : Host) (memory : Memory) (form : SpecialForm) (operands : List Node)
    (frame : FrameId) : State :=
  match form, operands with
  | .list, operands => memory.gather host .list [] frame operands
  | .first, [operand] => memory.await .first operand frame
  | .rest, [operand] => memory.await .rest operand frame
  | .print, [operand] => memory.await .print operand frame
  | .lambda, [.form params, body] => memory.abstract params body frame
  | .lambda, [other, _] => memory.fail (Error.naming other.inspect .parametersNotList)
  | .letIn, [.form bindings, body] => memory.initialise frame body [] bindings
  | .letIn, [other, _] => memory.fail (Error.naming other.inspect .bindingsNotList)
  | .quote, [operand] => memory.yield (.quoted operand)
  | .eval, [operand] => memory.await (.reenter frame) operand frame
  | .choice, [condition, consequent, alternative] =>
    memory.await (.choice consequent alternative frame) condition frame
  | form, _ => memory.fail (.operandCount form)

/-- Starts with a tree. -/
def start (host : Host) (memory : Memory) (node : Node) (frame : FrameId) : State :=
  match node with
  | .number n => memory.yield (.number n)
  | .string s => memory.yield (.text s)
  | .constant value => memory.yield value
  | .identifier name => memory.yield (memory.store.lookup frame name)
  | .quote inner => memory.yield (.quoted inner)
  | .form [] => memory.yield .empty
  | .form (head :: operands) =>
    match head.specialForm? with
    | some form => memory.special host form operands frame
    | none => memory.await (.operator operands frame) head frame
  | .foreign value => memory.fail (Error.naming value.inspect .notCode)

/-- Goes on with a task for which a value is there. -/
def resume (host : Host) (memory : Memory) (value : Value) : Task → State
  | .operator operands frame => memory.gather host (.arguments value) [] frame operands
  | .row purpose reversed rest frame =>
    memory.gather host purpose (value :: reversed) frame rest
  | .initial name reversed rest body frame =>
    memory.initialise frame body ((name, value) :: reversed) rest
  | .first =>
    match value with
    | .list (item :: _) => memory.yield item
    | .list [] => memory.fail .firstOfEmpty
    | other => memory.fail (Error.naming other.inspect (.notList .first))
  | .rest =>
    match value with
    | .list items => memory.yield (.list (items.drop 1))
    | other => memory.fail (Error.naming other.inspect (.notList .rest))
  | .print =>
    match value.display with
    | some text => (memory.print value text).yield value
    | none => memory.fail .integerTooLong
  | .reenter frame =>
    match value with
    | .quoted code => memory.evaluate code frame
    | .list items => memory.evaluate (Node.ofItems items) frame
    | value => memory.yield value
  | .choice consequent alternative frame =>
    memory.evaluate (if value.isFalse then alternative else consequent) frame

end Memory

/-! ## Steps and runs -/

/-- One step of the machine. -/
def step (host : Host) : State → Option State
  | ⟨.evaluate node frame, memory⟩ => some (memory.start host node frame)
  | ⟨.yield _, ⟨[], _, _⟩⟩ => none
  | ⟨.yield value, ⟨task :: tasks, store, printed⟩⟩ =>
    some (Memory.resume host ⟨tasks, store, printed⟩ value task)
  | ⟨.bind frame [] body, memory⟩ => some (memory.evaluate body frame)
  | ⟨.bind frame ((name, value) :: rest) body, memory⟩ =>
    match memory.store.bind frame name value with
    | .ok store => some ⟨.bind frame rest body, { memory with store := store }⟩
    | .error error => some (memory.fail error)
  | ⟨.failed _, _⟩ => none

/-- The state after a number of steps, if the machine does not stop before. -/
def run (host : Host) : Nat → State → Option State
  | 0, state => some state
  | steps + 1, state => (step host state).bind (run host steps)

/-- A machine that evaluates a tree and has nothing else to do. -/
def evaluating (node : Node) (frame : FrameId) (store : Store) : State :=
  Memory.evaluate ⟨[], store, []⟩ node frame

/-- The first moment of a run: a tree is evaluated in a new root frame. -/
def initial (bindings : Bindings) (node : Node) : State :=
  let (root, store) := Store.empty.root bindings
  evaluating node root store

/-- The last moment of a run that ends. -/
def final (result : Except Error Value) (store : Store) (printed : List (Value × String)) : State :=
  Memory.settle ⟨[], store, printed⟩ result

variable {host : Host}

/-- A run can be cut into two anywhere. -/
lemma run_add (first second : Nat) (state : State) :
    run host (first + second) state = (run host first state).bind (run host second) := by
  induction first generalizing state with
  | zero =>
    rw [Nat.zero_add]
    rfl
  | succ first ih =>
    rw [Nat.succ_add, run, run, Option.bind_assoc]
    exact Option.bind_congr fun next _ => ih next

/-- A run of one step is a step. -/
lemma run_one (state : State) : run host 1 state = step host state :=
  Option.bind_fun_some _

/-- The machine stops at a last moment. -/
lemma step_final (result : Except Error Value) (store : Store) (printed : List (Value × String)) :
    step host (final result store printed) = none := by
  cases result <;> rfl

/-- A last moment has the store that it is made from. -/
lemma store_final (result : Except Error Value) (store : Store) (printed : List (Value × String)) :
    (final result store printed).memory.store = store := by
  cases result <;> rfl

/-- The last moment of a run tells its result, its store and its prints. -/
lemma final_injective {result result' : Except Error Value} {store store' : Store}
    {printed printed' : List (Value × String)}
    (h : final result store printed = final result' store' printed') :
    result = result' ∧ store = store' ∧ printed = printed' := by
  cases result <;> cases result' <;> cases h <;> exact ⟨rfl, rfl, rfl⟩

/-- A run stops in one state only. -/
lemma run_unique {first second : Nat} {state last last' : State}
    (h : run host first state = some last) (hstop : step host last = none)
    (h' : run host second state = some last') (hstop' : step host last' = none) : last = last' := by
  induction first generalizing second state with
  | zero =>
    obtain rfl : state = last := Option.some.inj h
    cases second with
    | zero => exact Option.some.inj h'
    | succ second =>
      rw [run, hstop] at h'
      cases h'
  | succ first ih =>
    obtain ⟨next, hnext, hrest⟩ := Option.bind_eq_some_iff.1 h
    cases second with
    | zero =>
      obtain rfl : state = last' := Option.some.inj h'
      cases hstop'.symm.trans hnext
    | succ second =>
      rw [run, hnext] at h'
      exact ih hrest h'

/-- What one step preserves, a run preserves. -/
lemma run_induction {holds : State → Prop}
    (hstep : ∀ {state next}, holds state → step host state = some next → holds next)
    {steps : Nat} {state last : State} (h : holds state)
    (hrun : run host steps state = some last) : holds last := by
  induction steps generalizing state with
  | zero =>
    obtain rfl : state = last := Option.some.inj hrun
    exact h
  | succ steps ih =>
    obtain ⟨next, hnext, hrest⟩ := Option.bind_eq_some_iff.1 hrun
    exact ih (hstep h hnext) hrest

end Machine

end Lisplet
