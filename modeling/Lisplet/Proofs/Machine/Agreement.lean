import Lisplet.Proofs.Machine.Basic
import Lisplet.Proofs.Semantics.Cases
import Lisplet.Proofs.Semantics.Runs

/-!
# The machine and the evaluator agree

The machine of `Lisplet.Machine` does what the evaluator does. An action is implemented between an
entry and an exit if a machine that is at the entry comes to the exit with the value that the action
yields, or fails as the action fails, and makes as many steps as the action was allowed if it meets
its limit. Implementations are put together like the actions themselves, so that there is one short
lemma for each part of the evaluator.

The clause on limits is what makes the agreement complete: if no limit lets the evaluator end, the
machine makes any number of steps. The result is `evaluate_iff_run`: the evaluator ends with a
result, a store and prints for some limit if and only if the machine comes to a stop with them.
-/

namespace Lisplet

/-! ## Prints -/

namespace Event

/-- The values that were printed, with their texts. -/
def printings (events : List Event) : List (Value × String) :=
  events.filterMap fun
    | printed value text => some (value, text)
    | _ => none

/-- Events in sequence print what the first ones print and then what the others do. -/
lemma printings_append (events more : List Event) :
    printings (events ++ more) = printings events ++ printings more :=
  List.filterMap_append

/-- Every outlet prints a value once, with its text. -/
lemma printings_print (outlet : Outlet) (value : Value) (text : String) :
    printings (outlet.print value text) = [(value, text)] := by
  cases outlet <;> rfl

/-- The values that were printed are those that were printed with their texts. -/
lemma prints_eq_map_printings (events : List Event) :
    prints events = (printings events).map Prod.fst := by
  unfold prints printings
  rw [List.map_filterMap]
  refine List.filterMap_congr fun event _ => ?_
  cases event <;> rfl

end Event

namespace Machine

variable {host : Host}

/-! ## Getting from state to state -/

/-- The machine comes from one state to another. -/
def Reaches (host : Host) (state last : State) : Prop :=
  ∃ steps, run host steps state = some last

/-- The machine makes at least a given number of steps. -/
def Lasts (host : Host) (steps : Nat) (state : State) : Prop :=
  (run host steps state).isSome

namespace Reaches

variable {state middle last : State}

/-- The machine is where it is. -/
lemma refl (state : State) : Reaches host state state :=
  ⟨0, rfl⟩

/-- The machine comes from state to state by way of others. -/
lemma trans (h : Reaches host state middle) (h' : Reaches host middle last) :
    Reaches host state last := by
  obtain ⟨first, hfirst⟩ := h
  obtain ⟨second, hsecond⟩ := h'
  refine ⟨first + second, ?_⟩
  rw [run_add, hfirst]
  exact hsecond

/-- The machine comes to the next state. -/
lemma of_step (h : step host state = some last) : Reaches host state last :=
  ⟨1, (run_one state).trans h⟩

/-- A machine that lasts after some steps has lasted before them. -/
lemma lasts (h : Reaches host state middle) {steps : Nat} (h' : Lasts host steps middle) :
    Lasts host steps state := by
  obtain ⟨first, hfirst⟩ := h
  have hall : (run host (first + steps) state).isSome := by
    rw [run_add, hfirst]
    exact h'
  -- A run that can be prolonged has been a run before.
  rw [Nat.add_comm, run_add] at hall
  exact Option.isSome_of_isSome_bind hall

end Reaches

/-- A step makes a run longer by one. -/
lemma lasts_succ {state next : State} (h : step host state = some next) {steps : Nat}
    (h' : Lasts host steps next) : Lasts host (steps + 1) state := by
  unfold Lasts
  rw [run, h]
  exact h'

/-! ## Implementations of actions -/

/-- The memory after an action that leaves a store and events. -/
def Memory.after (memory : Memory) (store : Store) (events : List Event) : Memory :=
  { memory with store := store, printed := memory.printed ++ Event.printings events }

/-- An action that prints nothing changes the store only. -/
lemma Memory.after_silent (memory : Memory) (store : Store) (events : List Event)
    (h : Event.printings events = []) :
    memory.after store events = { memory with store := store } := by
  unfold Memory.after
  rw [h, List.append_nil]

/-- Two actions in sequence leave the store of the second and the events of both. -/
lemma Memory.after_after (memory : Memory) (store store' : Store) (events events' : List Event) :
    (memory.after store events).after store' events' = memory.after store' (events ++ events') := by
  unfold Memory.after
  rw [Event.printings_append, ← List.append_assoc]

section

variable {α β : Type}

/-- Where a machine gets from a state, in view of what an action yields. -/
def Follows (host : Host) (limit : Nat) (memory : Memory) (exit : α → Memory → State)
    (state : State) : Option (Outcome α) → Prop
  | none => Lasts host limit state
  | some ⟨.ok value, store, events⟩ =>
    Reaches host state (exit value (memory.after store events))
  | some ⟨.error error, store, events⟩ =>
    Reaches host state ((memory.after store events).fail error)

/-- A machine that is at the entry does what the action does, and ends up at the exit. -/
def Implements (host : Host) (limit : Nat) (action : Action α) (entry : Memory → State)
    (exit : α → Memory → State) : Prop :=
  ∀ memory, Follows host limit memory exit (entry memory) (action memory.store)

/-- What is reached later is reached from earlier states too. -/
lemma Follows.of_reaches {limit : Nat} {memory : Memory} {exit : α → Memory → State}
    {state middle : State} {outcome : Option (Outcome α)} (h : Reaches host state middle)
    (h' : Follows host limit memory exit middle outcome) :
    Follows host limit memory exit state outcome := by
  rcases outcome with _ | ⟨error | value, store, events⟩
  · exact h.lasts h'
  · exact h.trans h'
  · exact h.trans h'

/-- A step earlier, one more step is left. -/
lemma Follows.of_step {limit : Nat} {memory : Memory} {exit : α → Memory → State}
    {state next : State} {outcome : Option (Outcome α)} (h : step host state = some next)
    (h' : Follows host limit memory exit next outcome) :
    Follows host (limit + 1) memory exit state outcome := by
  rcases outcome with _ | ⟨error | value, store, events⟩
  · exact lasts_succ h h'
  · exact (Reaches.of_step h).trans h'
  · exact (Reaches.of_step h).trans h'

/-- What follows after some events follows with these events put in front. -/
lemma Follows.after {limit : Nat} {memory : Memory} {exit : α → Memory → State} {state : State}
    {store : Store} {events : List Event} {outcome : Option (Outcome α)}
    (h : Follows host limit (memory.after store events) exit state outcome) :
    Follows host limit memory exit state (outcome.map (Outcome.after events)) := by
  rcases outcome with _ | ⟨error | value, store', events'⟩
  · exact h
  · simp only [Follows, Memory.after_after] at h
    exact h
  · simp only [Follows, Memory.after_after] at h
    exact h

variable {limit : Nat} {entry : Memory → State}

/-- Sequences are implemented by going from exit to entry. -/
lemma Implements.bind {action : Action α} {next : α → Action β} {middle : α → Memory → State}
    {exit : β → Memory → State} (h : Implements host limit action entry middle)
    (hnext : ∀ value, Implements host limit (next value) (middle value) exit) :
    Implements host limit (action >>= next) entry exit := by
  intro memory
  have hfirst := h memory
  rcases houtcome : action memory.store with _ | ⟨error | value, store, events⟩
  · rw [houtcome] at hfirst
    rw [Action.bind_eq_of_none houtcome]
    exact hfirst
  · rw [houtcome] at hfirst
    rw [Action.bind_eq_of_error houtcome]
    exact hfirst
  · rw [houtcome] at hfirst
    have hreach : Reaches host (entry memory) (middle value (memory.after store events)) := hfirst
    have hsecond := hnext value (memory.after store events)
    rw [Action.bind_eq_of_ok houtcome]
    exact Follows.of_reaches hreach hsecond.after

/-- An action that always yields a value is implemented if the exit is reached with it. -/
lemma implements_of_eq {action : Action α} {exit : α → Memory → State}
    (h : ∀ memory, ∃ value store events,
      action memory.store = some ⟨.ok value, store, events⟩ ∧
        Reaches host (entry memory) (exit value (memory.after store events))) :
    Implements host limit action entry exit := by
  intro memory
  obtain ⟨value, store, events, haction, hreach⟩ := h memory
  rw [haction]
  exact hreach

/-- A value is yielded if the exit is reached with it. -/
lemma implements_pure {value : α} {exit : α → Memory → State}
    (h : ∀ memory, Reaches host (entry memory) (exit value memory)) :
    Implements host limit (pure value) entry exit := by
  refine implements_of_eq fun memory => ⟨value, memory.store, [], rfl, ?_⟩
  rw [Memory.after_silent memory memory.store [] rfl]
  exact h memory

/-- An error arises if the machine fails with it. -/
lemma implements_fail {error : Error} {exit : α → Memory → State}
    (h : ∀ memory, Reaches host (entry memory) (memory.fail error)) :
    Implements host limit (Action.fail error) entry exit := by
  intro memory
  have hafter : memory.after memory.store [] = memory := memory.after_silent memory.store [] rfl
  change Reaches host (entry memory) ((memory.after memory.store []).fail error)
  rw [hafter]
  exact h memory

/-- Host procedures are called. -/
lemma implements_callHost (callable : Callable) (arguments : List Value) :
    Implements host limit (callHost host callable arguments)
      (fun memory => memory.call host callable arguments)
      (fun value memory => memory.yield value) := by
  intro memory
  have hafter := memory.after_silent memory.store.next [] rfl
  simp only [callHost, Memory.call]
  cases callable.call host memory.store.identities arguments with
  | ok value =>
    change Reaches host _ ((memory.after memory.store.next []).yield value)
    rw [hafter]
    exact .refl _
  | error error =>
    change Reaches host _ ((memory.after memory.store.next []).fail error)
    rw [hafter]
    exact .refl _

/-- Values are printed. -/
lemma implements_print (outlet : Outlet) (value : Value) (text : String) :
    Implements host limit (do Action.emit (outlet.print value text); return value)
      (fun memory => (memory.print value text).yield value)
      (fun value memory => memory.yield value) := by
  refine implements_of_eq fun memory =>
    ⟨value, memory.store, outlet.print value text ++ [], rfl, ?_⟩
  have hafter : memory.after memory.store (outlet.print value text ++ []) =
      memory.print value text := by
    unfold Memory.after Memory.print
    rw [List.append_nil, Event.printings_print]
  rw [hafter]
  exact .refl _

/-- The machine makes no debug records. -/
lemma Implements.trace_bind {next : Unit → Action α} {exit : α → Memory → State}
    (h : Implements host limit (next ()) entry exit) (channel : Channel) (message : String) :
    Implements host limit (Action.trace channel message >>= next) entry exit := by
  have htrace : Implements host limit (Action.trace channel message) entry
      (fun _ memory => entry memory) := by
    refine implements_of_eq fun memory => ⟨(), memory.store, _, rfl, ?_⟩
    rw [Memory.after_silent memory memory.store _ rfl]
    exact .refl _
  exact htrace.bind fun _ => h

/-! ## New frames -/

/-- A value is bound in one step. -/
lemma implements_bind (frame : FrameId) (name : String) (value : Value) (rest : Bindings)
    (body : Node) :
    Implements host limit (Action.bind frame name value)
      (fun memory => ⟨.bind frame ((name, value) :: rest) body, memory⟩)
      (fun _ memory => ⟨.bind frame rest body, memory⟩) := by
  intro memory
  unfold Action.bind
  cases hbind : memory.store.bind frame name value with
  | ok store =>
    have hstep : step host ⟨.bind frame ((name, value) :: rest) body, memory⟩ =
        some ⟨.bind frame rest body, { memory with store := store }⟩ := by
      simp only [step, hbind]
    rw [← memory.after_silent store [] rfl] at hstep
    exact Reaches.of_step hstep
  | error error =>
    have hstep : step host ⟨.bind frame ((name, value) :: rest) body, memory⟩ =
        some (memory.fail error) := by
      simp only [step, hbind]
    have hafter : memory.after memory.store [] = memory := memory.after_silent memory.store [] rfl
    change Reaches host _ ((memory.after memory.store []).fail error)
    rw [hafter]
    exact Reaches.of_step hstep

/-- Bindings are added to a frame in as many steps. -/
lemma implements_bindAll (frame : FrameId) (bindings : Bindings) (body : Node) :
    Implements host limit (Action.bindAll frame bindings)
      (fun memory => ⟨.bind frame bindings body, memory⟩)
      (fun _ memory => memory.evaluate body frame) := by
  induction bindings with
  | nil => exact implements_pure fun memory => .of_step rfl
  | cons pair rest ih =>
    obtain ⟨name, value⟩ := pair
    exact (implements_bind frame name value rest body).bind fun _ => ih

/-- A frame is made for bindings. -/
lemma implements_child (outer : FrameId) (bindings : Bindings) (body : Node) :
    Implements host limit (Action.child outer) (fun memory => memory.enter outer bindings body)
      (fun frame memory => ⟨.bind frame bindings body, memory⟩) := by
  refine implements_of_eq fun memory =>
    ⟨(memory.store.child outer).1, (memory.store.child outer).2, [], rfl, ?_⟩
  rw [Memory.after_silent memory _ [] rfl]
  exact .refl _

/-- A frame is made and filled, and then the body is evaluated in it. -/
lemma implements_enter {outer : FrameId} {bindings : Bindings} {body : Node}
    {next : FrameId → Action α} {exit : α → Memory → State}
    (h : ∀ frame, Implements host limit (next frame) (fun memory => memory.evaluate body frame)
      exit) :
    Implements host limit
      (do let frame ← Action.child outer; Action.bindAll frame bindings; next frame)
      (fun memory => memory.enter outer bindings body) exit := by
  refine (implements_child outer bindings body).bind fun frame => ?_
  exact (implements_bindAll frame bindings body).bind fun _ => h frame

end

/-! ## Rows, bindings and applications -/

/-- The machine does what the evaluator does. -/
def Simulates (host : Host) (limit : Nat) (eval : Evaluator) : Prop :=
  ∀ node frame, Implements host limit (eval node frame) (fun memory => memory.evaluate node frame)
    (fun value memory => memory.yield value)

namespace Simulates

variable {limit : Nat} {eval : Evaluator} {context : Context} {frame : FrameId}

/-- The value of a tree is handed to the task that waits for it. -/
lemma await (heval : Simulates host limit eval) (task : Task) (node : Node) (frame : FrameId) :
    Implements host limit (eval node frame) (fun memory => memory.await task node frame)
      (fun value memory => memory.resume host value task) := by
  intro memory
  have hpushed := heval node frame { memory with tasks := task :: memory.tasks }
  rcases houtcome : eval node frame memory.store with _ | ⟨error | value, store, events⟩
  · simp only [houtcome] at hpushed
    exact hpushed
  · simp only [houtcome] at hpushed
    exact hpushed
  · simp only [houtcome] at hpushed
    have hresume : step host (Memory.yield ⟨task :: memory.tasks, store,
        memory.printed ++ Event.printings events⟩ value) =
          some ((memory.after store events).resume host value task) := rfl
    exact Reaches.trans hpushed (.of_step hresume)

/-- Rows of trees are evaluated one after the other. -/
lemma evalAll (heval : Simulates host limit eval) (purpose : Purpose) (reversed : List Value)
    (frame : FrameId) (nodes : List Node) :
    Implements host limit (Lisplet.evalAll eval frame nodes)
      (fun memory => memory.gather host purpose reversed frame nodes)
      (fun values memory => memory.gather host purpose (values.reverse ++ reversed) frame []) := by
  induction nodes generalizing reversed with
  | nil => exact implements_pure fun memory => .refl _
  | cons node rest ih =>
    refine (heval.await (.row purpose reversed rest frame) node frame).bind fun value => ?_
    refine (ih (value :: reversed)).bind fun values => implements_pure fun memory => ?_
    rw [List.reverse_cons, List.append_assoc, List.singleton_append]
    exact .refl _

/-- The values of new bindings are evaluated one after the other. -/
lemma initialValues (heval : Simulates host limit eval) (frame : FrameId) (body : Node)
    (reversed : Bindings) (bindings : List Node) :
    Implements host limit (SpecialForm.initialValues eval frame bindings)
      (fun memory => memory.initialise frame body reversed bindings)
      (fun initial memory => memory.enter frame (reversed.reverse ++ initial) body) := by
  induction bindings generalizing reversed with
  | nil =>
    refine implements_pure fun memory => ?_
    rw [List.append_nil]
    exact .refl _
  | cons node rest ih =>
    by_cases hnode : ∃ name init, node = .form [.identifier name, init]
    · obtain ⟨name, init, rfl⟩ := hnode
      refine (heval.await (.initial name reversed rest body frame) init frame).bind fun value => ?_
      refine (ih ((name, value) :: reversed)).bind fun initial => implements_pure fun memory => ?_
      rw [List.reverse_cons, List.append_assoc, List.singleton_append]
      exact .refl _
    · have hnode : ∀ name init, node ≠ .form [.identifier name, init] :=
        fun name init heq => hnode ⟨name, init, heq⟩
      rw [SpecialForm.initialValues_of_malformed rest hnode]
      refine implements_fail fun memory => ?_
      rw [Memory.initialise.eq_3 memory frame body reversed node rest hnode]
      exact .refl _

/-- Values are applied. -/
lemma apply (heval : Simulates context.host limit eval) (function : Value)
    (arguments : List Value) :
    Implements context.host limit (Lisplet.apply context eval function arguments)
      (fun memory => memory.apply context.host function arguments)
      (fun value memory => memory.yield value) := by
  by_cases hfunction : function.IsProcedure
  · cases function with
    | closure identity params body scope =>
      by_cases hcount : params.length = arguments.length
      · rw [apply_closure_of_eq hcount]
        simp only [Memory.apply, if_pos hcount]
        refine implements_enter fun frame => ?_
        exact (heval body frame).trace_bind _ _
      · rw [apply_closure_of_ne hcount]
        simp only [Memory.apply, if_neg hcount]
        exact implements_fail fun memory => .refl _
    | host callable => exact implements_callHost callable arguments
    | _ => exact hfunction.elim
  · cases arguments with
    | nil =>
      rw [apply_nil hfunction]
      refine implements_pure fun memory => ?_
      cases function with
      | closure | host => exact absurd trivial hfunction
      | _ => exact .refl _
    | cons argument more =>
      rw [apply_cons hfunction]
      refine implements_fail fun memory => ?_
      cases function with
      | closure | host => exact absurd trivial hfunction
      | _ => exact .refl _

/-! ## Special forms -/

/-- Closures are made. -/
lemma lambda (params body : Node) (frame : FrameId) :
    Implements host limit (SpecialForm.evalLambda [params, body] frame)
      (fun memory => memory.special host .lambda [params, body] frame)
      (fun value memory => memory.yield value) := by
  cases params with
  | form params =>
    cases hnames : SpecialForm.parameterNames params with
    | error error =>
      have hfail : SpecialForm.evalLambda [.form params, body] frame = Action.fail error := by
        simp only [SpecialForm.evalLambda, hnames]
        rfl
      rw [hfail]
      refine implements_fail fun memory => ?_
      simp only [Memory.special, Memory.abstract, hnames]
      exact .refl _
    | ok names =>
      have hclosure : SpecialForm.evalLambda [.form params, body] frame =
          Action.newClosure names body frame := by
        simp only [SpecialForm.evalLambda, hnames]
        rfl
      rw [hclosure]
      refine implements_of_eq fun memory => ⟨_, _, _, rfl, ?_⟩
      rw [Memory.after_silent memory _ _ rfl]
      simp only [Memory.special, Memory.abstract, hnames]
      exact .refl _
  | _ => exact implements_fail fun memory => .refl _

/-- A body is evaluated in a frame with new bindings. -/
lemma letIn (heval : Simulates host limit eval) (bindings body : Node) (frame : FrameId) :
    Implements host limit (SpecialForm.evalLet eval [bindings, body] frame)
      (fun memory => memory.special host .letIn [bindings, body] frame)
      (fun value memory => memory.yield value) := by
  cases bindings with
  | form bindings =>
    refine (heval.initialValues frame body [] bindings).bind fun initial => ?_
    exact implements_enter fun inner => heval body inner
  | _ => exact implements_fail fun memory => .refl _

/-- An operand that has to be a list is evaluated and handed on. -/
lemma listOperand (heval : Simulates host limit eval) (form : SpecialForm) (operand : Node)
    (frame : FrameId) {task : Task} {exit : List Value → Memory → State}
    (hlist : ∀ (items : List Value) (memory : Memory),
      memory.resume host (.list items) task = exit items memory)
    (hother : ∀ (value : Value) (memory : Memory), (∀ items, value ≠ .list items) →
      memory.resume host value task =
        memory.fail (Error.naming value.inspect (.notList form))) :
    Implements host limit (form.listOperand eval operand frame)
      (fun memory => memory.await task operand frame) exit := by
  refine (heval.await task operand frame).bind fun value => ?_
  cases value with
  | list items =>
    refine implements_pure fun memory => ?_
    rw [hlist]
    exact .refl _
  | _ =>
    refine implements_fail fun memory => ?_
    rw [hother _ memory (by simp)]
    exact .refl _

/-- A special form with a wrong number of operands fails. -/
lemma special_of_not_takes {form : SpecialForm} {operands : List Node}
    (h : ¬ form.Takes operands.length) (memory : Memory) (frame : FrameId) :
    memory.special host form operands frame = memory.fail (.operandCount form) := by
  unfold Memory.special
  split <;> first | rfl | exact absurd trivial h | exact absurd rfl h

/-- Special forms are implemented if the evaluator for their operands is. -/
lemma run (heval : Simulates context.host limit eval) (form : SpecialForm) (operands : List Node)
    (frame : FrameId) :
    Implements context.host limit (form.run context eval operands frame)
      (fun memory => memory.special context.host form operands frame)
      (fun value memory => memory.yield value) := by
  by_cases htakes : form.Takes operands.length
  · cases form with
    | list =>
      refine (heval.evalAll .list [] frame operands).bind fun values => ?_
      refine implements_pure fun memory => ?_
      simp only [Memory.gather, List.append_nil, List.reverse_reverse]
      exact .refl _
    | first =>
      obtain ⟨operand, rfl⟩ := List.length_eq_one_iff.1 htakes
      refine (heval.listOperand .first operand frame (fun items memory => rfl) ?_).bind
        fun items => ?_
      · intro value memory hvalue
        cases value with
        | list items => exact absurd rfl (hvalue items)
        | _ => rfl
      · cases items with
        | nil => exact implements_fail fun memory => .refl _
        | cons item items => exact implements_pure fun memory => .refl _
    | rest =>
      obtain ⟨operand, rfl⟩ := List.length_eq_one_iff.1 htakes
      refine (heval.listOperand .rest operand frame (fun items memory => rfl) ?_).bind
        fun items => implements_pure fun memory => .refl _
      intro value memory hvalue
      cases value with
      | list items => exact absurd rfl (hvalue items)
      | _ => rfl
    | print =>
      obtain ⟨operand, rfl⟩ := List.length_eq_one_iff.1 htakes
      refine (heval.await .print operand frame).bind fun value => ?_
      cases htext : value.display with
      | none =>
        refine implements_fail fun memory => ?_
        simp only [Memory.resume, htext]
        exact .refl _
      | some text =>
        simp only [Memory.resume, htext]
        exact implements_print context.outlet value text
    | lambda =>
      obtain ⟨params, body, rfl⟩ := List.length_eq_two.1 htakes
      exact lambda params body frame
    | letIn =>
      obtain ⟨bindings, body, rfl⟩ := List.length_eq_two.1 htakes
      exact heval.letIn bindings body frame
    | quote =>
      obtain ⟨operand, rfl⟩ := List.length_eq_one_iff.1 htakes
      exact implements_pure fun memory => .refl _
    | eval =>
      obtain ⟨operand, rfl⟩ := List.length_eq_one_iff.1 htakes
      refine (heval.await (.reenter frame) operand frame).bind fun value => ?_
      cases value with
      | quoted code => exact (heval code frame).trace_bind _ _
      | list items => exact (heval (Node.ofItems items) frame).trace_bind _ _
      | _ => exact implements_pure fun memory => .refl _
    | choice =>
      obtain ⟨condition, consequent, alternative, rfl⟩ := List.length_eq_three.1 htakes
      refine (heval.await (.choice consequent alternative frame) condition frame).bind
        fun value => ?_
      simp only [Memory.resume]
      split
      · exact heval alternative frame
      · exact heval consequent frame
  · rw [SpecialForm.run_of_not_takes htakes]
    refine implements_fail fun memory => ?_
    rw [special_of_not_takes htakes]
    exact .refl _

/-! ## Steps and evaluations -/

/-- One step of evaluation is implemented if evaluation of the parts is, and takes at least one step
of the machine. -/
lemma step (heval : Simulates context.host limit eval) :
    Simulates context.host (limit + 1) (evalStep context eval) := by
  intro node frame memory
  have hstep : Machine.step context.host (memory.evaluate node frame) =
      some (memory.start context.host node frame) := rfl
  refine Follows.of_step hstep ?_
  have hstart : Implements context.host limit (evalStep context eval node frame)
      (fun memory => memory.start context.host node frame)
      (fun value memory => memory.yield value) := by
    cases node with
    | identifier name =>
      refine implements_of_eq fun memory => ⟨_, memory.store, [], rfl, ?_⟩
      rw [Memory.after_silent memory memory.store [] rfl]
      exact .refl _
    | number | string | constant | quote => exact implements_pure fun memory => .refl _
    | foreign value => exact implements_fail fun memory => .refl _
    | form children =>
      cases children with
      | nil => exact implements_pure fun memory => .refl _
      | cons head operands =>
        cases hform : head.specialForm? with
        | some form =>
          simp only [evalStep, Memory.start, hform]
          exact (heval.run form operands frame).trace_bind _ _
        | none =>
          simp only [evalStep, Memory.start, hform]
          refine (heval.await (.operator operands frame) head frame).bind fun function => ?_
          refine (heval.evalAll (.arguments function) [] frame operands).bind fun arguments => ?_
          simp only [Memory.gather, List.append_nil, List.reverse_reverse]
          exact heval.apply function arguments
  exact hstart memory

end Simulates

/-- The machine does what a limited evaluation does. -/
theorem simulates_evaluate (context : Context) (fuel : Nat) :
    Simulates context.host fuel (evaluate context fuel) := by
  induction fuel with
  | zero =>
    intro node frame memory
    exact rfl
  | succ fuel ih => exact ih.step

/-! ## Agreement -/

section

variable {context : Context} {node : Node} {frame : FrameId} {before : Store}

/-- A machine comes to the end of an evaluation that ends. -/
lemma reaches_of_evaluate {fuel : Nat} {outcome : Outcome Value}
    (h : evaluate context fuel node frame before = some outcome) :
    Reaches context.host (evaluating node frame before)
      (final outcome.result outcome.store (Event.printings outcome.events)) := by
  have hfollows := simulates_evaluate context fuel node frame ⟨[], before, []⟩
  simp only [h] at hfollows
  obtain ⟨result, store, events⟩ := outcome
  cases result with
  | ok value => exact hfollows
  | error error => exact hfollows

/-- A machine outlasts an evaluation that meets its limit. -/
lemma lasts_of_evaluate {fuel : Nat} (h : evaluate context fuel node frame before = none) :
    Lasts context.host fuel (evaluating node frame before) := by
  have hfollows := simulates_evaluate context fuel node frame ⟨[], before, []⟩
  simp only [h] at hfollows
  exact hfollows

/-- A machine that stops shows that the evaluation ends. -/
lemma exists_evaluate_of_stops {steps : Nat} {last : State}
    (hrun : run context.host steps (evaluating node frame before) = some last)
    (hstop : step context.host last = none) :
    ∃ outcome, evaluate context (steps + 1) node frame before = some outcome ∧
      last = final outcome.result outcome.store (Event.printings outcome.events) := by
  have hnext : run context.host (steps + 1) (evaluating node frame before) = none := by
    rw [run_add, hrun]
    exact (run_one last).trans hstop
  cases houtcome : evaluate context (steps + 1) node frame before with
  | none =>
    have hsome : (run context.host (steps + 1) (evaluating node frame before)).isSome :=
      lasts_of_evaluate houtcome
    rw [hnext] at hsome
    cases hsome
  | some outcome =>
    refine ⟨outcome, rfl, ?_⟩
    obtain ⟨count, hcount⟩ := reaches_of_evaluate houtcome
    exact run_unique hrun hstop hcount (step_final _ _ _)

/-- The evaluator ends with a result, a store and prints for some limit if and only if the machine
comes to a stop with them. -/
theorem evaluate_iff_run {result : Except Error Value} {after : Store}
    {printed : List (Value × String)} :
    (∃ fuel events, evaluate context fuel node frame before = some ⟨result, after, events⟩ ∧
        Event.printings events = printed) ↔
      ∃ steps, run context.host steps (evaluating node frame before) =
        some (final result after printed) := by
  constructor
  · rintro ⟨fuel, events, h, rfl⟩
    exact reaches_of_evaluate h
  · rintro ⟨steps, hrun⟩
    obtain ⟨⟨result', after', events⟩, houtcome, hfinal⟩ :=
      exists_evaluate_of_stops hrun (step_final _ _ _)
    obtain ⟨rfl, rfl, rfl⟩ := final_injective hfinal
    exact ⟨steps + 1, events, houtcome, rfl⟩

end

end Machine

end Lisplet
