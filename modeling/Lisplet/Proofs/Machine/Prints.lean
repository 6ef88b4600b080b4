import Lisplet.Proofs.Machine.Agreement

/-!
# The prints of a run

A print takes place at one moment of a run: a value is there, the next task is to print it, and the
value has a text. Every other step leaves the prints alone. So the prints that a machine remembers
are those that its steps have completed, one after the other, and at the end of an evaluation, be it
with a value or with an error, they are all that was handed to the outlet.
-/

namespace Lisplet

namespace Machine

/-- The print that the next step completes, if it completes one. -/
def completes : State → List (Value × String)
  | ⟨.yield value, ⟨.print :: _, _, _⟩⟩ =>
    match value.display with
    | some text => [(value, text)]
    | none => []
  | _ => []

/-- The prints that a number of steps complete, in order. -/
def completed (host : Host) : Nat → State → List (Value × String)
  | 0, _ => []
  | steps + 1, state =>
    match step host state with
    | some next => completes state ++ completed host steps next
    | none => []

/-! ## One step -/

section

variable {host : Host} (memory : Memory)

@[simp]
lemma printed_yield (value : Value) : (memory.yield value).memory.printed = memory.printed := rfl

@[simp]
lemma printed_fail (error : Error) : (memory.fail error).memory.printed = memory.printed := rfl

@[simp]
lemma printed_settle (result : Except Error Value) :
    (memory.settle result).memory.printed = memory.printed := by
  cases result <;> rfl

@[simp]
lemma printed_evaluate (node : Node) (frame : FrameId) :
    (memory.evaluate node frame).memory.printed = memory.printed := rfl

@[simp]
lemma printed_await (task : Task) (node : Node) (frame : FrameId) :
    (memory.await task node frame).memory.printed = memory.printed := rfl

@[simp]
lemma printed_enter (outer : FrameId) (bindings : Bindings) (body : Node) :
    (memory.enter outer bindings body).memory.printed = memory.printed := rfl

@[simp]
lemma printed_close (params : List String) (body : Node) (scope : FrameId) :
    (memory.close params body scope).memory.printed = memory.printed := rfl

@[simp]
lemma printed_call (callable : Callable) (arguments : List Value) :
    (memory.call host callable arguments).memory.printed = memory.printed := by
  unfold Memory.call
  simp

@[simp]
lemma printed_apply (function : Value) (arguments : List Value) :
    (memory.apply host function arguments).memory.printed = memory.printed := by
  unfold Memory.apply
  split
  · split <;> simp
  · simp
  · split <;> simp

@[simp]
lemma printed_gather (purpose : Purpose) (reversed : List Value) (frame : FrameId)
    (nodes : List Node) :
    (memory.gather host purpose reversed frame nodes).memory.printed = memory.printed := by
  unfold Memory.gather
  split
  · simp
  · split <;> simp

@[simp]
lemma printed_initialise (frame : FrameId) (body : Node) (reversed : Bindings)
    (nodes : List Node) :
    (memory.initialise frame body reversed nodes).memory.printed = memory.printed := by
  unfold Memory.initialise
  split <;> simp

@[simp]
lemma printed_abstract (params : List Node) (body : Node) (frame : FrameId) :
    (memory.abstract params body frame).memory.printed = memory.printed := by
  unfold Memory.abstract
  split <;> simp

@[simp]
lemma printed_special (form : SpecialForm) (operands : List Node) (frame : FrameId) :
    (memory.special host form operands frame).memory.printed = memory.printed := by
  unfold Memory.special
  split <;> simp

@[simp]
lemma printed_start (node : Node) (frame : FrameId) :
    (memory.start host node frame).memory.printed = memory.printed := by
  unfold Memory.start
  split
  case h_7 => split <;> simp
  all_goals simp

/-- Going on with a task prints only if the task is to print. -/
lemma printed_resume (value : Value) (task : Task) (tasks : List Task) (store : Store)
    (printed : List (Value × String)) :
    (Memory.resume host ⟨tasks, store, printed⟩ value task).memory.printed =
      printed ++ completes ⟨.yield value, ⟨task :: tasks, store, printed⟩⟩ := by
  cases task with
  | print =>
    simp only [Memory.resume, completes]
    cases value.display <;> simp [Memory.print]
  | first | rest | reenter =>
    simp only [Memory.resume, completes, List.append_nil]
    split <;> simp
  | operator | row | initial | choice => simp [Memory.resume, completes]

end

variable {host : Host}

/-- A step adds the print that it completes. -/
lemma printed_step {state next : State} (h : step host state = some next) :
    next.memory.printed = state.memory.printed ++ completes state := by
  obtain ⟨focus, tasks, store, printed⟩ := state
  cases focus with
  | evaluate node frame =>
    cases h
    simp [completes]
  | yield value =>
    cases tasks with
    | nil => cases h
    | cons task tasks =>
      cases h
      exact printed_resume value task tasks store printed
  | bind frame bindings body =>
    rcases bindings with _ | ⟨⟨name, value⟩, rest⟩
    · cases h
      simp [completes]
    · simp only [step] at h
      split at h
      · cases h
        simp [completes]
      · cases h
        simp [completes]
  | failed error => cases h

/-- A run adds the prints that its steps complete. -/
lemma printed_run {steps : Nat} {state last : State} (h : run host steps state = some last) :
    last.memory.printed = state.memory.printed ++ completed host steps state := by
  induction steps generalizing state with
  | zero =>
    obtain rfl : state = last := Option.some.inj h
    exact (List.append_nil _).symm
  | succ steps ih =>
    obtain ⟨next, hnext, hrest⟩ := Option.bind_eq_some_iff.1 h
    have hlast := ih hrest
    rw [printed_step hnext, List.append_assoc] at hlast
    simpa only [completed, hnext] using hlast

/-- A last moment has the prints that it is made from. -/
lemma printed_final (result : Except Error Value) (store : Store)
    (printed : List (Value × String)) : (final result store printed).memory.printed = printed := by
  cases result <;> rfl

/-! ## Evaluations -/

/-- An evaluation that ends has handed over the texts of the prints that the machine completes up to
its end. -/
lemma exists_run_of_evaluate {context : Context} {fuel : Nat} {node : Node} {frame : FrameId}
    {before : Store} {outcome : Outcome Value}
    (h : evaluate context fuel node frame before = some outcome) :
    ∃ steps, run context.host steps (evaluating node frame before) =
        some (final outcome.result outcome.store
          (completed context.host steps (evaluating node frame before))) ∧
      Event.printings outcome.events =
        completed context.host steps (evaluating node frame before) := by
  obtain ⟨steps, hrun⟩ := reaches_of_evaluate h
  have hprinted := printed_run hrun
  rw [printed_final] at hprinted
  have hcompleted : Event.printings outcome.events =
      completed context.host steps (evaluating node frame before) := hprinted
  refine ⟨steps, ?_, hcompleted⟩
  rw [← hcompleted]
  exact hrun

end Machine

/-- The texts that were handed over are those of the printed values. -/
lemma Event.handed_eq_map_printings (events : List Event) :
    handed events = (printings events).map Prod.snd := by
  unfold handed printings
  rw [List.map_filterMap]
  refine List.filterMap_congr fun event _ => ?_
  cases event <;> rfl

end Lisplet
