import Lisplet.Proofs.Machine.Agreement
import Lisplet.Proofs.Semantics.Cases
import Lisplet.Proofs.Values.Criterion

/-!
# Runs that cannot tell two stores apart

A confinement says which trees a run may evaluate, which values it may come across, and which pairs
of stores look alike to such a run. Its laws say that the trees and values inside confined ones are
confined too, that a confined name has the same value in stores that look alike, and that such
stores go on looking alike while frames are made and filled.

Two machines that start alike then take the same steps. At every moment they are busy with the same
thing, have the same tasks, and have printed the same values, all of them confined. The pairs of
stores may be equal ones, and then this is a statement about all that a single run comes across.
-/

namespace Lisplet

namespace Machine

/-- What a run may come across, and which stores look alike to it. -/
structure Confinement (host : Host) where
  /-- The trees that may be evaluated. -/
  node : Node → Prop
  /-- The values that may occur. -/
  value : Value → Prop
  /-- The stores that look alike. -/
  alike : Store → Store → Prop
  /-- The frames that may be filled. -/
  fresh : FrameId → Prop
  /-- Whether values may be evaluated as code. -/
  reenters : Prop
  node_of_mem : ∀ {children child}, node (.form children) → child ∈ children → node child
  node_of_quote : ∀ {inner}, node (.quote inner) → node inner
  value_number : ∀ n, value (.number n)
  value_text : ∀ s, value (.text s)
  value_empty : value .empty
  value_absent : value .absent
  value_of_constant : ∀ {given}, node (.constant given) → value given
  value_quoted : ∀ {code}, node code → value (.quoted code)
  value_list_iff : ∀ {items}, value (.list items) ↔ ∀ item ∈ items, value item
  /-- A closure is made from a tree that says how it is made. -/
  value_closure : ∀ {names body} (identity scope), node (.abstraction names body) →
    value (.closure identity names body scope)
  node_body : ∀ {identity params body scope},
    value (.closure identity params body scope) → node body
  /-- What procedures of the host make of confined arguments is confined. -/
  value_call : ∀ {callable : Callable} {call arguments result}, value (.host callable) →
    (∀ argument ∈ arguments, value argument) → callable.call host call arguments = .ok result →
      value result
  reenters_of_node : ∀ {operand}, node (.special .eval [operand]) → reenters
  node_of_quoted : ∀ {code}, reenters → value (.quoted code) → node code
  node_ofItems : ∀ {items}, reenters → value (.list items) → node (.ofItems items)
  lookup : ∀ {store twin name} (frame), alike store twin → node (.identifier name) →
    twin.lookup frame name = store.lookup frame name
  identities : ∀ {store twin}, alike store twin → twin.identities = store.identities
  newIdentity : ∀ {store twin}, alike store twin → alike store.next twin.next
  /-- A new frame has the same number in both stores, and may be filled. -/
  child : ∀ {store twin} (outer), alike store twin →
    (twin.child outer).1 = (store.child outer).1 ∧ fresh (store.child outer).1 ∧
      alike (store.child outer).2 (twin.child outer).2
  bound? : ∀ {store twin frame} (name), alike store twin → fresh frame →
    twin.bound? frame name = store.bound? frame name
  extend : ∀ {store twin frame} (name given), alike store twin → fresh frame →
    alike (store.extend frame name given) (twin.extend frame name given)

namespace Confinement

variable {host : Host} (c : Confinement host)

/-! ## Confined states -/

/-- What a row of values is for is confined. -/
def Serves : Purpose → Prop
  | .list => True
  | .arguments function => c.value function

/-- All that a task holds is confined. -/
def Carries : Task → Prop
  | .operator operands _ => ∀ operand ∈ operands, c.node operand
  | .row purpose reversed more _ =>
    c.Serves purpose ∧ (∀ value ∈ reversed, c.value value) ∧ ∀ node ∈ more, c.node node
  | .initial _ reversed more body _ =>
    (∀ pair ∈ reversed, c.value pair.2) ∧ (∀ node ∈ more, c.node node) ∧ c.node body
  | .first | .rest | .print => True
  | .reenter _ => c.reenters
  | .choice consequent alternative _ => c.node consequent ∧ c.node alternative

/-- What a machine is busy with is confined. -/
def Admits : Focus → Prop
  | .evaluate node _ => c.node node
  | .yield value => c.value value
  | .bind frame bindings body =>
    c.fresh frame ∧ (∀ pair ∈ bindings, c.value pair.2) ∧ c.node body
  | .failed _ => True

/-- Two memories with the same confined tasks and prints, and stores that look alike and bind
confined values. -/
structure Holds (memory twin : Memory) : Prop where
  store : c.alike memory.store twin.store
  bound : memory.store.AllBound c.value
  tasks_eq : twin.tasks = memory.tasks
  tasks : ∀ task ∈ memory.tasks, c.Carries task
  printed_eq : twin.printed = memory.printed
  printed : ∀ printing ∈ memory.printed, c.value printing.1

/-- Two states that look alike. -/
structure Keeps (state twin : State) : Prop where
  memory : c.Holds state.memory twin.memory
  focus_eq : twin.focus = state.focus
  focus : c.Admits state.focus

variable {c} {memory twin : Memory}

/-! ## The parts of a step -/

/-- The same confined value is yielded. -/
lemma Holds.yield (h : c.Holds memory twin) {value : Value} (hvalue : c.value value) :
    c.Keeps (memory.yield value) (twin.yield value) :=
  ⟨h, rfl, hvalue⟩

/-- The same error arises. -/
lemma Holds.fail (h : c.Holds memory twin) (error : Error) :
    c.Keeps (memory.fail error) (twin.fail error) :=
  ⟨⟨h.store, h.bound, rfl, fun _ htask => absurd htask List.not_mem_nil, h.printed_eq,
    h.printed⟩, rfl, trivial⟩

/-- The same confined tree is evaluated. -/
lemma Holds.evaluate (h : c.Holds memory twin) {node : Node} (hnode : c.node node)
    (frame : FrameId) : c.Keeps (memory.evaluate node frame) (twin.evaluate node frame) :=
  ⟨h, rfl, hnode⟩

/-- The same confined task waits for the value of the same tree. -/
lemma Holds.await (h : c.Holds memory twin) (task : Task) {node : Node} (htask : c.Carries task)
    (hnode : c.node node) (frame : FrameId) :
    c.Keeps (memory.await task node frame) (twin.await task node frame) :=
  ⟨⟨h.store, h.bound, congrArg (task :: ·) h.tasks_eq,
    List.forall_mem_cons.2 ⟨htask, h.tasks⟩, h.printed_eq, h.printed⟩, rfl, hnode⟩

/-- Frames with the same number are made and filled with the same confined values. -/
lemma Holds.enter (h : c.Holds memory twin) {bindings : Bindings} {body : Node} (outer : FrameId)
    (hbindings : ∀ pair ∈ bindings, c.value pair.2) (hbody : c.node body) :
    c.Keeps (memory.enter outer bindings body) (twin.enter outer bindings body) := by
  obtain ⟨hframe, hfresh, hstore⟩ := c.child outer h.store
  have hbound : (memory.store.child outer).2.AllBound c.value :=
    h.bound.push fun _ hpair => absurd hpair List.not_mem_nil
  refine ⟨⟨hstore, hbound, h.tasks_eq, h.tasks, h.printed_eq, h.printed⟩, ?_, hfresh, hbindings,
    hbody⟩
  exact congrArg (Focus.bind · bindings body) hframe

/-- Closures with the same identity are made. -/
lemma Holds.close (h : c.Holds memory twin) {params : List String} {body : Node} (scope : FrameId)
    (hvalue : ∀ identity, c.value (.closure identity params body scope)) :
    c.Keeps (memory.close params body scope) (twin.close params body scope) := by
  refine ⟨⟨c.newIdentity h.store, h.bound, h.tasks_eq, h.tasks, h.printed_eq, h.printed⟩, ?_,
    hvalue _⟩
  exact congrArg (fun identity => Focus.yield (.closure identity params body scope))
    (c.identities h.store)

/-- The same procedure is called as the same call. -/
lemma Holds.call (h : c.Holds memory twin) {callable : Callable} {arguments : List Value}
    (hcallable : c.value (.host callable)) (harguments : ∀ argument ∈ arguments, c.value argument) :
    c.Keeps (memory.call host callable arguments) (twin.call host callable arguments) := by
  have hnext : c.Holds { memory with store := memory.store.next }
      { twin with store := twin.store.next } :=
    ⟨c.newIdentity h.store, h.bound, h.tasks_eq, h.tasks, h.printed_eq, h.printed⟩
  unfold Memory.call
  rw [c.identities h.store]
  cases hcall : callable.call host memory.store.identities arguments with
  | ok value => exact hnext.yield (c.value_call hcallable harguments hcall)
  | error failure => exact hnext.fail failure

/-- The same confined value is printed. -/
lemma Holds.print (h : c.Holds memory twin) {value : Value} (hvalue : c.value value)
    (text : String) : c.Holds (memory.print value text) (twin.print value text) := by
  refine ⟨h.store, h.bound, h.tasks_eq, h.tasks, congrArg (· ++ [(value, text)]) h.printed_eq, ?_⟩
  intro printing hprinting
  rcases List.mem_append.1 hprinting with hprinting | hprinting
  · exact h.printed printing hprinting
  · obtain rfl := List.mem_singleton.1 hprinting
    exact hvalue

/-- The same confined value is applied to the same arguments. -/
lemma Holds.apply (h : c.Holds memory twin) {function : Value} {arguments : List Value}
    (hfunction : c.value function) (harguments : ∀ argument ∈ arguments, c.value argument) :
    c.Keeps (memory.apply host function arguments) (twin.apply host function arguments) := by
  cases function with
  | closure identity params body scope =>
    simp only [Memory.apply]
    split
    · refine h.enter scope (fun pair hpair => ?_) (c.node_body hfunction)
      exact harguments _ (List.of_mem_zip hpair).2
    · exact h.fail _
  | host callable => exact h.call hfunction harguments
  | _ =>
    cases arguments with
    | nil => exact h.yield hfunction
    | cons argument more => exact h.fail _

/-- The same confined trees are evaluated in a row. -/
lemma Holds.gather (h : c.Holds memory twin) {purpose : Purpose} {reversed : List Value}
    {nodes : List Node} (frame : FrameId) (hpurpose : c.Serves purpose)
    (hreversed : ∀ value ∈ reversed, c.value value) (hnodes : ∀ node ∈ nodes, c.node node) :
    c.Keeps (memory.gather host purpose reversed frame nodes)
      (twin.gather host purpose reversed frame nodes) := by
  have hvalues : ∀ value ∈ reversed.reverse, c.value value :=
    fun value hvalue => hreversed value (List.mem_reverse.1 hvalue)
  cases nodes with
  | cons node more =>
    obtain ⟨hnode, hmore⟩ := List.forall_mem_cons.1 hnodes
    exact h.await (.row purpose reversed more frame) ⟨hpurpose, hreversed, hmore⟩ hnode frame
  | nil =>
    cases purpose with
    | list => exact h.yield (c.value_list_iff.2 hvalues)
    | arguments function => exact h.apply hpurpose hvalues

/-- The same new bindings are evaluated. -/
lemma Holds.initialise (h : c.Holds memory twin) {body : Node} {reversed : Bindings}
    {nodes : List Node} (frame : FrameId) (hbody : c.node body)
    (hreversed : ∀ pair ∈ reversed, c.value pair.2) (hnodes : ∀ node ∈ nodes, c.node node) :
    c.Keeps (memory.initialise frame body reversed nodes)
      (twin.initialise frame body reversed nodes) := by
  cases nodes with
  | nil => exact h.enter frame (fun pair hpair => hreversed pair (List.mem_reverse.1 hpair)) hbody
  | cons node more =>
    obtain ⟨hnode, hmore⟩ := List.forall_mem_cons.1 hnodes
    by_cases hpair : ∃ name init, node = .form [.identifier name, init]
    · obtain ⟨name, init, rfl⟩ := hpair
      have hinit : c.node init :=
        c.node_of_mem hnode (List.mem_cons_of_mem _ (List.mem_cons_self ..))
      exact h.await (.initial name reversed more body frame) ⟨hreversed, hmore, hbody⟩ hinit frame
    · have hpair : ∀ name init, node ≠ .form [.identifier name, init] :=
        fun name init heq => hpair ⟨name, init, heq⟩
      rw [Memory.initialise.eq_3 memory frame body reversed node more hpair,
        Memory.initialise.eq_3 twin frame body reversed node more hpair]
      exact h.fail _

/-- A closure is made in both machines, or in none. -/
lemma Holds.abstract (h : c.Holds memory twin) {params : List Node} {body : Node} (frame : FrameId)
    (hnode : c.node (.special .lambda [.form params, body])) :
    c.Keeps (memory.abstract params body frame) (twin.abstract params body frame) := by
  unfold Memory.abstract
  rcases SpecialForm.parameters_cases params with ⟨names, rfl⟩ | ⟨names, other, more, rfl, hother⟩
  · rw [SpecialForm.parameterNames_map]
    exact h.close frame fun identity => c.value_closure identity frame hnode
  · rw [SpecialForm.parameterNames_map_append names more hother]
    exact h.fail _

/-- The same special form is started. -/
lemma Holds.special (h : c.Holds memory twin) {form : SpecialForm} {operands : List Node}
    (frame : FrameId) (hnode : c.node (.special form operands)) :
    c.Keeps (memory.special host form operands frame)
      (twin.special host form operands frame) := by
  have hoperands : ∀ operand ∈ operands, c.node operand :=
    fun operand hoperand => c.node_of_mem hnode (List.mem_cons_of_mem _ hoperand)
  unfold Memory.special
  split
  · exact h.gather frame trivial (fun _ hvalue => absurd hvalue List.not_mem_nil) hoperands
  · exact h.await .first trivial (List.forall_mem_cons.1 hoperands).1 frame
  · exact h.await .rest trivial (List.forall_mem_cons.1 hoperands).1 frame
  · exact h.await .print trivial (List.forall_mem_cons.1 hoperands).1 frame
  · exact h.abstract frame hnode
  · exact h.fail _
  · simp only [List.forall_mem_cons] at hoperands
    obtain ⟨hbindings, hbody, -⟩ := hoperands
    exact h.initialise frame hbody (fun _ hpair => absurd hpair List.not_mem_nil)
      fun node hmem => c.node_of_mem hbindings hmem
  · exact h.fail _
  · exact h.yield (c.value_quoted (List.forall_mem_cons.1 hoperands).1)
  · exact h.await (.reenter frame) (c.reenters_of_node hnode) (List.forall_mem_cons.1 hoperands).1
      frame
  · rename_i condition consequent alternative
    simp only [List.forall_mem_cons] at hoperands
    obtain ⟨hcondition, hconsequent, halternative, -⟩ := hoperands
    exact h.await (.choice consequent alternative frame) ⟨hconsequent, halternative⟩ hcondition
      frame
  · exact h.fail _

/-- The same tree is started. -/
lemma Holds.start (h : c.Holds memory twin) {node : Node} (frame : FrameId) (hnode : c.node node) :
    c.Keeps (memory.start host node frame) (twin.start host node frame) := by
  cases node with
  | number n => exact h.yield (c.value_number n)
  | string s => exact h.yield (c.value_text s)
  | constant value => exact h.yield (c.value_of_constant hnode)
  | identifier name =>
    simp only [Memory.start, c.lookup frame h.store hnode]
    exact h.yield (h.bound.lookup c.value_absent frame name)
  | quote inner => exact h.yield (c.value_quoted (c.node_of_quote hnode))
  | form children =>
    cases children with
    | nil => exact h.yield c.value_empty
    | cons head operands =>
      simp only [Memory.start]
      split
      · rename_i form hform
        obtain rfl := Node.specialForm?_eq_some_iff.1 hform
        exact h.special frame hnode
      · have hhead : c.node head := c.node_of_mem hnode (List.mem_cons_self ..)
        have hoperands : ∀ operand ∈ operands, c.node operand :=
          fun operand hoperand => c.node_of_mem hnode (List.mem_cons_of_mem _ hoperand)
        exact h.await (.operator operands frame) hoperands hhead frame
  | foreign value => exact h.fail _

/-- The same task goes on with the same value. -/
lemma Holds.resume (h : c.Holds memory twin) {value : Value} {task : Task} (hvalue : c.value value)
    (htask : c.Carries task) :
    c.Keeps (memory.resume host value task) (twin.resume host value task) := by
  cases task with
  | operator operands frame =>
    exact h.gather frame hvalue (fun _ hmem => absurd hmem List.not_mem_nil) htask
  | row purpose reversed more frame =>
    obtain ⟨hpurpose, hreversed, hmore⟩ := htask
    exact h.gather frame hpurpose (List.forall_mem_cons.2 ⟨hvalue, hreversed⟩) hmore
  | initial name reversed more body frame =>
    obtain ⟨hreversed, hmore, hbody⟩ := htask
    exact h.initialise frame hbody (List.forall_mem_cons.2 ⟨hvalue, hreversed⟩) hmore
  | first =>
    cases value with
    | list items =>
      cases items with
      | nil => exact h.fail _
      | cons item items => exact h.yield (c.value_list_iff.1 hvalue item (List.mem_cons_self ..))
    | _ => exact h.fail _
  | rest =>
    cases value with
    | list items =>
      have hitems : ∀ item ∈ items.drop 1, c.value item :=
        fun item hitem => c.value_list_iff.1 hvalue item (List.mem_of_mem_drop hitem)
      exact h.yield (c.value_list_iff.2 hitems)
    | _ => exact h.fail _
  | print =>
    simp only [Memory.resume]
    cases value.display with
    | some text => exact (h.print hvalue text).yield hvalue
    | none => exact h.fail _
  | reenter frame =>
    cases value with
    | quoted code => exact h.evaluate (c.node_of_quoted htask hvalue) frame
    | list items => exact h.evaluate (c.node_ofItems htask hvalue) frame
    | _ => exact h.yield hvalue
  | choice consequent alternative frame =>
    obtain ⟨hconsequent, halternative⟩ := htask
    simp only [Memory.resume]
    split
    · exact h.evaluate halternative frame
    · exact h.evaluate hconsequent frame

/-! ## Steps and runs -/

/-- Machines that look alike take steps to machines that look alike, or both stop. -/
theorem Keeps.step {state twin : State} (h : c.Keeps state twin) :
    Option.Rel c.Keeps (step host state) (step host twin) := by
  obtain ⟨focus, memory⟩ := state
  obtain ⟨focus', memory'⟩ := twin
  obtain ⟨hmemory, hsame, hfocus⟩ := h
  obtain rfl : focus' = focus := hsame
  cases focus' with
  | evaluate node frame => exact .some (hmemory.start frame hfocus)
  | yield value =>
    obtain ⟨tasks, store, printed⟩ := memory
    obtain ⟨tasks', store', printed'⟩ := memory'
    obtain ⟨hstore, hbound, htasks_eq, htasks, hprinted_eq, hprinted⟩ := hmemory
    obtain rfl : tasks' = tasks := htasks_eq
    cases tasks' with
    | nil => exact .none
    | cons task tasks =>
      obtain ⟨htask, htasks⟩ := List.forall_mem_cons.1 htasks
      have hholds : c.Holds ⟨tasks, store, printed⟩ ⟨tasks, store', printed'⟩ :=
        ⟨hstore, hbound, rfl, htasks, hprinted_eq, hprinted⟩
      exact .some (hholds.resume hfocus htask)
  | bind frame bindings body =>
    obtain ⟨hfresh, hbindings, hbody⟩ := hfocus
    cases bindings with
    | nil => exact .some (hmemory.evaluate hbody frame)
    | cons pair more =>
      obtain ⟨name, value⟩ := pair
      obtain ⟨hvalue, hmore⟩ := List.forall_mem_cons.1 hbindings
      simp only [Machine.step, Store.bind, c.bound? name hmemory.store hfresh]
      by_cases hbound : (memory.store.bound? frame name).isSome
      · simp only [hbound, ↓reduceIte]
        exact .some (hmemory.fail _)
      · simp only [hbound]
        exact .some ⟨⟨c.extend name value hmemory.store hfresh,
          hmemory.bound.extend frame name hvalue, hmemory.tasks_eq, hmemory.tasks,
          hmemory.printed_eq, hmemory.printed⟩, rfl, hfresh, hmore, hbody⟩
  | failed failure => exact .none

/-- Machines that look alike run alike. -/
theorem Keeps.run {state twin : State} (h : c.Keeps state twin) (steps : Nat) :
    Option.Rel c.Keeps (run host steps state) (run host steps twin) := by
  induction steps generalizing state twin with
  | zero => exact .some h
  | succ steps ih =>
    have hstep := h.step
    rw [Machine.run, Machine.run]
    revert hstep
    generalize Machine.step host state = next, Machine.step host twin = next'
    intro hstep
    cases hstep with
    | none => exact .none
    | some hnext => exact ih hnext

/-- A machine that looks like one that has stopped has stopped with the same result. -/
lemma Keeps.final_eq {result result' : Except Error Value} {store store' : Store}
    {printed printed' : List (Value × String)}
    (h : c.Keeps (final result store printed) (final result' store' printed')) :
    result' = result ∧ printed' = printed ∧ c.alike store store' := by
  obtain ⟨hmemory, hfocus, -⟩ := h
  cases result <;> cases result' <;> cases hfocus <;>
    exact ⟨rfl, hmemory.printed_eq, hmemory.store⟩

/-- Machines that look alike stop at the same time. -/
lemma Keeps.stops_iff {state twin : State} (h : c.Keeps state twin) :
    Machine.step host state = none ↔ Machine.step host twin = none := by
  have hstep := h.step
  generalize Machine.step host state = next, Machine.step host twin = next' at hstep
  cases hstep with
  | none => exact Iff.rfl
  | some hnext => exact ⟨nofun, nofun⟩

/-! ## Evaluations -/

/-- Evaluations of the same confined tree start alike in stores that look alike. -/
lemma keeps_evaluating {node : Node} {store twin : Store} (hstore : c.alike store twin)
    (hbound : store.AllBound c.value) (hnode : c.node node) (frame : FrameId) :
    c.Keeps (evaluating node frame store) (evaluating node frame twin) := by
  have hholds : c.Holds ⟨[], store, []⟩ ⟨[], twin, []⟩ :=
    ⟨hstore, hbound, rfl, fun _ htask => absurd htask List.not_mem_nil, rfl,
      fun _ hprinting => absurd hprinting List.not_mem_nil⟩
  exact hholds.evaluate hnode frame

section

variable {context : Context} {c : Confinement context.host} {node : Node} {frame : FrameId}
  {store twin : Store} {fuel : Nat} {outcome : Outcome Value}

/-- If an evaluation ends, so does the evaluation in a store that looks alike, with the same result
and the same prints. -/
lemma exists_evaluate_of_alike (hstore : c.alike store twin)
    (hbound : store.AllBound c.value) (hnode : c.node node)
    (h : Lisplet.evaluate context fuel node frame store = some outcome) :
    ∃ fuel' outcome', Lisplet.evaluate context fuel' node frame twin = some outcome' ∧
      outcome'.result = outcome.result ∧
      Event.printings outcome'.events = Event.printings outcome.events ∧
      c.alike outcome.store outcome'.store := by
  obtain ⟨steps, hrun⟩ := reaches_of_evaluate h
  have hkeeps := (keeps_evaluating hstore hbound hnode frame).run steps
  obtain ⟨last, htwin, hlast⟩ := exists_right_of_rel hkeeps hrun
  have hstop := hlast.stops_iff.1 (step_final _ _ _)
  obtain ⟨outcome', houtcome', rfl⟩ := exists_evaluate_of_stops htwin hstop
  exact ⟨steps + 1, outcome', houtcome', hlast.final_eq⟩

/-- If an evaluation ends in the second of two stores that look alike, it ends in the first. -/
lemma exists_evaluate_of_alike_symm (hstore : c.alike store twin)
    (hbound : store.AllBound c.value) (hnode : c.node node)
    (h : Lisplet.evaluate context fuel node frame twin = some outcome) :
    ∃ fuel' outcome', Lisplet.evaluate context fuel' node frame store = some outcome' := by
  obtain ⟨steps, hrun⟩ := reaches_of_evaluate h
  have hkeeps := (keeps_evaluating hstore hbound hnode frame).run steps
  obtain ⟨last, hfirst, hlast⟩ := exists_left_of_rel hkeeps hrun
  have hstop := hlast.stops_iff.2 (step_final _ _ _)
  obtain ⟨outcome', houtcome', -⟩ := exists_evaluate_of_stops hfirst hstop
  exact ⟨steps + 1, outcome', houtcome'⟩

end

end Confinement

end Machine

end Lisplet
