import Lisplet.Proofs.Machine.Basic
import Lisplet.Proofs.Semantics.Cases
import Lisplet.Proofs.Values.Criterion

/-!
# What a run keeps

A discipline says what may occur in the values and trees of a run. It may depend on the age of
things: there is a criterion for every number of frames, and a value that is bound in a frame meets
the criterion for the number of frames that were there before it. A discipline also says which
errors may arise.

A few laws are enough for a discipline to be kept. Criteria get weaker as frames are added, the
frames that are there may be captured, closures may be made, and the procedures of the host that may
occur make nothing new out of their arguments. Each part of a step then leads from a state that
meets the discipline to a state that meets it, and so does every run.
-/

namespace Lisplet

/-- The errors that a program makes on its own, whatever it is given from outside. -/
def Error.OfProgram : Error → Prop
  | .operandCount _ | .parametersNotList _ | .parameterNotName _ | .bindingsNotList _
  | .malformedBinding _ | .notList _ _ | .firstOfEmpty | .argumentCount _ _ _ | .notCallable _ _
  | .duplicateName _ => True
  | _ => False

namespace Machine

/-- What may occur in a run, and which errors may arise. -/
structure Discipline (host : Host) where
  /-- What may occur while there is a given number of frames. -/
  allows : Nat → Criterion
  /-- The errors that may arise. -/
  error : Error → Prop
  mono : ∀ {m n}, m ≤ n → (allows m).Implies (allows n)
  scope_of_lt : ∀ {frame : FrameId} {n}, frame.index < n → (allows n).scope frame
  identity_any : ∀ n identity, (allows n).identity identity
  /-- What procedures of the host make of arguments, and how they fail. -/
  call : ∀ {n callable arguments} (call : Nat), (allows n).callable callable →
    Value.AllMeet (allows n) arguments →
      (∀ value, callable.call host call arguments = .ok value → value.Meets (allows n)) ∧
        ∀ failure, callable.call host call arguments = .error failure → error failure
  error_of_program : ∀ {failure : Error}, failure.OfProgram → error failure
  /-- A number without a text shows when something is to be written. -/
  error_illegible : ∀ {n}, ¬ (allows n).Legible → error .integerTooLong
  /-- A value in the place of code shows when it is evaluated. -/
  error_foreign : ∀ {n shown}, (allows n).foreign → error (.notCode shown)

/-! ## States that meet a discipline -/

/-- What a row of values is for meets a criterion. -/
def Purpose.Meets (p : Criterion) : Purpose → Prop
  | .list => True
  | .arguments function => function.Meets p

/-- All that a task holds meets a criterion. -/
def Task.Meets (p : Criterion) : Task → Prop
  | .operator operands frame => Node.AllMeet p operands ∧ p.scope frame
  | .row purpose reversed more frame =>
    purpose.Meets p ∧ Value.AllMeet p reversed ∧ Node.AllMeet p more ∧ p.scope frame
  | .initial _ reversed more body frame =>
    reversed.Meets p ∧ Node.AllMeet p more ∧ body.Meets p ∧ p.scope frame
  | .first | .rest | .print => True
  | .reenter frame => p.scope frame
  | .choice consequent alternative frame =>
    consequent.Meets p ∧ alternative.Meets p ∧ p.scope frame

/-- Purposes that meet a criterion meet every weaker one. -/
lemma Purpose.Meets.mono {p q : Criterion} (h : p.Implies q) {purpose : Purpose}
    (hpurpose : purpose.Meets p) : purpose.Meets q := by
  cases purpose with
  | list => trivial
  | arguments function => exact Value.Meets.mono h hpurpose

/-- Tasks that meet a criterion meet every weaker one. -/
lemma Task.Meets.mono {p q : Criterion} (h : p.Implies q) {task : Task} (htask : task.Meets p) :
    task.Meets q := by
  cases task with
  | operator operands frame =>
    obtain ⟨hoperands, hframe⟩ := htask
    exact ⟨hoperands.mono h, h.scope hframe⟩
  | row purpose reversed rest frame =>
    obtain ⟨hpurpose, hreversed, hrest, hframe⟩ := htask
    exact ⟨hpurpose.mono h, hreversed.mono h, hrest.mono h, h.scope hframe⟩
  | initial name reversed rest body frame =>
    obtain ⟨hreversed, hrest, hbody, hframe⟩ := htask
    exact ⟨hreversed.mono h, hrest.mono h, hbody.mono h, h.scope hframe⟩
  | first | rest | print => trivial
  | reenter frame => exact h.scope htask
  | choice consequent alternative frame =>
    obtain ⟨hconsequent, halternative, hframe⟩ := htask
    exact ⟨hconsequent.mono h, halternative.mono h, h.scope hframe⟩

namespace Discipline

variable {host : Host} (d : Discipline host)

/-- What may occur now. -/
def now (memory : Memory) : Criterion :=
  d.allows memory.store.frames.size

/-- The store and the tasks meet a discipline. -/
structure Holds (memory : Memory) : Prop where
  store : memory.store.Meets d.allows
  tasks : ∀ task ∈ memory.tasks, task.Meets (d.now memory)

/-- What a machine is busy with meets a discipline. A new frame is filled with what may occur in it,
while its body may already refer to it. -/
def Admits (memory : Memory) : Focus → Prop
  | .evaluate node frame => node.Meets (d.now memory) ∧ (d.now memory).scope frame
  | .yield value => value.Meets (d.now memory)
  | .bind frame bindings body =>
    frame.index < memory.store.frames.size ∧ bindings.Meets (d.allows frame.index) ∧
      body.Meets (d.now memory)
  | .failed failure => d.error failure

/-- A state that meets a discipline. -/
structure Keeps (state : State) : Prop where
  memory : d.Holds state.memory
  focus : d.Admits state.memory state.focus

variable {d} {memory : Memory}

/-! ## Errors -/

/-- An error that shows a text may arise, whether the text exists or not. -/
lemma error_naming {n : Nat} {shown : Option String} {cause : String → Error}
    (h : (d.allows n).Legible → shown.isSome) (hcause : ∀ text, d.error (cause text)) :
    d.error (Error.naming shown cause) := by
  cases hshown : shown with
  | some text => exact hcause text
  | none =>
    refine d.error_illegible (n := n) fun hlegible => ?_
    have hsome := h hlegible
    rw [hshown] at hsome
    cases hsome

/-- An error that shows a value may arise, whether the value has a text or not. -/
lemma error_naming_value {n : Nat} {value : Value} {cause : String → Error}
    (h : value.Meets (d.allows n)) (hcause : ∀ text, d.error (cause text)) :
    d.error (Error.naming value.inspect cause) :=
  error_naming (fun hlegible => h.isSome_render hlegible .structural) hcause

/-- An error that shows a tree may arise, whether the tree has a text or not. -/
lemma error_naming_node {n : Nat} {node : Node} {cause : String → Error}
    (h : node.Meets (d.allows n)) (hcause : ∀ text, d.error (cause text)) :
    d.error (Error.naming node.inspect cause) :=
  error_naming (fun hlegible => h.isSome_render hlegible .structural) hcause

/-- The error of applying a value that takes no arguments may arise. -/
lemma error_notApplicable {n : Nat} {head : Value} {arguments : List Value}
    (hhead : head.Meets (d.allows n)) (harguments : Value.AllMeet (d.allows n) arguments) :
    d.error (notApplicable head arguments) := by
  unfold notApplicable
  split
  · exact d.error_of_program trivial
  · rename_i hnone
    refine d.error_illegible (n := n) fun hlegible => ?_
    have hlist : (Value.list arguments).Meets (d.allows n) := harguments
    have hshown := hhead.isSome_render hlegible .structural
    have hshown' := hlist.isSome_render hlegible .structural
    obtain ⟨text, htext⟩ := Option.isSome_iff_exists.1 hshown
    obtain ⟨text', htext'⟩ := Option.isSome_iff_exists.1 hshown'
    exact hnone text text' htext htext'

/-! ## The parts of a step -/

/-- A value that may occur may be yielded. -/
lemma Holds.yield (h : d.Holds memory) {value : Value} (hvalue : value.Meets (d.now memory)) :
    d.Keeps (memory.yield value) :=
  ⟨h, hvalue⟩

/-- A machine that fails keeps nothing but its store. -/
lemma Holds.fail (h : d.Holds memory) {failure : Error} (hfailure : d.error failure) :
    d.Keeps (memory.fail failure) :=
  ⟨⟨h.store, fun _ htask => absurd htask List.not_mem_nil⟩, hfailure⟩

/-- A tree that may occur may be evaluated. -/
lemma Holds.evaluate (h : d.Holds memory) {node : Node} {frame : FrameId}
    (hnode : node.Meets (d.now memory)) (hframe : (d.now memory).scope frame) :
    d.Keeps (memory.evaluate node frame) :=
  ⟨h, hnode, hframe⟩

/-- A task that may occur may wait for the value of a tree. -/
lemma Holds.await (h : d.Holds memory) {task : Task} {node : Node} {frame : FrameId}
    (htask : task.Meets (d.now memory)) (hnode : node.Meets (d.now memory))
    (hframe : (d.now memory).scope frame) : d.Keeps (memory.await task node frame) := by
  have htasks : ∀ other ∈ task :: memory.tasks, other.Meets (d.now memory) :=
    List.forall_mem_cons.2 ⟨htask, h.tasks⟩
  exact ⟨⟨h.store, htasks⟩, hnode, hframe⟩

/-- The bindings of a new frame meet the criterion for the frames that are older. -/
lemma Holds.enter (h : d.Holds memory) {outer : FrameId} {bindings : Bindings} {body : Node}
    (houter : (d.now memory).scope outer) (hbindings : bindings.Meets (d.now memory))
    (hbody : body.Meets (d.now memory)) : d.Keeps (memory.enter outer bindings body) := by
  have hsize : (memory.store.child outer).2.frames.size = memory.store.frames.size + 1 :=
    Array.size_push _
  have hmono : (d.now memory).Implies (d.allows (memory.store.child outer).2.frames.size) := by
    rw [hsize]
    exact d.mono (Nat.le_succ _)
  have hempty : Bindings.Meets (d.now memory) [] := fun pair hpair => absurd hpair List.not_mem_nil
  have hstore : (memory.store.child outer).2.Meets d.allows :=
    h.store.push (fun _ heq => Option.some.inj heq ▸ houter) hempty
  refine ⟨⟨hstore, fun task htask => (h.tasks task htask).mono hmono⟩, ?_, hbindings,
    hbody.mono hmono⟩
  change memory.store.frames.size < (memory.store.child outer).2.frames.size
  rw [hsize]
  exact Nat.lt_succ_self _

/-- Closures may be made of what may occur. -/
lemma Holds.close (h : d.Holds memory) {params : List String} {body : Node} {scope : FrameId}
    (hparams : ∀ param ∈ params, (d.now memory).name param) (hbody : body.Meets (d.now memory))
    (hscope : (d.now memory).scope scope) : d.Keeps (memory.close params body scope) :=
  ⟨⟨h.store, h.tasks⟩, d.identity_any _ _, hparams, hscope, hbody⟩

/-- Procedures that may occur may be called. -/
lemma Holds.call (h : d.Holds memory) {callable : Callable} {arguments : List Value}
    (hcallable : (d.now memory).callable callable)
    (harguments : Value.AllMeet (d.now memory) arguments) :
    d.Keeps (memory.call host callable arguments) := by
  have hnext : d.Holds { memory with store := memory.store.next } := ⟨h.store, h.tasks⟩
  obtain ⟨hvalue, herror⟩ := d.call memory.store.identities hcallable harguments
  unfold Memory.call
  cases hcall : callable.call host memory.store.identities arguments with
  | ok value => exact hnext.yield (hvalue value hcall)
  | error failure => exact hnext.fail (herror failure hcall)

/-- Prints do not matter. -/
lemma Holds.print (h : d.Holds memory) (value : Value) (text : String) :
    d.Holds (memory.print value text) :=
  ⟨h.store, h.tasks⟩

/-- Values may be applied. -/
lemma Holds.apply (h : d.Holds memory) {function : Value} {arguments : List Value}
    (hfunction : function.Meets (d.now memory))
    (harguments : Value.AllMeet (d.now memory) arguments) :
    d.Keeps (memory.apply host function arguments) := by
  cases function with
  | closure identity params body scope =>
    obtain ⟨-, -, hscope, hbody⟩ := hfunction
    simp only [Memory.apply]
    split
    · refine h.enter hscope (fun pair hpair => ?_) hbody
      have hmem : pair.2 ∈ arguments := (List.of_mem_zip hpair).2
      exact Value.allMeet_iff.1 harguments _ hmem
    · have hshown : (d.now memory).Legible →
          ((body.render .surface).map (closureText params)).isSome := by
        intro hlegible
        rw [Option.isSome_map]
        exact hbody.isSome_render hlegible .surface
      exact h.fail (error_naming hshown fun text => d.error_of_program trivial)
  | host callable => exact h.call hfunction harguments
  | _ =>
    cases arguments with
    | nil => exact h.yield hfunction
    | cons argument more => exact h.fail (error_notApplicable hfunction harguments)

/-- Rows of trees may be evaluated. -/
lemma Holds.gather (h : d.Holds memory) {purpose : Purpose} {reversed : List Value}
    {frame : FrameId} {nodes : List Node} (hpurpose : purpose.Meets (d.now memory))
    (hreversed : Value.AllMeet (d.now memory) reversed) (hnodes : Node.AllMeet (d.now memory) nodes)
    (hframe : (d.now memory).scope frame) :
    d.Keeps (memory.gather host purpose reversed frame nodes) := by
  have hvalues : Value.AllMeet (d.now memory) reversed.reverse :=
    Value.allMeet_iff.2 fun value hvalue =>
      Value.allMeet_iff.1 hreversed value (List.mem_reverse.1 hvalue)
  cases nodes with
  | cons node rest =>
    obtain ⟨hnode, hrest⟩ := hnodes
    exact h.await ⟨hpurpose, hreversed, hrest, hframe⟩ hnode hframe
  | nil =>
    cases purpose with
    | list => exact h.yield hvalues
    | arguments function => exact h.apply hpurpose hvalues

/-- New bindings may be evaluated. -/
lemma Holds.initialise (h : d.Holds memory) {frame : FrameId} {body : Node} {reversed : Bindings}
    {nodes : List Node} (hframe : (d.now memory).scope frame) (hbody : body.Meets (d.now memory))
    (hreversed : reversed.Meets (d.now memory)) (hnodes : Node.AllMeet (d.now memory) nodes) :
    d.Keeps (memory.initialise frame body reversed nodes) := by
  cases nodes with
  | nil =>
    exact h.enter hframe (fun pair hpair => hreversed pair (List.mem_reverse.1 hpair)) hbody
  | cons node rest =>
    obtain ⟨hnode, hrest⟩ := hnodes
    by_cases hpair : ∃ name init, node = .form [.identifier name, init]
    · obtain ⟨name, init, rfl⟩ := hpair
      obtain ⟨-, hinit, -⟩ := hnode
      exact h.await ⟨hreversed, hrest, hbody, hframe⟩ hinit hframe
    · have hpair : ∀ name init, node ≠ .form [.identifier name, init] :=
        fun name init heq => hpair ⟨name, init, heq⟩
      rw [Memory.initialise.eq_3 memory frame body reversed node rest hpair]
      exact h.fail (error_naming_node hnode fun text => d.error_of_program trivial)

/-- Closures may be made with trees as parameters. -/
lemma Holds.abstract (h : d.Holds memory) {params : List Node} {body : Node} {frame : FrameId}
    (hparams : Node.AllMeet (d.now memory) params) (hbody : body.Meets (d.now memory))
    (hframe : (d.now memory).scope frame) : d.Keeps (memory.abstract params body frame) := by
  unfold Memory.abstract
  rcases SpecialForm.parameters_cases params with ⟨names, rfl⟩ | ⟨names, other, more, rfl, hother⟩
  · rw [SpecialForm.parameterNames_map]
    have hnames : ∀ name ∈ names, (d.now memory).name name := fun name hname =>
      Node.allMeet_iff.1 hparams (.identifier name) (List.mem_map_of_mem hname)
    exact h.close hnames hbody hframe
  · rw [SpecialForm.parameterNames_map_append names more hother]
    have hmeets : other.Meets (d.now memory) :=
      Node.allMeet_iff.1 hparams other (List.mem_append_right _ (List.mem_cons_self ..))
    exact h.fail (error_naming_node hmeets fun text => d.error_of_program trivial)

/-- Special forms may be started. -/
lemma Holds.special (h : d.Holds memory) {form : SpecialForm} {operands : List Node}
    {frame : FrameId} (hoperands : Node.AllMeet (d.now memory) operands)
    (hframe : (d.now memory).scope frame) :
    d.Keeps (memory.special host form operands frame) := by
  unfold Memory.special
  split
  · exact h.gather trivial trivial hoperands hframe
  · exact h.await trivial hoperands.1 hframe
  · exact h.await trivial hoperands.1 hframe
  · exact h.await trivial hoperands.1 hframe
  · obtain ⟨hparams, hbody, -⟩ := hoperands
    exact h.abstract hparams hbody hframe
  · exact h.fail (error_naming_node hoperands.1 fun text => d.error_of_program trivial)
  · obtain ⟨hbindings, hbody, -⟩ := hoperands
    exact h.initialise hframe hbody (fun pair hpair => absurd hpair List.not_mem_nil) hbindings
  · exact h.fail (error_naming_node hoperands.1 fun text => d.error_of_program trivial)
  · exact h.yield hoperands.1
  · exact h.await hframe hoperands.1 hframe
  · obtain ⟨hcondition, hconsequent, halternative, -⟩ := hoperands
    exact h.await ⟨hconsequent, halternative, hframe⟩ hcondition hframe
  · exact h.fail (d.error_of_program trivial)

/-- Trees may be started. -/
lemma Holds.start (h : d.Holds memory) {node : Node} {frame : FrameId}
    (hnode : node.Meets (d.now memory)) (hframe : (d.now memory).scope frame) :
    d.Keeps (memory.start host node frame) := by
  cases node with
  | number n => exact h.yield hnode
  | string s => exact h.yield trivial
  | constant value => exact h.yield hnode
  | identifier name => exact h.yield (h.store.lookup d.mono frame name)
  | quote inner => exact h.yield hnode
  | form children =>
    cases children with
    | nil => exact h.yield trivial
    | cons head operands =>
      obtain ⟨hhead, hoperands⟩ := hnode
      simp only [Memory.start]
      split
      · exact h.special hoperands hframe
      · exact h.await ⟨hoperands, hframe⟩ hhead hframe
  | foreign value =>
    obtain ⟨hforeign, hvalue⟩ := hnode
    exact h.fail (error_naming_value hvalue fun text => d.error_foreign hforeign)

/-- Tasks may go on with a value. -/
lemma Holds.resume (h : d.Holds memory) {value : Value} {task : Task}
    (hvalue : value.Meets (d.now memory)) (htask : task.Meets (d.now memory)) :
    d.Keeps (memory.resume host value task) := by
  have hshown : ∀ form : SpecialForm, d.error (Error.naming value.inspect (.notList form)) :=
    fun form => error_naming_value hvalue fun text => d.error_of_program trivial
  cases task with
  | operator operands frame => exact h.gather hvalue trivial htask.1 htask.2
  | row purpose reversed rest frame =>
    obtain ⟨hpurpose, hreversed, hrest, hframe⟩ := htask
    exact h.gather hpurpose ⟨hvalue, hreversed⟩ hrest hframe
  | initial name reversed rest body frame =>
    obtain ⟨hreversed, hrest, hbody, hframe⟩ := htask
    exact h.initialise hframe hbody (List.forall_mem_cons.2 ⟨hvalue, hreversed⟩) hrest
  | first =>
    cases value with
    | list items =>
      cases items with
      | nil => exact h.fail (d.error_of_program trivial)
      | cons item items => exact h.yield hvalue.1
    | _ => exact h.fail (hshown .first)
  | rest =>
    cases value with
    | list items =>
      have hitems : Value.AllMeet (d.now memory) (items.drop 1) :=
        Value.allMeet_iff.2 fun item hitem =>
          Value.allMeet_iff.1 hvalue item (List.mem_of_mem_drop hitem)
      exact h.yield hitems
    | _ => exact h.fail (hshown .rest)
  | print =>
    simp only [Memory.resume]
    cases htext : value.display with
    | some text => exact (h.print value text).yield hvalue
    | none =>
      have hnone : ¬ (d.now memory).Legible := by
        intro hlegible
        have hsome := hvalue.isSome_render hlegible .surface
        rw [Value.display] at htext
        rw [htext] at hsome
        cases hsome
      exact h.fail (d.error_illegible hnone)
  | reenter frame =>
    cases value with
    | quoted code => exact h.evaluate hvalue htask
    | list items => exact h.evaluate hvalue.ofItems htask
    | _ => exact h.yield hvalue
  | choice consequent alternative frame =>
    obtain ⟨hconsequent, halternative, hframe⟩ := htask
    simp only [Memory.resume]
    split
    · exact h.evaluate halternative hframe
    · exact h.evaluate hconsequent hframe

/-- What may occur in a frame may be bound in it. -/
lemma Holds.extend (h : d.Holds memory) {frame : FrameId} (name : String) {value : Value}
    (hvalue : value.Meets (d.allows frame.index)) :
    d.Holds { memory with store := memory.store.extend frame name value } := by
  refine ⟨h.store.extend name hvalue, fun task htask => ?_⟩
  unfold Discipline.now
  rw [Store.size_extend]
  exact h.tasks task htask

/-! ## Steps and runs -/

/-- Every step keeps the discipline. -/
theorem Keeps.step {state next : State} (h : d.Keeps state) (hstep : step host state = some next) :
    d.Keeps next := by
  obtain ⟨focus, memory⟩ := state
  obtain ⟨hmemory, hfocus⟩ := h
  cases focus with
  | evaluate node frame =>
    obtain rfl := Option.some.inj hstep
    exact hmemory.start hfocus.1 hfocus.2
  | yield value =>
    obtain ⟨tasks, store, printed⟩ := memory
    cases tasks with
    | nil => cases hstep
    | cons task tasks =>
      obtain rfl := Option.some.inj hstep
      obtain ⟨htask, htasks⟩ := List.forall_mem_cons.1 hmemory.tasks
      have hholds : d.Holds ⟨tasks, store, printed⟩ := ⟨hmemory.store, htasks⟩
      exact hholds.resume hfocus htask
  | bind frame bindings body =>
    obtain ⟨hframe, hbindings, hbody⟩ := hfocus
    cases bindings with
    | nil =>
      obtain rfl := Option.some.inj hstep
      exact hmemory.evaluate hbody (d.scope_of_lt hframe)
    | cons pair rest =>
      obtain ⟨name, value⟩ := pair
      obtain ⟨hvalue, hrest⟩ := List.forall_mem_cons.1 hbindings
      simp only [Machine.step, Store.bind] at hstep
      split at hstep
      · rename_i store hbind
        split at hbind
        · cases hbind
        · obtain rfl := Except.ok.inj hbind
          obtain rfl := Option.some.inj hstep
          refine ⟨hmemory.extend name hvalue, ?_⟩
          have hsize := memory.store.size_extend frame name value
          simp only [Admits, Discipline.now, hsize]
          exact ⟨hframe, hrest, hbody⟩
      · rename_i failure hbind
        split at hbind
        · obtain rfl := Except.error.inj hbind
          obtain rfl := Option.some.inj hstep
          exact hmemory.fail (d.error_of_program trivial)
        · cases hbind
  | failed failure => cases hstep

/-- Every run keeps the discipline. -/
theorem Keeps.run {steps : Nat} {state last : State} (h : d.Keeps state)
    (hrun : run host steps state = some last) : d.Keeps last :=
  run_induction Keeps.step h hrun

/-- An evaluation keeps the discipline if the store and the tree do. -/
lemma keeps_evaluating {node : Node} {frame : FrameId} {store : Store}
    (hstore : store.Meets d.allows) (hnode : node.Meets (d.allows store.frames.size))
    (hframe : (d.allows store.frames.size).scope frame) :
    d.Keeps (evaluating node frame store) := by
  have hholds : d.Holds ⟨[], store, []⟩ :=
    ⟨hstore, fun _ htask => absurd htask List.not_mem_nil⟩
  exact hholds.evaluate hnode hframe

/-- A run of a tree keeps the discipline if the bindings and the tree do. -/
lemma keeps_initial {bindings : Bindings} {node : Node} (hbindings : bindings.Meets (d.allows 0))
    (hnode : node.Meets (d.allows 1)) : d.Keeps (initial bindings node) := by
  have hroot : (Store.empty.root bindings).2.Meets d.allows :=
    (Store.meets_empty d.allows).push (fun _ houter => nomatch houter) hbindings
  exact keeps_evaluating hroot hnode (d.scope_of_lt (Nat.lt_succ_self 0))

end Discipline

end Machine

end Lisplet
