import Lisplet.Proofs.Renaming.Results
import Lisplet.Proofs.Semantics.Cases
import Lisplet.Proofs.Semantics.Runs

/-!
# Evaluation under renaming

Two evaluations go in lockstep if one is the other after a renaming: they run out of steps together,
or end with corresponding results, prints and stores. The stores correspond by a relation of which
only a few laws are needed. They are `Renaming.Carries`: looking up a name gives corresponding
values, and the two ways to change a store, a new frame and a new identity, lead from corresponding
stores to corresponding stores.

Lockstep is shown for the single actions, is handed on by sequences, and so holds for one step of
evaluation if it holds for the evaluation of the parts. The main result is `lockstep_evaluate`.
-/

namespace Lisplet

namespace Renaming

/-- A relation between stores that evaluation maintains under a renaming. -/
structure Carries (ρ : Renaming) (R : Store → Store → Prop) : Prop where
  /-- Names have corresponding values. -/
  lookup : ∀ {s t}, R s t → ∀ frame name,
    t.lookup (ρ.frame frame) (ρ.name name) = (s.lookup frame name).rename ρ
  /-- The frames that come next have corresponding numbers. -/
  next : ∀ {s t}, R s t → (⟨t.frames.size⟩ : FrameId) = ρ.frame ⟨s.frames.size⟩
  /-- A new frame keeps stores in correspondence. -/
  push : ∀ {s t}, R s t → ∀ (bindings : Bindings) (outer : FrameId),
    R (s.push ⟨bindings, some outer⟩).2 (t.push ⟨bindings.rename ρ, some (ρ.frame outer)⟩).2
  /-- The closures and calls that come next have corresponding identities. -/
  identity : ∀ {s t}, R s t → t.identities = ρ.identity s.identities
  /-- A new closure or call keeps stores in correspondence. -/
  newIdentity : ∀ {s t}, R s t → R s.next t.next

variable {ρ : Renaming} {R : Store → Store → Prop} {α β γ δ : Type}

/-- Two outcomes of which the second is the first after a renaming. -/
structure Corresponds (ρ : Renaming) (R : Store → Store → Prop) (f : α → β) (outcome : Outcome α)
    (renamed : Outcome β) : Prop where
  result : ρ.Matches f outcome.result renamed.result
  store : R outcome.store renamed.store
  /-- Corresponding values are printed. -/
  prints : Event.prints renamed.events = (Event.prints outcome.events).map (Value.rename ρ)
  /-- Without a change of names, the same texts are printed. -/
  handed : ρ.KeepsNames → Event.handed renamed.events = Event.handed outcome.events

/-- Two actions that start in corresponding stores run out of steps together, or have corresponding
outcomes. -/
def Lockstep (ρ : Renaming) (R : Store → Store → Prop) (f : α → β) (action : Action α)
    (renamed : Action β) : Prop :=
  ∀ s t, R s t → Option.Rel (ρ.Corresponds R f) (action s) (renamed t)

/-! ## Single actions -/

/-- A value and the renamed value are yielded in lockstep. -/
lemma lockstep_pure (f : α → β) (value : α) :
    ρ.Lockstep R f (pure value) (pure (f value)) := by
  intro s t hR
  exact .some ⟨.ok value, hR, rfl, fun _ => rfl⟩

/-- Errors that are alike arise in lockstep. -/
lemma lockstep_fail {f : α → β} {error renamed : Error} (h : ρ.Alike error renamed) :
    ρ.Lockstep R f (Action.fail error) (Action.fail renamed) := by
  intro s t hR
  exact .some ⟨.error h, hR, rfl, fun _ => rfl⟩

/-- Results that match are yielded in lockstep. -/
lemma lockstep_ofResult {f : α → β} {result : Except Error α} {renamed : Except Error β}
    (h : ρ.Matches f result renamed) :
    ρ.Lockstep R f (Action.ofResult result) (Action.ofResult renamed) := by
  intro s t hR
  exact .some ⟨h, hR, rfl, fun _ => rfl⟩

/-- The limit is met in lockstep. -/
lemma lockstep_exhausted {f : α → β} :
    ρ.Lockstep R f (Action.exhausted : Action α) Action.exhausted := by
  intro s t hR
  exact .none

/-- Names are looked up in lockstep. -/
lemma lockstep_lookup (hR : ρ.Carries R) (frame : FrameId) (name : String) :
    ρ.Lockstep R (Value.rename ρ) (Action.lookup frame name)
      (Action.lookup (ρ.frame frame) (ρ.name name)) := by
  intro s t hst
  refine .some ⟨?_, hst, rfl, fun _ => rfl⟩
  rw [hR.lookup hst frame name]
  exact .ok _

/-- Closures are made in lockstep. -/
lemma lockstep_newClosure (hR : ρ.Carries R) (params : List String) (body : Node)
    (scope : FrameId) :
    ρ.Lockstep R (Value.rename ρ) (Action.newClosure params body scope)
      (Action.newClosure (params.map ρ.name) (body.rename ρ) (ρ.frame scope)) := by
  intro s t hst
  refine .some ⟨?_, hR.newIdentity hst, rfl, fun _ => rfl⟩
  rw [hR.identity hst]
  exact .ok (Value.closure s.identities params body scope)

/-- Host procedures are called in lockstep if the host does not notice the renaming. -/
lemma lockstep_callHost (hR : ρ.Carries R) {host : Host} (hhost : ρ.Respects host)
    (callable : Callable) (arguments : List Value) :
    ρ.Lockstep R (Value.rename ρ) (callHost host callable arguments)
      (callHost host callable (arguments.map (Value.rename ρ))) := by
  intro s t hst
  refine .some ⟨?_, hR.newIdentity hst, rfl, fun _ => rfl⟩
  rw [hR.identity hst]
  exact matches_call hhost callable s.identities arguments

end Renaming

/-! ## Sequences -/

namespace Event

/-- Events in sequence print the values of the first ones and then those of the others. -/
lemma prints_append (events more : List Event) :
    prints (events ++ more) = prints events ++ prints more :=
  List.filterMap_append

/-- Printing shows one value, whatever the outlet makes of it. -/
lemma prints_print (outlet : Outlet) (value : Value) (text : String) :
    prints (outlet.print value text) = [value] := by
  cases outlet <;> rfl

end Event

namespace Renaming

variable {ρ : Renaming} {R : Store → Store → Prop} {α β γ δ : Type}

/-- Corresponding outcomes stay so if corresponding events come before them. -/
lemma Corresponds.after {f : α → β} {outcome : Outcome α} {renamed : Outcome β}
    (h : ρ.Corresponds R f outcome renamed) {events events' : List Event}
    (hprints : Event.prints events' = (Event.prints events).map (Value.rename ρ))
    (hhanded : ρ.KeepsNames → Event.handed events' = Event.handed events) :
    ρ.Corresponds R f (outcome.after events) (renamed.after events') := by
  refine ⟨h.result, h.store, ?_, ?_⟩
  · unfold Outcome.after
    rw [Event.prints_append, Event.prints_append, List.map_append, hprints, h.prints]
  · intro hkeeps
    unfold Outcome.after
    rw [Event.handed_append, Event.handed_append, hhanded hkeeps, h.handed hkeeps]

/-- Runs that end together stay so if corresponding events come before them. -/
lemma rel_after {f : α → β} {outcome : Option (Outcome α)} {renamed : Option (Outcome β)}
    (h : Option.Rel (ρ.Corresponds R f) outcome renamed) {events events' : List Event}
    (hprints : Event.prints events' = (Event.prints events).map (Value.rename ρ))
    (hhanded : ρ.KeepsNames → Event.handed events' = Event.handed events) :
    Option.Rel (ρ.Corresponds R f) (outcome.map (Outcome.after events))
      (renamed.map (Outcome.after events')) := by
  cases h with
  | none => exact .none
  | some h => exact .some (h.after hprints hhanded)

/-- Sequences go in lockstep part by part. -/
lemma Lockstep.bind {f : α → β} {g : γ → δ} {action : Action α} {renamed : Action β}
    (h : ρ.Lockstep R f action renamed) {next : α → Action γ} {next' : β → Action δ}
    (hnext : ∀ value, ρ.Lockstep R g (next value) (next' (f value))) :
    ρ.Lockstep R g (action >>= next) (renamed >>= next') := by
  intro s t hst
  have hfirst := h s t hst
  rcases hs : action s with _ | ⟨result, s', events⟩ <;>
    rcases ht : renamed t with _ | ⟨result', t', events'⟩ <;>
    rw [hs, ht] at hfirst
  · rw [Action.bind_eq_of_none hs, Action.bind_eq_of_none ht]
    exact .none
  · cases hfirst
  · cases hfirst
  · obtain ⟨hresult, hstore, hprints, hhanded⟩ : ρ.Corresponds R f ⟨result, s', events⟩
      ⟨result', t', events'⟩ := by
      cases hfirst with
      | some hcorresponds => exact hcorresponds
    cases hresult with
    | error halike =>
      rw [Action.bind_eq_of_error hs, Action.bind_eq_of_error ht]
      exact .some ⟨.error halike, hstore, hprints, hhanded⟩
    | ok value =>
      rw [Action.bind_eq_of_ok hs, Action.bind_eq_of_ok ht]
      exact rel_after (hnext value s' t' hstore) hprints hhanded

/-- Debug records on both sides do not count. -/
lemma Lockstep.trace_bind {f : α → β} {next : Unit → Action α} {next' : Unit → Action β}
    (h : ρ.Lockstep R f (next ()) (next' ())) (channel : Channel) (message message' : String) :
    ρ.Lockstep R f (Action.trace channel message >>= next)
      (Action.trace channel message' >>= next') := by
  have htrace : ρ.Lockstep R (id : Unit → Unit) (Action.trace channel message)
      (Action.trace channel message') := by
    intro s t hst
    exact .some ⟨.ok (), hst, rfl, fun _ => rfl⟩
  exact htrace.bind fun _ => h

/-- A debug record on one side only does not count. -/
lemma Lockstep.trace_bind_right {f : α → β} {action : Action α} {next' : Unit → Action β}
    (h : ρ.Lockstep R f action (next' ())) (channel : Channel) (message : String) :
    ρ.Lockstep R f action (Action.trace channel message >>= next') := by
  intro s t hst
  have hafter : Option.Rel (ρ.Corresponds R f) ((action s).map (Outcome.after []))
      ((next' () t).map (Outcome.after [.logged ⟨channel, .debug, message⟩])) :=
    rel_after (h s t hst) rfl fun _ => rfl
  have hsame : (action s).map (Outcome.after []) = action s := by
    cases action s <;> rfl
  rwa [hsame] at hafter

/-! ## New frames -/

/-- The names of renamed bindings are the renamed names. -/
lemma names_rename (bindings : Bindings) :
    (bindings.rename ρ).names = bindings.names.map ρ.name := by
  unfold Bindings.rename Bindings.names
  rw [List.map_map, List.map_map]
  rfl

/-- Renaming makes no two names one. -/
lemma nodup_names_rename_iff {bindings : Bindings} :
    (bindings.rename ρ).names.Nodup ↔ bindings.names.Nodup := by
  rw [names_rename, List.nodup_map_iff ρ.name_injective]

/-- The first repetition stays where it is. -/
lemma repeatsAt_rename {bindings kept : Bindings} {name : String}
    (h : bindings.RepeatsAt kept name) :
    (bindings.rename ρ).RepeatsAt (kept.rename ρ) (ρ.name name) := by
  obtain ⟨value, rest, rfl, hnodup, hmem⟩ := h
  refine ⟨value.rename ρ, Bindings.rename ρ rest, ?_, nodup_names_rename_iff.2 hnodup, ?_⟩
  · exact List.map_append
  · rw [names_rename]
    exact List.mem_map_of_mem hmem

/-- Frames with corresponding bindings are made in lockstep. -/
lemma lockstep_enter (hR : ρ.Carries R) {f : α → β} (outer : FrameId) (bindings : Bindings)
    {next : FrameId → Action α} {next' : FrameId → Action β}
    (hnext : ∀ frame, ρ.Lockstep R f (next frame) (next' (ρ.frame frame))) :
    ρ.Lockstep R f
      (do let frame ← Action.child outer; Action.bindAll frame bindings; next frame)
      (do let frame ← Action.child (ρ.frame outer); Action.bindAll frame (bindings.rename ρ)
          next' frame) := by
  intro s t hst
  rcases bindings.nodup_or_repeatsAt with hnodup | ⟨kept, name, hrepeats⟩
  · rw [Action.enter_eq_of_nodup hnodup,
      Action.enter_eq_of_nodup (nodup_names_rename_iff.2 hnodup)]
    have hframe : (t.push ⟨bindings.rename ρ, some (ρ.frame outer)⟩).1 =
        ρ.frame (s.push ⟨bindings, some outer⟩).1 := hR.next hst
    rw [hframe]
    exact hnext _ _ _ (hR.push hst bindings outer)
  · rw [Action.enter_eq_of_repeatsAt hrepeats,
      Action.enter_eq_of_repeatsAt (repeatsAt_rename hrepeats)]
    exact .some ⟨.error (alike_duplicateName name), hR.push hst kept outer, rfl, fun _ => rfl⟩

/-! ## Rows, bindings and applications -/

/-- Two evaluators that go in lockstep on all trees. -/
def LockstepEval (ρ : Renaming) (R : Store → Store → Prop) (eval renamed : Evaluator) : Prop :=
  ∀ node frame, ρ.Lockstep R (Value.rename ρ) (eval node frame)
    (renamed (node.rename ρ) (ρ.frame frame))

namespace LockstepEval

variable {eval eval' : Evaluator} {context context' : Context} {frame : FrameId}

/-- Rows of trees are evaluated in lockstep. -/
lemma evalAll (heval : ρ.LockstepEval R eval eval') (frame : FrameId) (nodes : List Node) :
    ρ.Lockstep R (List.map (Value.rename ρ)) (evalAll eval frame nodes)
      (Lisplet.evalAll eval' (ρ.frame frame) (nodes.map (Node.rename ρ))) := by
  induction nodes with
  | nil => exact lockstep_pure _ []
  | cons node rest ih =>
    refine (heval node frame).bind fun value => ?_
    exact ih.bind fun values => lockstep_pure _ (value :: values)

/-- New bindings are evaluated in lockstep. -/
lemma initialValues (heval : ρ.LockstepEval R eval eval') (frame : FrameId)
    (bindings : List Node) :
    ρ.Lockstep R (Bindings.rename ρ) (SpecialForm.initialValues eval frame bindings)
      (SpecialForm.initialValues eval' (ρ.frame frame) (bindings.map (Node.rename ρ))) := by
  induction bindings with
  | nil => exact lockstep_pure _ []
  | cons node rest ih =>
    by_cases hnode : ∃ name init, node = .form [.identifier name, init]
    · obtain ⟨name, init, rfl⟩ := hnode
      refine (heval init frame).bind fun value => ?_
      exact ih.bind fun bindings => lockstep_pure (Bindings.rename ρ) ((name, value) :: bindings)
    · have hrenamed : ∀ name init, node.rename ρ ≠ .form [.identifier name, init] :=
        fun name init heq => hnode (Node.exists_of_rename_eq_pair heq)
      have hnode : ∀ name init, node ≠ .form [.identifier name, init] :=
        fun name init heq => hnode ⟨name, init, heq⟩
      rw [List.map_cons, SpecialForm.initialValues_of_malformed rest hnode,
        SpecialForm.initialValues_of_malformed _ hrenamed]
      exact lockstep_fail (alike_naming_node node fun _ _ => rfl)

/-- Closures are applied in lockstep. -/
lemma applyClosure (hR : ρ.Carries R) (heval : ρ.LockstepEval R eval eval') (params : List String)
    (body : Node) (scope : FrameId) (arguments : List Value) :
    ρ.Lockstep R (Value.rename ρ) (applyClosure eval params body scope arguments)
      (Lisplet.applyClosure eval' (params.map ρ.name) (body.rename ρ) (ρ.frame scope)
        (arguments.map (Value.rename ρ))) := by
  have hzip : (params.map ρ.name).zip (arguments.map (Value.rename ρ)) =
      Bindings.rename ρ (params.zip arguments) := by
    rw [List.zip_map]
    rfl
  unfold Lisplet.applyClosure
  rw [List.length_map, List.length_map, hzip]
  split
  · refine lockstep_enter hR scope (params.zip arguments) fun frame => ?_
    apply Lockstep.trace_bind
    exact heval body frame
  · apply lockstep_fail
    apply alike_naming
    · rw [Option.isSome_map, Option.isSome_map, Node.isSome_render_rename]
    · intro hkeeps
      rw [Node.render_rename hkeeps, hkeeps.map]
    · intro first second
      rfl

/-- Values are applied in lockstep. -/
lemma apply (hR : ρ.Carries R) (hhost : ρ.Respects context.host)
    (heq : context'.host = context.host)
    (heval : ρ.LockstepEval R eval eval') (head : Value) (arguments : List Value) :
    ρ.Lockstep R (Value.rename ρ) (apply context eval head arguments)
      (Lisplet.apply context' eval' (head.rename ρ) (arguments.map (Value.rename ρ))) := by
  by_cases hhead : head.IsProcedure
  · cases head with
    | closure identity params body scope => exact heval.applyClosure hR params body scope arguments
    | host callable =>
      change ρ.Lockstep R _ (callHost context.host callable arguments)
        (callHost context'.host callable (arguments.map (Value.rename ρ)))
      rw [heq]
      exact lockstep_callHost hR hhost callable arguments
    | _ => exact hhead.elim
  · have hrenamed : ¬ (head.rename ρ).IsProcedure := by
      cases head with
      | closure | host => exact absurd trivial hhead
      | _ => exact id
    cases arguments with
    | nil =>
      rw [apply_nil hhead, List.map_nil, apply_nil hrenamed]
      exact lockstep_pure _ head
    | cons argument more =>
      rw [apply_cons hhead, List.map_cons, apply_cons hrenamed]
      exact lockstep_fail (alike_notApplicable head (argument :: more))

/-! ## Special forms -/

/-- Operands that have to be lists are evaluated in lockstep. -/
lemma listOperand (heval : ρ.LockstepEval R eval eval') (form : SpecialForm) (operand : Node)
    (frame : FrameId) :
    ρ.Lockstep R (List.map (Value.rename ρ)) (form.listOperand eval operand frame)
      (form.listOperand eval' (operand.rename ρ) (ρ.frame frame)) := by
  refine (heval operand frame).bind fun value => ?_
  cases value with
  | list items =>
    rw [Value.rename_list]
    exact lockstep_pure _ items
  | _ => exact lockstep_fail (alike_naming_value _ fun _ _ => rfl)

/-- Closures are made in lockstep from renamed parameters and bodies. -/
lemma lambda (hR : ρ.Carries R) (params body : Node) (frame : FrameId) :
    ρ.Lockstep R (Value.rename ρ) (SpecialForm.evalLambda [params, body] frame)
      (SpecialForm.evalLambda [params.rename ρ, body.rename ρ] (ρ.frame frame)) := by
  cases params with
  | form params =>
    rw [Node.rename_form]
    rcases SpecialForm.parameters_cases params with
      ⟨names, rfl⟩ | ⟨names, other, more, rfl, hother⟩
    · have hmap : (names.map Node.identifier).map (Node.rename ρ) =
          (names.map ρ.name).map Node.identifier := by
        rw [List.map_map, List.map_map]
        rfl
      have hnames : ρ.Matches (List.map ρ.name)
          (SpecialForm.parameterNames (names.map .identifier))
          (SpecialForm.parameterNames ((names.map Node.identifier).map (Node.rename ρ))) := by
        rw [hmap, SpecialForm.parameterNames_map, SpecialForm.parameterNames_map]
        exact .ok names
      exact (lockstep_ofResult hnames).bind fun names => lockstep_newClosure hR names body frame
    · have hmap : (names.map Node.identifier ++ other :: more).map (Node.rename ρ) =
          (names.map ρ.name).map Node.identifier ++
            other.rename ρ :: more.map (Node.rename ρ) := by
        rw [List.map_append, List.map_map, List.map_map]
        rfl
      have hrenamed : ∀ name, other.rename ρ ≠ .identifier name := by
        intro name hname
        obtain ⟨name, rfl⟩ := Node.exists_of_rename_eq_identifier hname
        exact hother name rfl
      have hnames : ρ.Matches (List.map ρ.name)
          (SpecialForm.parameterNames (names.map .identifier ++ other :: more))
          (SpecialForm.parameterNames
            ((names.map Node.identifier ++ other :: more).map (Node.rename ρ))) := by
        rw [hmap, SpecialForm.parameterNames_map_append names more hother,
          SpecialForm.parameterNames_map_append _ _ hrenamed]
        exact .error (alike_naming_node other fun _ _ => rfl)
      exact (lockstep_ofResult hnames).bind fun names => lockstep_newClosure hR names body frame
  | _ => exact lockstep_fail (alike_naming_node _ fun _ _ => rfl)

/-- Bodies are evaluated with new bindings in lockstep. -/
lemma letIn (hR : ρ.Carries R) (heval : ρ.LockstepEval R eval eval') (bindings body : Node)
    (frame : FrameId) :
    ρ.Lockstep R (Value.rename ρ) (SpecialForm.evalLet eval [bindings, body] frame)
      (SpecialForm.evalLet eval' [bindings.rename ρ, body.rename ρ] (ρ.frame frame)) := by
  cases bindings with
  | form bindings =>
    rw [Node.rename_form]
    refine (heval.initialValues frame bindings).bind fun initial => ?_
    exact lockstep_enter hR frame initial fun inner => heval body inner
  | _ => exact lockstep_fail (alike_naming_node _ fun _ _ => rfl)

/-- The outlets may differ, since they have no part in what is printed. -/
lemma print (heval : ρ.LockstepEval R eval eval') (operand : Node) (frame : FrameId) :
    ρ.Lockstep R (Value.rename ρ) (SpecialForm.evalPrint context eval [operand] frame)
      (SpecialForm.evalPrint context' eval' [operand.rename ρ] (ρ.frame frame)) := by
  refine (heval operand frame).bind fun value => ?_
  have hsome : (value.rename ρ).display.isSome = value.display.isSome :=
    Value.isSome_render_rename .surface value
  cases htext : value.display with
  | none =>
    have hnone : (value.rename ρ).display = none := by simpa [htext] using hsome
    rw [hnone]
    exact lockstep_fail (.refl _)
  | some text =>
    rw [htext] at hsome
    obtain ⟨text', htext'⟩ := Option.isSome_iff_exists.1 hsome
    rw [htext']
    have hemit : ρ.Lockstep R (id : Unit → Unit) (Action.emit (context.outlet.print value text))
        (Action.emit (context'.outlet.print (value.rename ρ) text')) := by
      intro s t hst
      refine .some ⟨.ok (), hst, ?_, ?_⟩
      · rw [Event.prints_print, Event.prints_print, List.map_singleton]
      · intro hkeeps
        rw [Value.display, Value.render_rename hkeeps] at htext'
        rw [Event.handed_print, Event.handed_print, Option.some.inj (htext'.symm.trans htext)]
    exact hemit.bind fun _ => lockstep_pure _ value

/-- Data is evaluated as code in lockstep. -/
lemma reenter (heval : ρ.LockstepEval R eval eval') (operand : Node) (frame : FrameId) :
    ρ.Lockstep R (Value.rename ρ) (SpecialForm.evalEval eval [operand] frame)
      (SpecialForm.evalEval eval' [operand.rename ρ] (ρ.frame frame)) := by
  refine (heval operand frame).bind fun value => ?_
  cases value with
  | quoted code =>
    apply Lockstep.trace_bind
    exact heval code frame
  | list items =>
    rw [Value.rename_list]
    apply Lockstep.trace_bind
    rw [Node.ofItems_rename]
    exact heval (Node.ofItems items) frame
  | _ => exact lockstep_pure _ _

/-- Special forms are evaluated in lockstep if their operands are. -/
lemma run (hR : ρ.Carries R) (heval : ρ.LockstepEval R eval eval') (form : SpecialForm)
    (operands : List Node) (frame : FrameId) :
    ρ.Lockstep R (Value.rename ρ) (form.run context eval operands frame)
      (form.run context' eval' (operands.map (Node.rename ρ)) (ρ.frame frame)) := by
  by_cases htakes : form.Takes operands.length
  · cases form with
    | list =>
      refine (heval.evalAll frame operands).bind fun values => ?_
      rw [← Value.rename_list]
      exact lockstep_pure _ (Value.list values)
    | first =>
      obtain ⟨operand, rfl⟩ := List.length_eq_one_iff.1 htakes
      refine (heval.listOperand .first operand frame).bind fun items => ?_
      cases items with
      | nil => exact lockstep_fail (.refl _)
      | cons item items => exact lockstep_pure _ item
    | rest =>
      obtain ⟨operand, rfl⟩ := List.length_eq_one_iff.1 htakes
      refine (heval.listOperand .rest operand frame).bind fun items => ?_
      rw [← List.map_drop, ← Value.rename_list]
      exact lockstep_pure _ (Value.list (items.drop 1))
    | print =>
      obtain ⟨operand, rfl⟩ := List.length_eq_one_iff.1 htakes
      exact heval.print operand frame
    | lambda =>
      obtain ⟨params, body, rfl⟩ := List.length_eq_two.1 htakes
      exact lambda hR params body frame
    | letIn =>
      obtain ⟨bindings, body, rfl⟩ := List.length_eq_two.1 htakes
      exact heval.letIn hR bindings body frame
    | quote =>
      obtain ⟨operand, rfl⟩ := List.length_eq_one_iff.1 htakes
      exact lockstep_pure _ (Value.quoted operand)
    | eval =>
      obtain ⟨operand, rfl⟩ := List.length_eq_one_iff.1 htakes
      exact heval.reenter operand frame
    | choice =>
      obtain ⟨condition, consequent, alternative, rfl⟩ := List.length_eq_three.1 htakes
      refine (heval condition frame).bind fun value => ?_
      rw [Value.isFalse_rename]
      split
      · exact heval alternative frame
      · exact heval consequent frame
  · have hrenamed : ¬ form.Takes (operands.map (Node.rename ρ)).length := by
      rwa [List.length_map]
    rw [SpecialForm.run_of_not_takes htakes, SpecialForm.run_of_not_takes hrenamed]
    exact lockstep_fail (.refl _)

/-! ## Steps and evaluations -/

/-- One step goes in lockstep if the evaluation of the parts does. -/
lemma step (hR : ρ.Carries R) (hhost : ρ.Respects context.host)
    (heq : context'.host = context.host) (heval : ρ.LockstepEval R eval eval') :
    ρ.LockstepEval R (evalStep context eval) (evalStep context' eval') := by
  intro node frame
  cases node with
  | identifier name => exact lockstep_lookup hR frame name
  | number n => exact lockstep_pure _ (Value.number n)
  | string text => exact lockstep_pure _ (Value.text text)
  | constant value => exact lockstep_pure _ value
  | quote inner => exact lockstep_pure _ (Value.quoted inner)
  | foreign value => exact lockstep_fail (alike_naming_value value fun _ _ => rfl)
  | form children =>
    rw [Node.rename_form]
    cases children with
    | nil => exact lockstep_pure _ Value.empty
    | cons head operands =>
      rw [List.map_cons]
      cases hform : head.specialForm? with
      | some form =>
        obtain rfl := Node.specialForm?_eq_some_iff.1 hform
        have hname : (Node.identifier form.name).rename ρ = .identifier form.name :=
          congrArg Node.identifier (ρ.name_special form)
        rw [hname]
        change ρ.Lockstep R (Value.rename ρ) (evalStep context eval (.special form operands) frame)
          (evalStep context' eval' (.special form (operands.map (Node.rename ρ))) (ρ.frame frame))
        rw [evalStep_special, evalStep_special]
        apply Lockstep.trace_bind
        exact heval.run hR form operands frame
      | none =>
        have hhead := Node.specialForm?_eq_none_iff.1 hform
        have hrenamed : (head.rename ρ).IsOperator := by
          rwa [← Node.specialForm?_eq_none_iff, Node.specialForm?_rename]
        rw [evalStep_of_isOperator hhead, evalStep_of_isOperator hrenamed]
        refine (heval head frame).bind fun function => ?_
        refine (heval.evalAll frame operands).bind fun arguments => ?_
        exact heval.apply hR hhost heq function arguments

end LockstepEval

/-- Evaluation does not notice a renaming that the host does not notice: from corresponding stores,
corresponding trees are evaluated in lockstep. -/
theorem lockstep_evaluate {context context' : Context} (hR : ρ.Carries R)
    (hhost : ρ.Respects context.host) (heq : context'.host = context.host) (fuel : Nat) :
    ρ.LockstepEval R (evaluate context fuel) (evaluate context' fuel) := by
  induction fuel with
  | zero =>
    intro node frame
    exact lockstep_exhausted
  | succ fuel ih => exact ih.step hR hhost heq

end Renaming

end Lisplet
