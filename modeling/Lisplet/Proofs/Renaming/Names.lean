import Lisplet.Proofs.Machine.Agreement
import Lisplet.Proofs.Machine.Discipline
import Lisplet.Proofs.Session.Mounting
import Mathlib.Logic.Equiv.Basic

/-!
# Names are interchangeable

A permutation of names that leaves the names of the special forms alone changes nothing but names:
if it is applied to a tree and to all frames, in their keys as well as in the code that they hold,
the evaluation ends if it did before, with the value, the prints and the store that the permutation
makes of the earlier ones.

Under a host that respects the renaming the two evaluations go in lockstep
(`rel_evaluate_rename`). But the procedures of a host could look at the names in quoted code, so
there must be none but the primitives. Then the rest of the host does not matter at all, since it is
never called (`exists_evaluate_of_primitives`), and the evaluations can be compared under a host
that only fails.
-/

namespace Lisplet

/-! ## Programs that use primitives only -/

/-- The only procedures of the host are the primitives. -/
def Criterion.primitives : Criterion :=
  { any with callable := fun callable => ∃ primitive, callable = .primitive primitive }

namespace Machine

/-- Nothing but primitives is ever called. -/
def Discipline.primitives (host : Host) : Discipline host where
  allows _ := .primitives
  error _ := True
  mono _ := ⟨id, id, id, id, id, id⟩
  scope_of_lt _ := trivial
  identity_any _ _ := trivial
  call := by
    rintro n callable arguments call ⟨primitive, rfl⟩ -
    refine ⟨fun value hvalue => ?_, fun _ _ => trivial⟩
    obtain ⟨n, rfl⟩ := Primitive.exists_number_of_call hvalue
    trivial
  error_of_program _ := trivial
  error_illegible _ := trivial
  error_foreign _ := trivial

section

variable {host host' : Host} {memory : Memory}

/-- Applying a value asks the host for nothing if only primitives may occur. -/
lemma apply_eq_of_primitives {function : Value} (h : function.Meets .primitives)
    (arguments : List Value) :
    memory.apply host function arguments = memory.apply host' function arguments := by
  cases function with
  | host callable =>
    obtain ⟨primitive, rfl⟩ := h
    rfl
  | _ => rfl

/-- Rows of values ask the host for nothing if only primitives may occur. -/
lemma gather_eq_of_primitives {purpose : Purpose} (h : purpose.Meets .primitives)
    (reversed : List Value) (frame : FrameId) (nodes : List Node) :
    memory.gather host purpose reversed frame nodes =
      memory.gather host' purpose reversed frame nodes := by
  cases nodes with
  | cons node rest => rfl
  | nil =>
    cases purpose with
    | list => rfl
    | arguments function => exact apply_eq_of_primitives h reversed.reverse

/-- No procedure of the host is called before a value is there. -/
lemma start_eq (node : Node) (frame : FrameId) :
    memory.start host node frame = memory.start host' node frame := by
  have hspecial : ∀ form operands, memory.special host form operands frame =
      memory.special host' form operands frame := by
    intro form operands
    cases form with
    | list =>
      have hpurpose : Purpose.list.Meets .primitives := trivial
      have hgather : memory.gather host .list [] frame operands =
          memory.gather host' .list [] frame operands :=
        gather_eq_of_primitives hpurpose [] frame operands
      exact hgather
    | _ => rfl
  cases node with
  | form children =>
    cases children with
    | nil => rfl
    | cons head operands => simp only [Memory.start, hspecial]
  | _ => rfl

/-- Tasks ask the host for nothing if only primitives may occur. -/
lemma resume_eq_of_primitives {value : Value} {task : Task} (hvalue : value.Meets .primitives)
    (htask : task.Meets .primitives) :
    memory.resume host value task = memory.resume host' value task := by
  cases task with
  | operator operands frame =>
    have hpurpose : (Purpose.arguments value).Meets .primitives := hvalue
    exact gather_eq_of_primitives hpurpose [] frame operands
  | row purpose reversed rest frame =>
    exact gather_eq_of_primitives htask.1 (value :: reversed) frame rest
  | _ => rfl

/-- Steps ask the host for nothing if only primitives may occur. -/
lemma step_eq_of_primitives (host' : Host) {state : State}
    (h : (Discipline.primitives host).Keeps state) : step host state = step host' state := by
  obtain ⟨focus, memory⟩ := state
  obtain ⟨hmemory, hfocus⟩ := h
  cases focus with
  | evaluate node frame => exact congrArg some (start_eq node frame)
  | yield value =>
    obtain ⟨tasks, store, printed⟩ := memory
    cases tasks with
    | nil => rfl
    | cons task tasks =>
      have htask : task.Meets .primitives := hmemory.tasks task (List.mem_cons_self ..)
      exact congrArg some (resume_eq_of_primitives hfocus htask)
  | bind frame bindings body => cases bindings <;> rfl
  | failed failure => rfl

/-- The procedures of the host make no difference to a run that uses primitives only. -/
lemma run_eq_of_primitives (host' : Host) {state : State}
    (h : (Discipline.primitives host).Keeps state) (steps : Nat) :
    run host steps state = run host' steps state := by
  induction steps generalizing state with
  | zero => rfl
  | succ steps ih =>
    rw [run, run, ← step_eq_of_primitives host' h]
    exact Option.bind_congr fun next hnext => ih (h.step hnext)

end

end Machine

section

variable {node : Node} {frame : FrameId} {store : Store}

/-- The result, the store and the prints of an evaluation do not depend on its limit. -/
lemma evaluate_unique {context : Context} {fuel fuel' : Nat} {outcome outcome' : Outcome Value}
    (h : evaluate context fuel node frame store = some outcome)
    (h' : evaluate context fuel' node frame store = some outcome') :
    outcome.result = outcome'.result ∧ outcome.store = outcome'.store ∧
      Event.printings outcome.events = Event.printings outcome'.events := by
  obtain ⟨steps, hrun⟩ := Machine.reaches_of_evaluate h
  obtain ⟨steps', hrun'⟩ := Machine.reaches_of_evaluate h'
  exact Machine.final_injective
    (Machine.run_unique hrun (Machine.step_final _ _ _) hrun' (Machine.step_final _ _ _))

/-- If only primitives are used, an evaluation that ends does so under any host and outlet. -/
lemma exists_evaluate_of_primitives {context : Context} (context' : Context)
    (hnode : node.Meets .primitives) (hstore : store.Meets fun _ => .primitives) {fuel : Nat}
    {outcome : Outcome Value} (h : evaluate context fuel node frame store = some outcome) :
    ∃ fuel' outcome', evaluate context' fuel' node frame store = some outcome' ∧
      outcome.result = outcome'.result ∧ outcome.store = outcome'.store ∧
      Event.printings outcome.events = Event.printings outcome'.events := by
  have hkeeps : (Machine.Discipline.primitives context.host).Keeps
      (Machine.evaluating node frame store) :=
    Machine.Discipline.keeps_evaluating hstore hnode trivial
  obtain ⟨steps, hrun⟩ := Machine.reaches_of_evaluate h
  rw [Machine.run_eq_of_primitives context'.host hkeeps steps] at hrun
  obtain ⟨outcome', houtcome', hfinal⟩ :=
    Machine.exists_evaluate_of_stops hrun (Machine.step_final _ _ _)
  exact ⟨steps + 1, outcome', houtcome', Machine.final_injective hfinal⟩

end

/-! ## Permutations of names -/

/-- A permutation of names that leaves the special forms alone. -/
def Renaming.ofPerm (p : Equiv.Perm String) (h : ∀ form : SpecialForm, p form.name = form.name) :
    Renaming where
  name := p
  frame := id
  identity := id
  name_injective := p.injective
  frame_injective := Function.injective_id
  identity_injective := Function.injective_id
  name_special := h

/-- A store after a change of names in all of its frames. -/
def Store.rename (ρ : Renaming) (store : Store) : Store :=
  { store with frames := store.frames.map (Frame.rename ρ) }

/-- A new name has the new value, if frames keep their numbers. -/
lemma Store.lookup_rename {ρ : Renaming} (hkeeps : ∀ frame, ρ.frame frame = frame)
    {store renamed : Store} (h : renamed.frames = store.frames.map (Frame.rename ρ))
    (frame : FrameId) (name : String) :
    renamed.lookup frame (ρ.name name) = (store.lookup frame name).rename ρ := by
  refine Store.lookup_eq_map (by rfl) (fun index => ?_) frame
  rw [h, Array.getElem?_map]
  cases store.frames[index]? with
  | none => exact .none
  | some found =>
    refine .some ⟨?_, found.bindings.lookup_rename ρ name⟩
    rw [Frame.rename, funext hkeeps]
    exact Option.map_id'

section

variable {p : Equiv.Perm String} {h : ∀ form : SpecialForm, p form.name = form.name}

/-- Changing names makes no procedures. -/
lemma keeps_primitives {ρ : Renaming} : ρ.Keeps .primitives :=
  ⟨id, id, id, id⟩

/-- The renamed store has no procedures but primitives either. -/
lemma Store.Meets.rename_primitives {store : Store} (hstore : store.Meets fun _ => .primitives) :
    (store.rename (.ofPerm p h)).Meets fun _ => .primitives := by
  intro index found hfound
  rw [Store.rename, Array.getElem?_map] at hfound
  obtain ⟨old, hold, rfl⟩ := Option.map_eq_some_iff.1 hfound
  refine ⟨fun _ _ => trivial, fun pair hpair => ?_⟩
  obtain ⟨binding, hbinding, rfl⟩ := List.mem_map.1 hpair
  exact ((hstore index old hold).2 binding hbinding).rename keeps_primitives

/-- Evaluation keeps a store and its renamed copy in step. -/
lemma Renaming.carries_ofPerm :
    (Renaming.ofPerm p h).Carries fun store renamed => renamed = store.rename (.ofPerm p h) where
  lookup := by
    rintro store _ rfl frame name
    exact Store.lookup_rename (fun _ => rfl) rfl frame name
  next := by
    rintro store _ rfl
    exact congrArg FrameId.mk Array.size_map
  push := by
    rintro store _ rfl bindings outer
    have hframes : (store.frames.push ⟨bindings, some outer⟩).map (Frame.rename (.ofPerm p h)) =
        (store.rename (.ofPerm p h)).frames.push ⟨bindings.rename (.ofPerm p h), some outer⟩ := by
      rw [Array.map_push]
      rfl
    exact congrArg (Store.mk · store.identities) hframes.symm
  identity := by
    rintro store _ rfl
    rfl
  newIdentity := by
    rintro store _ rfl
    rfl

end

/-- The host whose procedures only fail. -/
def Host.failing : Host :=
  fun _ _ _ => .error (.hostFailure "host failure")

/-- A host whose procedures only fail respects every renaming. -/
lemma Renaming.respects_failing (ρ : Renaming) : ρ.Respects Host.failing :=
  fun _ _ _ => .error (.refl _)

/-- The second outcome is the first one after a renaming of names. -/
structure Outcome.RenamesTo (ρ : Renaming) (outcome renamed : Outcome Value) : Prop where
  ok : ∀ value, outcome.result = .ok value → renamed.result = .ok (value.rename ρ)
  /-- The message of an error may mention names, but its kind stays. -/
  error : ∀ error, outcome.result = .error error →
    ∃ error', renamed.result = .error error' ∧ error'.kind = error.kind
  prints : Event.prints renamed.events = (Event.prints outcome.events).map (Value.rename ρ)
  store : renamed.store = outcome.store.rename ρ

/-- An outcome corresponds to the renamed one. -/
lemma Renaming.Corresponds.renamesTo {ρ : Renaming} {outcome renamed : Outcome Value}
    (h : ρ.Corresponds (fun store renamed => renamed = store.rename ρ) (Value.rename ρ) outcome
      renamed) : outcome.RenamesTo ρ renamed := by
  obtain ⟨result, store, events⟩ := outcome
  obtain ⟨result', store', events'⟩ := renamed
  obtain ⟨hresult, hstore, hprints, -⟩ := h
  cases hresult with
  | ok value =>
    refine ⟨fun other hother => ?_, fun error herror => ?_, hprints, hstore⟩
    · obtain rfl := Except.ok.inj hother
      rfl
    · cases herror
  | error halike =>
    refine ⟨fun other hother => ?_, fun error herror => ?_, hprints, hstore⟩
    · cases hother
    · obtain rfl := Except.error.inj herror
      exact ⟨_, rfl, halike.kind⟩

/-- Only the result, the store and the prints matter. -/
lemma Outcome.RenamesTo.congr {ρ : Renaming} {outcome outcome' renamed renamed' : Outcome Value}
    (h : outcome.RenamesTo ρ renamed)
    (hsame : outcome'.result = outcome.result ∧ outcome'.store = outcome.store ∧
      Event.printings outcome'.events = Event.printings outcome.events)
    (hsame' : renamed.result = renamed'.result ∧ renamed.store = renamed'.store ∧
      Event.printings renamed.events = Event.printings renamed'.events) :
    outcome'.RenamesTo ρ renamed' := by
  obtain ⟨hresult, hstore, hprinted⟩ := hsame
  obtain ⟨hresult', hstore', hprinted'⟩ := hsame'
  have hprints := h.prints
  rw [Event.prints_eq_map_printings, Event.prints_eq_map_printings, hprinted', ← hprinted,
    ← Event.prints_eq_map_printings, ← Event.prints_eq_map_printings] at hprints
  refine ⟨?_, ?_, hprints, ?_⟩
  · rw [hresult, ← hresult']
    exact h.ok
  · rw [hresult, ← hresult']
    exact h.error
  · rw [hstore, ← hstore']
    exact h.store

section

variable {p : Equiv.Perm String} {h : ∀ form : SpecialForm, p form.name = form.name}
  {context : Context} {node : Node} {frame : FrameId} {store : Store}

/-- Under a host that respects the renaming, a tree and its renamed copy are evaluated in
lockstep. -/
lemma rel_evaluate_rename (context : Context)
    (hhost : (Renaming.ofPerm p h).Respects context.host) (fuel : Nat) (node : Node)
    (frame : FrameId) (store : Store) :
    Option.Rel ((Renaming.ofPerm p h).Corresponds
        (fun store renamed => renamed = store.rename (.ofPerm p h)) (Value.rename (.ofPerm p h)))
      (evaluate context fuel node frame store)
      (evaluate context fuel (node.rename (.ofPerm p h)) frame (store.rename (.ofPerm p h))) := by
  have hlockstep : (Renaming.ofPerm p h).LockstepEval
      (fun store renamed => renamed = store.rename (.ofPerm p h))
      (evaluate context fuel) (evaluate context fuel) :=
    Renaming.lockstep_evaluate Renaming.carries_ofPerm hhost rfl fuel
  exact hlockstep node frame store _ rfl

/-- If the evaluation of a tree ends, so does that of its renamed copy, with the renamed outcome. -/
lemma exists_evaluate_rename (hnode : node.Meets .primitives)
    (hstore : store.Meets fun _ => .primitives) {fuel : Nat} {outcome : Outcome Value}
    (houtcome : evaluate context fuel node frame store = some outcome) :
    ∃ fuel' renamed, evaluate context fuel' (node.rename (.ofPerm p h)) frame
        (store.rename (.ofPerm p h)) = some renamed ∧
      outcome.RenamesTo (.ofPerm p h) renamed := by
  obtain ⟨limit, middle, hmiddle, hsame⟩ :=
    exists_evaluate_of_primitives ⟨context.outlet, Host.failing⟩ hnode hstore houtcome
  have hrel := rel_evaluate_rename ⟨context.outlet, Host.failing⟩
    (Renaming.respects_failing (.ofPerm p h)) limit node frame store
  obtain ⟨middle', hmiddle', hcorresponds⟩ := exists_right_of_rel hrel hmiddle
  obtain ⟨fuel', renamed, hrenamed, hsame'⟩ := exists_evaluate_of_primitives context
    (hnode.rename keeps_primitives) hstore.rename_primitives hmiddle'
  exact ⟨fuel', renamed, hrenamed, hcorresponds.renamesTo.congr hsame hsame'⟩

/-- If the evaluation of a renamed tree ends, so does that of the tree itself. -/
lemma exists_evaluate_of_rename (hnode : node.Meets .primitives)
    (hstore : store.Meets fun _ => .primitives) {fuel : Nat} {renamed : Outcome Value}
    (hrenamed : evaluate context fuel (node.rename (.ofPerm p h)) frame
      (store.rename (.ofPerm p h)) = some renamed) :
    ∃ fuel' outcome, evaluate context fuel' node frame store = some outcome := by
  obtain ⟨limit, middle', hmiddle', -⟩ :=
    exists_evaluate_of_primitives ⟨context.outlet, Host.failing⟩ (hnode.rename keeps_primitives)
      hstore.rename_primitives hrenamed
  have hrel := rel_evaluate_rename ⟨context.outlet, Host.failing⟩
    (Renaming.respects_failing (.ofPerm p h)) limit node frame store
  obtain ⟨middle, hmiddle, -⟩ := exists_left_of_rel hrel hmiddle'
  obtain ⟨fuel', outcome, houtcome, -⟩ :=
    exists_evaluate_of_primitives context hnode hstore hmiddle
  exact ⟨fuel', outcome, houtcome⟩

end

/-- Names are interchangeable. Under a permutation of names that leaves the special forms alone, the
evaluation of a tree ends if and only if the evaluation of the renamed tree in the renamed store
does, and then the second outcome is the first one renamed. -/
theorem evaluate_rename_names (p : Equiv.Perm String)
    (hp : ∀ form : SpecialForm, p form.name = form.name) (context : Context) (node : Node)
    (frame : FrameId) (store : Store) (hnode : node.Meets .primitives)
    (hstore : store.Meets fun _ => .primitives) :
    ((∃ fuel outcome, evaluate context fuel node frame store = some outcome) ↔
      ∃ fuel renamed, evaluate context fuel (node.rename (.ofPerm p hp)) frame
        (store.rename (.ofPerm p hp)) = some renamed) ∧
    ∀ fuel outcome fuel' renamed, evaluate context fuel node frame store = some outcome →
      evaluate context fuel' (node.rename (.ofPerm p hp)) frame (store.rename (.ofPerm p hp)) =
        some renamed →
      outcome.RenamesTo (.ofPerm p hp) renamed := by
  refine ⟨⟨?_, ?_⟩, ?_⟩
  · rintro ⟨fuel, outcome, houtcome⟩
    obtain ⟨fuel', renamed, hrenamed, -⟩ := exists_evaluate_rename hnode hstore houtcome
    exact ⟨fuel', renamed, hrenamed⟩
  · rintro ⟨fuel, renamed, hrenamed⟩
    exact exists_evaluate_of_rename hnode hstore hrenamed
  · intro fuel outcome fuel' renamed houtcome hrenamed
    obtain ⟨limit, other, hother, hrenames⟩ := exists_evaluate_rename hnode hstore houtcome
    exact hrenames.congr ⟨rfl, rfl, rfl⟩ (evaluate_unique hother hrenamed)

/-- The names `x` and `y` are exchanged. -/
def Renaming.exchanged : Renaming :=
  .ofPerm (Equiv.swap "x" "y") fun form => by
    cases form <;> exact Equiv.swap_apply_of_ne_of_ne (by decide) (by decide)

/-- The form `((lambda (x) (list (print x) (= (list 'x y) (list x y)))) 'x)`. -/
def comparesNames : Node :=
  .form [.abstraction ["x"] (.special .list [.special .print [.identifier "x"],
      .form [.identifier "=", .special .list [.quote (.identifier "x"), .identifier "y"],
        .special .list [.identifier "x", .identifier "y"]]]),
    .quote (.identifier "x")]

/-- What the form yields, given the name that it quotes. -/
def comparesNamesValue (name : String) : Value :=
  .list [.quoted (.identifier name), .int 1]

/-- The store with one frame, which binds `y` to a double that is no number and `=` to the
primitive. -/
def comparesNamesStore : Store :=
  (Store.empty.root [("y", .number (.undefined none 0)), ("=", .host (.primitive .equals))]).2

/-- With `x` and `y` exchanged, the form prints and yields `y` where it printed and yielded `x`. The
lists that it compares are equal both times, since they hold one and the same double. -/
theorem evaluate_comparesNames_exchanged :
    ∃ outcome, evaluate ⟨.capture, Stock.host⟩ 8 comparesNames ⟨0⟩ comparesNamesStore =
        some outcome ∧
      outcome.result = .ok (comparesNamesValue "x") ∧
      ∃ fuel renamed, evaluate ⟨.capture, Stock.host⟩ fuel (comparesNames.rename .exchanged) ⟨0⟩
          (comparesNamesStore.rename .exchanged) = some renamed ∧
        renamed.result = .ok (comparesNamesValue "y") ∧
        Event.prints renamed.events = [.quoted (.identifier "y")] := by
  have hnode : comparesNames.Meets .primitives := by
    simp [comparesNames, Node.abstraction, Node.special, Node.Meets, Node.AllMeet,
      Criterion.primitives, Criterion.any]
  have hstore : comparesNamesStore.Meets fun _ => .primitives := by
    refine (Store.meets_empty _).push (fun _ _ => trivial) fun pair hpair => ?_
    rcases List.mem_cons.1 hpair with rfl | hpair
    · trivial
    · obtain rfl := List.mem_singleton.1 hpair
      exact ⟨.equals, rfl⟩
  have hequal : Primitive.neighbours Value.same
      [.list [.quoted (.identifier "x"), .number (.undefined none 0)],
        .list [.quoted (.identifier "x"), .number (.undefined none 0)]] = true := by
    simp [Primitive.neighbours, Value.same, Value.alike, Value.alikeAll, Node.alike, Number.alike]
  -- The comparison is left as it is until the run has been followed to its end.
  have hrun : (evaluate ⟨.capture, Stock.host⟩ 8 comparesNames ⟨0⟩ comparesNamesStore).map
      (fun outcome => (outcome.result, Event.prints outcome.events)) =
        some (.ok (.list [.quoted (.identifier "x"), .int (if Primitive.neighbours Value.same
            [.list [.quoted (.identifier "x"), .number (.undefined none 0)],
              .list [.quoted (.identifier "x"), .number (.undefined none 0)]] then 1 else 0)]),
          [.quoted (.identifier "x")]) := rfl
  rw [hequal] at hrun
  obtain ⟨outcome, houtcome, hobserved⟩ := Option.map_eq_some_iff.1 hrun
  obtain ⟨hresult, hprints⟩ := Prod.mk.inj hobserved
  obtain ⟨hends, hrenames⟩ := evaluate_rename_names (Equiv.swap "x" "y")
    Renaming.exchanged.name_special ⟨.capture, Stock.host⟩ comparesNames ⟨0⟩ comparesNamesStore
    hnode hstore
  obtain ⟨fuel, renamed, hrenamed⟩ := hends.1 ⟨8, outcome, houtcome⟩
  obtain ⟨hok, -, hprinted, -⟩ := hrenames 8 outcome fuel renamed houtcome hrenamed
  refine ⟨outcome, houtcome, hresult, fuel, renamed, hrenamed, hok _ hresult, ?_⟩
  rw [hprinted, hprints]
  rfl

end Lisplet
