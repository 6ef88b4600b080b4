import Lisplet.Proofs.Machine.Confinement
import Lisplet.Proofs.Machine.Prints
import Lisplet.Proofs.Renaming.Names
import Lisplet.Proofs.Session.Independence
import Lisplet.Proofs.Store.Defining

/-!
# Bindings that nobody mentions

A new binding in a frame that is there already can be seen by every closure that captured the frame
or one inside it. If no code mentions the name, it makes no difference: every evaluation ends in the
same cases, with the same result and the same prints, and leaves a store that differs in that
binding only.

Code can be assembled from values, so it is not enough that the tree does not mention the name. No
value that the evaluation comes across may do so, and this is kept from step to step.
-/

namespace Lisplet

/-! ## A store with one more binding -/

namespace Store

variable {store : Store} {environment frame : FrameId} {name other : String} {value : Value}

/-- Bindings in different frames can be made in any order. -/
lemma extend_comm (h : frame ≠ environment) (value' : Value) :
    (store.extend environment name value).extend frame other value' =
      (store.extend frame other value').extend environment name value := by
  have hindex := FrameId.index_ne h
  have hframes : ((store.extend environment name value).extend frame other value').frames =
      ((store.extend frame other value').extend environment name value).frames := by
    refine Array.ext_getElem? fun index => ?_
    simp only [getElem?_extend]
    grind
  exact congrArg (Store.mk · store.identities) hframes

/-- A binding in a frame that is there can be made before or after a new frame. -/
lemma child_extend (h : environment.index < store.frames.size) (outer : FrameId) :
    ((store.extend environment name value).child outer).2 =
      (store.child outer).2.extend environment name value := by
  have hframes : ((store.extend environment name value).child outer).2.frames =
      ((store.child outer).2.extend environment name value).frames := by
    refine Array.ext_getElem? fun index => ?_
    rw [getElem?_extend]
    simp only [child, push, Array.getElem?_push, size_extend, getElem?_extend]
    grind
  exact congrArg (Store.mk · store.identities) hframes

end Store

/-! ## Evaluations that do not mention a name -/

/-- All names but one may occur. -/
def Criterion.without (name : String) : Criterion :=
  { any with name := fun other => other ≠ name }

/-- Code that does not mention a name cannot tell whether a frame binds it. -/
def Machine.Confinement.withoutName {host : Host} {name : String}
    (hhost : host.StaysWithin (.without name)) (environment : FrameId) (value : Value) :
    Machine.Confinement host where
  node := Node.Meets (.without name)
  value := Value.Meets (.without name)
  alike store twin :=
    environment.index < store.frames.size ∧ twin = store.extend environment name value
  fresh frame := frame ≠ environment
  reenters := True
  node_of_mem h hmem := Node.allMeet_iff.1 h _ hmem
  node_of_quote h := h
  value_number _ := trivial
  value_text _ := trivial
  value_empty := trivial
  value_absent := trivial
  value_of_constant h := h
  value_quoted h := h
  value_list_iff := Value.allMeet_iff
  value_closure {names body} _ _ h := by
    obtain ⟨-, hparams, hbody, -⟩ := h
    refine ⟨trivial, fun param hparam => ?_, trivial, hbody⟩
    exact Node.allMeet_iff.1 hparams _ (List.mem_map_of_mem hparam)
  node_body h := h.2.2.2
  value_call {callable call arguments result} _ harguments hcall := by
    rcases Callable.call_cases hcall with ⟨n, rfl⟩ | ⟨procedure, hprocedure⟩
    · trivial
    · exact hhost procedure call arguments result harguments hprocedure
  reenters_of_node _ := trivial
  node_of_quoted _ h := h
  node_ofItems _ h := h.ofItems
  lookup := by
    rintro store _ other frame ⟨-, rfl⟩ hother
    exact Store.lookup_extend_of_ne hother
  identities := by
    rintro store _ ⟨-, rfl⟩
    rfl
  newIdentity := by
    rintro store _ ⟨hframe, rfl⟩
    exact ⟨hframe, rfl⟩
  child := by
    rintro store _ outer ⟨hframe, rfl⟩
    refine ⟨?_, ?_, ?_, Store.child_extend hframe outer⟩
    · exact congrArg FrameId.mk (store.size_extend environment name value)
    · rintro rfl
      exact Nat.lt_irrefl _ hframe
    · change environment.index < (store.frames.push _).size
      rw [Array.size_push]
      exact Nat.lt_succ_of_lt hframe
  bound? := by
    rintro store _ frame other ⟨-, rfl⟩ hfresh
    exact Store.bound?_extend_of_ne hfresh
  extend := by
    rintro store _ frame other given ⟨hframe, rfl⟩ hfresh
    refine ⟨?_, Store.extend_comm hfresh given⟩
    rw [store.size_extend]
    exact hframe

/-- Outcomes with the same result and the same prints look the same. -/
lemma Outcome.observed_eq {outcome outcome' : Outcome Value}
    (hresult : outcome'.result = outcome.result)
    (hprinted : Event.printings outcome'.events = Event.printings outcome.events) :
    outcome'.observed = outcome.observed := by
  unfold Outcome.observed
  rw [hresult, Event.handed_eq_map_printings, hprinted, ← Event.handed_eq_map_printings]

/-- A binding that nobody mentions is invisible. If neither a tree nor any value in a store mentions
a name, and the procedures of the host do not bring it up, then the name can be defined in a frame
that does not bind it, and afterwards the tree is evaluated as before in every frame: the evaluation
ends in the same cases, shows the same, and leaves the same store apart from the binding. -/
theorem evaluate_ignores_unmentioned_binding (context : Context) (name : String)
    (hhost : context.host.StaysWithin (.without name)) (store : Store)
    (hstore : store.AllBound (Value.Meets (.without name))) (node : Node)
    (hnode : node.Meets (.without name)) (environment : FrameId)
    (henvironment : environment.index < store.frames.size)
    (hunbound : store.bound? environment name = none) (value : Value) :
    ∃ extended, store.define environment (.text name) value = .ok extended ∧
      ∀ frame,
        ((∃ fuel outcome, evaluate context fuel node frame store = some outcome) ↔
          ∃ fuel outcome, evaluate context fuel node frame extended = some outcome) ∧
        ∀ fuel outcome fuel' outcome', evaluate context fuel node frame store = some outcome →
          evaluate context fuel' node frame extended = some outcome' →
          outcome'.observed = outcome.observed ∧ outcome'.result = outcome.result ∧
            outcome'.store = outcome.store.extend environment name value := by
  have hdefine : store.define environment (.text name) value =
      .ok (store.extend environment name value) := by
    rw [Store.define, Store.bind, hunbound]
    rfl
  have halike : (Machine.Confinement.withoutName hhost environment value).alike store
      (store.extend environment name value) := ⟨henvironment, rfl⟩
  refine ⟨_, hdefine, fun frame => ⟨⟨?_, ?_⟩, ?_⟩⟩
  · rintro ⟨fuel, outcome, houtcome⟩
    obtain ⟨fuel', outcome', houtcome', -⟩ :=
      Machine.Confinement.exists_evaluate_of_alike halike hstore hnode houtcome
    exact ⟨fuel', outcome', houtcome'⟩
  · rintro ⟨fuel, outcome, houtcome⟩
    exact Machine.Confinement.exists_evaluate_of_alike_symm halike hstore hnode houtcome
  · intro fuel outcome fuel' outcome' houtcome houtcome'
    obtain ⟨limit, twin, htwin, hresult, hprinted, -, hafter⟩ :=
      Machine.Confinement.exists_evaluate_of_alike halike hstore hnode houtcome
    obtain ⟨hresult', hstore', hprinted'⟩ := evaluate_unique htwin houtcome'
    rw [hresult'] at hresult
    rw [hprinted'] at hprinted
    exact ⟨Outcome.observed_eq hresult hprinted, hresult, hstore'.symm.trans hafter⟩

/-- A sum that the stock of host procedures makes mentions the names that its arguments mention. -/
lemma Stock.meets_of_plusAll {name : String} {arguments : List Value} {value : Value}
    (harguments : ∀ argument ∈ arguments, argument.Meets (.without name))
    (h : Stock.plusAll arguments = .ok value) : value.Meets (.without name) := by
  rcases arguments with _ | ⟨first, _ | ⟨second, _ | ⟨third, more⟩⟩⟩
  · cases h
  · cases h
  · simp only [List.forall_mem_cons] at harguments
    obtain ⟨hfirst, hsecond, -⟩ := harguments
    simp only [Stock.plusAll, Stock.plus] at h
    split at h
    · split at h
      · obtain rfl := Except.ok.inj h
        trivial
      · cases h
    · obtain rfl := Except.ok.inj h
      trivial
    · obtain rfl := Except.ok.inj h
      refine Value.allMeet_iff.2 fun item hitem => ?_
      rcases List.mem_append.1 hitem with hitem | hitem
      · exact Value.allMeet_iff.1 hfirst item hitem
      · exact Value.allMeet_iff.1 hsecond item hitem
    all_goals cases h
  · cases h

/-- The stock of host procedures brings one name with it. -/
lemma Stock.staysWithin_host {name : String} (h : "list" ≠ name) :
    Host.StaysWithin (.without name) Stock.host := by
  intro procedure call arguments value harguments hcall
  unfold Stock.host at hcall
  split at hcall
  · unfold Stock.constant at hcall
    split at hcall <;> cases hcall
    trivial
  · unfold Stock.constant at hcall
    split at hcall <;> cases hcall
    trivial
  · cases hsum : Stock.plusAll arguments with
    | error error =>
      rw [hsum] at hcall
      cases hcall
    | ok total =>
      rw [hsum] at hcall
      obtain rfl := Except.ok.inj hcall
      have htotal := Stock.meets_of_plusAll harguments hsum
      cases total with
      | number n => trivial
      | _ => exact htotal
  · obtain rfl := Except.ok.inj hcall
    exact Value.allMeet_iff.2 harguments
  · obtain rfl := Except.ok.inj hcall
    trivial
  · obtain rfl := Except.ok.inj hcall
    trivial
  · obtain rfl := Except.ok.inj hcall
    trivial
  · obtain rfl := Except.ok.inj hcall
    refine ⟨h, Node.allMeet_iff.2 fun node hnode => ?_⟩
    obtain ⟨argument, hargument, rfl⟩ := List.mem_map.1 hnode
    exact harguments argument hargument
  · obtain rfl := Except.ok.inj hcall
    trivial
  · cases hcall

/-- The store of one frame, which binds `echo` to a host procedure and `f` to a closure that
assembles the code of a print. -/
def assembling : Store :=
  { (Store.empty.root [("echo", .host (.function (Stock.procedure "echo"))),
      ("f", .closure 0 ["y"] (.special .eval [.special .list
        [.quote (.identifier "print"), .quote (.identifier "y")]]) ⟨0⟩)]).2 with identities := 1 }

/-- After `x` was defined in the frame that the closure captured, a call of the closure still prints
its argument, the list that the procedure makes. -/
theorem assembling_ignores_unmentioned_binding :
    ∃ extended, assembling.define ⟨0⟩ (.text "x") (.quoted (.identifier "x")) = .ok extended ∧
      ∃ fuel outcome, evaluate ⟨.capture, Stock.host⟩ fuel
          (.form [.identifier "f", .form [.identifier "echo", .string "a"]]) ⟨0⟩ extended =
            some outcome ∧
        outcome.observed = (.ok (some "(a)"), ["(a)"]) := by
  have hhost : Host.StaysWithin (.without "x") Stock.host := Stock.staysWithin_host (by decide)
  have hstore : assembling.AllBound (Value.Meets (.without "x")) := by
    refine (Store.allBound_empty _).push fun pair hpair => ?_
    rcases List.mem_cons.1 hpair with rfl | hpair
    · trivial
    · obtain rfl := List.mem_singleton.1 hpair
      simp [Value.Meets, Node.Meets, Node.AllMeet, Node.special, SpecialForm.name,
        Criterion.without, Criterion.any]
  have hnode : (Node.form [.identifier "f", .form [.identifier "echo", .string "a"]]).Meets
      (.without "x") := by
    simp [Node.Meets, Node.AllMeet, Criterion.without]
  obtain ⟨extended, hdefine, hframes⟩ := evaluate_ignores_unmentioned_binding
    ⟨.capture, Stock.host⟩ "x" hhost assembling hstore _ hnode ⟨0⟩ (by decide) rfl
    (.quoted (.identifier "x"))
  obtain ⟨hends, hsame⟩ := hframes ⟨0⟩
  have hrun : (evaluate ⟨.capture, Stock.host⟩ 6
      (.form [.identifier "f", .form [.identifier "echo", .string "a"]]) ⟨0⟩ assembling).map
        Outcome.observed = some (.ok (some "(a)"), ["(a)"]) := rfl
  obtain ⟨outcome, houtcome, hobserved⟩ := Option.map_eq_some_iff.1 hrun
  obtain ⟨fuel, outcome', houtcome'⟩ := hends.1 ⟨6, outcome, houtcome⟩
  refine ⟨extended, hdefine, fuel, outcome', houtcome', ?_⟩
  rw [(hsame 6 outcome fuel outcome' houtcome houtcome').1, hobserved]

end Lisplet
