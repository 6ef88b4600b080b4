import Lisplet.Proofs.Renaming.Names
import Lisplet.Proofs.Session.Independence

/-!
# New bindings as immediate applications

A form that binds names to the values of trees and evaluates a body does what the immediate
application of a closure does, with the names as parameters and the trees as operands. Both evaluate
the trees from left to right in the frame of the form, then make a frame, then bind the names up to
the first one that is repeated.

The application makes one closure more, before anything else. So the closures and the calls of host
procedures that come later have other identities, and the two evaluations go in lockstep under a
renaming that skips one identity.
-/

namespace Lisplet

/-! ## Skipping an identity -/

/-- Nothing may occur that was made after a given number of closures and calls. -/
def Criterion.madeBefore (made : Nat) : Criterion :=
  { any with
    number := fun n => ∀ call, n.origin? = some call → call < made
    identity := fun identity => identity < made }

/-- The identities of later closures and calls move up by one. -/
def Renaming.skipping (made : Nat) : Renaming where
  name name := name
  frame := id
  identity identity := if identity < made then identity else identity + 1
  name_injective := Function.injective_id
  frame_injective := Function.injective_id
  identity_injective := by
    intro first second heq
    simp only at heq
    split at heq <;> split at heq <;> omega
  name_special _ := rfl

section

variable {made : Nat}

/-- Skipping an identity keeps names. -/
lemma keepsNames_skipping : (Renaming.skipping made).KeepsNames :=
  fun _ => rfl

/-- Earlier identities stay. -/
lemma skipping_identity_of_lt {identity : Nat} (h : identity < made) :
    (Renaming.skipping made).identity identity = identity :=
  if_pos h

/-- Later identities move up. -/
lemma skipping_identity_of_le {identity : Nat} (h : made ≤ identity) :
    (Renaming.skipping made).identity identity = identity + 1 :=
  if_neg (Nat.not_lt.2 h)

/-- What was made before the given closure is not changed. -/
lemma fixes_skipping : (Renaming.skipping made).Fixes (.madeBefore made) where
  number := by
    intro n hn
    cases n with
    | undefined origin index =>
      cases origin with
      | none => rfl
      | some call =>
        have hcall := skipping_identity_of_lt (hn call rfl)
        simp only [Number.rename, Option.map_some, hcall]
    | _ => rfl
  name _ := rfl
  identity := skipping_identity_of_lt
  scope _ := rfl

/-- The second store is the first one after an additional closure was made. -/
structure Store.Skips (made : Nat) (store later : Store) : Prop where
  frames : later.frames = store.frames.map (Frame.rename (.skipping made))
  identities : later.identities = store.identities + 1
  made_le : made ≤ store.identities

/-- Nothing may occur in the store that is yet to be made. -/
lemma Store.skips_next {store : Store}
    (h : store.AllBound (Value.Meets (.madeBefore store.identities))) :
    store.Skips store.identities store.next := by
  refine ⟨?_, rfl, Nat.le_refl _⟩
  refine Array.ext_getElem? fun index => ?_
  change store.frames[index]? = _
  rw [Array.getElem?_map]
  cases hfound : store.frames[index]? with
  | none => rfl
  | some found =>
    obtain ⟨bindings, outer⟩ := found
    have hbindings : Bindings.rename (.skipping store.identities) bindings = bindings := by
      refine (List.map_congr_left fun pair hpair => ?_).trans (List.map_id bindings)
      exact congrArg (Prod.mk pair.1) ((h index _ hfound pair hpair).rename_eq fixes_skipping)
    have houter : outer.map (Renaming.skipping store.identities).frame = outer := Option.map_id'
    simp only [Option.map_some, Frame.rename, hbindings, houter]

/-- Evaluation keeps the two stores in step. -/
lemma Renaming.carries_skipping : (Renaming.skipping made).Carries (Store.Skips made) where
  lookup h frame name := Store.lookup_rename (fun _ => rfl) h.frames frame name
  next h := by
    rw [h.frames, Array.size_map]
    rfl
  push := by
    rintro store later ⟨hframes, hidentities, hmade⟩ bindings outer
    refine ⟨?_, hidentities, hmade⟩
    simp only [Store.push, Array.map_push, hframes]
    rfl
  identity h := by rw [h.identities, skipping_identity_of_le h.made_le]
  newIdentity h := ⟨h.frames, congrArg (· + 1) h.identities, Nat.le_succ_of_le h.made_le⟩

end

/-! ## Rows of trees and values -/

section

variable {α : Type} (eval : Evaluator) (frame : FrameId)

/-- All values of a row are there if its evaluation goes on. -/
lemma evalAll_bind_congr {nodes : List Node} {next next' : List Value → Action α}
    (h : ∀ values, values.length = nodes.length → next values = next' values) :
    evalAll eval frame nodes >>= next = evalAll eval frame nodes >>= next' := by
  induction nodes generalizing next next' with
  | nil =>
    simp only [evalAll, pure_bind]
    exact h [] rfl
  | cons node rest ih =>
    simp only [evalAll, bind_assoc, pure_bind]
    congr 1
    funext value
    exact ih fun values hvalues => h (value :: values) (congrArg (· + 1) hvalues)

/-- New bindings are made of the names and the values of the trees. -/
lemma initialValues_eq (pairs : List (String × Node)) :
    SpecialForm.initialValues eval frame
        (pairs.map fun pair => .form [.identifier pair.1, pair.2]) =
      (do
        let values ← evalAll eval frame (pairs.map Prod.snd)
        return (pairs.map Prod.fst).zip values) := by
  induction pairs with
  | nil => rfl
  | cons pair rest ih =>
    simp only [List.map_cons, SpecialForm.initialValues, evalAll, ih, bind_assoc, pure_bind,
      List.zip_cons_cons]

end

/-! ## The two forms -/

namespace Node

/-- The form `(let ((name tree) ...) body)`. -/
def binding (pairs : List (String × Node)) (body : Node) : Node :=
  .special .letIn [.form (pairs.map fun pair => .form [.identifier pair.1, pair.2]), body]

/-- The form `((lambda (name ...) body) tree ...)`. -/
def application (pairs : List (String × Node)) (body : Node) : Node :=
  .form (.abstraction (pairs.map Prod.fst) body :: pairs.map Prod.snd)

end Node

/-- Evaluates trees, and goes on with their values in a new frame that binds names to them. -/
def bindValues (eval : Evaluator) (pairs : List (String × Node)) (frame : FrameId)
    (next : List Value → FrameId → Action Value) : Action Value := do
  let values ← evalAll eval frame (pairs.map Prod.snd)
  let inner ← Action.child frame
  Action.bindAll inner ((pairs.map Prod.fst).zip values)
  next values inner

section

variable (context : Context) (fuel : Nat) (pairs : List (String × Node)) (body : Node)
  (frame : FrameId) (store : Store)

/-- The first form binds the names to the values of the trees and evaluates the body. -/
lemma evaluate_binding : ∃ record,
    evaluate context (fuel + 1) (.binding pairs body) frame store =
      (bindValues (evaluate context fuel) pairs frame
        (fun _ inner => evaluate context fuel body inner) store).map
        (Outcome.after [.logged record]) := by
  rw [evaluate, Node.binding, evalStep_special, SpecialForm.run, SpecialForm.evalLet,
    initialValues_eq, Action.trace, Action.bind_eq_of_ok rfl]
  simp only [bind_assoc, pure_bind]
  exact ⟨_, rfl⟩

/-- The operator of the second form makes a closure. -/
lemma evaluate_abstraction (params : List String) : ∃ record,
    evaluate context (fuel + 1) (.abstraction params body) frame store =
      some ⟨.ok (.closure store.identities params body frame), store.next, [.logged record]⟩ := by
  rw [evaluate, Node.abstraction, evalStep_special, SpecialForm.run, SpecialForm.evalLambda,
    SpecialForm.parameterNames_map]
  exact ⟨_, rfl⟩

/-- The operator of the application is a new closure, which is then applied to as many values as it
has parameters. -/
lemma evaluate_application : ∃ (record : Record) (messages : List Value → String),
    evaluate context (fuel + 2) (.application pairs body) frame store =
      (bindValues (evaluate context (fuel + 1)) pairs frame
        (fun values inner => do
          Action.trace .application (messages values)
          evaluate context (fuel + 1) body inner)
        store.next).map (Outcome.after [.logged record]) := by
  obtain ⟨record, hclosure⟩ := evaluate_abstraction context fuel body frame store
    (pairs.map Prod.fst)
  have hoperator : (Node.abstraction (pairs.map Prod.fst) body).IsOperator := fun _ => nofun
  have happly : ∀ values : List Value, values.length = (pairs.map Prod.snd).length →
      (pairs.map Prod.fst).length = values.length := by
    intro values hvalues
    rw [hvalues, List.length_map, List.length_map]
  rw [evaluate, Node.application, evalStep_of_isOperator hoperator, Action.bind_eq_of_ok hclosure,
    evalAll_bind_congr _ _ fun values hvalues => apply_closure_of_eq (happly values hvalues)]
  exact ⟨record, _, rfl⟩

end

/-! ## Lockstep -/

/-- The second outcome is the first one after an additional closure was made: it shows the same, and
differs in the identities of later closures and calls only. -/
structure Outcome.Skips (made : Nat) (outcome later : Outcome Value) : Prop where
  observed : later.observed = outcome.observed
  result : later.result = outcome.result.map (Value.rename (.skipping made))
  prints : Event.prints later.events =
    (Event.prints outcome.events).map (Value.rename (.skipping made))
  store : outcome.store.Skips made later.store

section

variable {made : Nat}

/-- Corresponding outcomes differ by an additional closure. -/
lemma Renaming.Corresponds.skips {outcome later : Outcome Value}
    (h : (Renaming.skipping made).Corresponds (Store.Skips made) (Value.rename (.skipping made))
      outcome later) : outcome.Skips made later :=
  ⟨h.observed_eq keepsNames_skipping,
    (Renaming.matches_iff_of_keepsNames keepsNames_skipping).1 h.result, h.prints, h.store⟩

/-- Runs that end together differ by an additional closure. -/
lemma rel_skips_of_rel {outcome later : Option (Outcome Value)}
    (h : Option.Rel ((Renaming.skipping made).Corresponds (Store.Skips made)
      (Value.rename (.skipping made))) outcome later) :
    Option.Rel (Outcome.Skips made) outcome later := by
  cases h with
  | none => exact .none
  | some h => exact .some h.skips

/-- Names are bound in lockstep to the values of trees that hold nothing new. -/
lemma lockstep_bindValues {eval eval' : Evaluator} {pairs : List (String × Node)}
    (heval : (Renaming.skipping made).LockstepEval (Store.Skips made) eval eval')
    (hpairs : ∀ pair ∈ pairs, pair.2.Meets (.madeBefore made)) (frame : FrameId)
    {next next' : List Value → FrameId → Action Value}
    (hnext : ∀ values inner, (Renaming.skipping made).Lockstep (Store.Skips made)
      (Value.rename (.skipping made)) (next values inner)
      (next' (values.map (Value.rename (.skipping made))) inner)) :
    (Renaming.skipping made).Lockstep (Store.Skips made) (Value.rename (.skipping made))
      (bindValues eval pairs frame next) (bindValues eval' pairs frame next') := by
  have hnodes : (pairs.map Prod.snd).map (Node.rename (.skipping made)) = pairs.map Prod.snd := by
    rw [List.map_map]
    exact List.map_congr_left fun pair hpair => (hpairs pair hpair).rename_eq fixes_skipping
  have hrow := heval.evalAll frame (pairs.map Prod.snd)
  rw [hnodes] at hrow
  refine hrow.bind fun values => ?_
  have hbindings : (pairs.map Prod.fst).zip (values.map (Value.rename (.skipping made))) =
      Bindings.rename (.skipping made) ((pairs.map Prod.fst).zip values) := by
    rw [List.zip_map_right]
    rfl
  rw [hbindings]
  exact Renaming.lockstep_enter Renaming.carries_skipping frame _ fun inner => hnext values inner

end

/-- New bindings are immediate application. In a store in which all closures and calls have
identities that were given out, and under a host that learns nothing from identities, a form that
binds names to the values of trees is evaluated like the immediate application of a closure: with
the same number of nested steps both are cut off, or both end, and then they print the same, and
yield the same value or the same error, apart from the identities of new closures and calls. Names
may be repeated. -/
theorem binding_evaluates_as_application (context : Context) (pairs : List (String × Node))
    (body : Node) (frame : FrameId) (store : Store)
    (hhost : (Renaming.skipping store.identities).Respects context.host)
    (hstore : store.AllBound (Value.Meets (.madeBefore store.identities)))
    (hpairs : ∀ pair ∈ pairs, pair.2.Meets (.madeBefore store.identities))
    (hbody : body.Meets (.madeBefore store.identities)) (fuel : Nat) :
    Option.Rel (Outcome.Skips store.identities)
      (evaluate context fuel (.binding pairs body) frame store)
      (evaluate context fuel (.application pairs body) frame store) := by
  match fuel with
  | 0 => exact .none
  | 1 =>
    have hnone : evaluate context 1 (.binding pairs body) frame store = none := by
      cases pairs <;> rfl
    rw [hnone]
    exact .none
  | fuel + 2 =>
    have heval : (Renaming.skipping store.identities).LockstepEval (Store.Skips store.identities)
        (evaluate context (fuel + 1)) (evaluate context (fuel + 1)) :=
      Renaming.lockstep_evaluate Renaming.carries_skipping hhost rfl (fuel + 1)
    obtain ⟨record, hbinding⟩ := evaluate_binding context (fuel + 1) pairs body frame store
    obtain ⟨record', messages, happlication⟩ :=
      evaluate_application context fuel pairs body frame store
    have hlockstep : (Renaming.skipping store.identities).Lockstep (Store.Skips store.identities)
        (Value.rename (.skipping store.identities))
        (bindValues (evaluate context (fuel + 1)) pairs frame
          fun _ inner => evaluate context (fuel + 1) body inner)
        (bindValues (evaluate context (fuel + 1)) pairs frame fun values inner => do
          Action.trace .application (messages values)
          evaluate context (fuel + 1) body inner) := by
      refine lockstep_bindValues heval hpairs frame fun values inner => ?_
      apply Renaming.Lockstep.trace_bind_right
      have hinner := heval body inner
      rwa [hbody.rename_eq fixes_skipping] at hinner
    rw [hbinding, happlication]
    apply rel_skips_of_rel
    exact Renaming.rel_after (hlockstep _ _ (Store.skips_next hstore)) rfl fun _ => rfl

/-- The store of one frame, which binds `f` to the first closure and `shout` to a host procedure. -/
def holdsClosure : Store :=
  { (Store.empty.root [("f", .closure 0 ["x"] (.identifier "x") ⟨0⟩),
      ("shout", .host (.function (Stock.procedure "shout")))]).2 with identities := 1 }

/-- The names `g` and `h` with the trees `(lambda (y) f)` and `(print (shout))`. -/
def newNames : List (String × Node) :=
  [("g", .abstraction ["y"] (.identifier "f")),
    ("h", .special .print [.form [.identifier "shout"]])]

/-- Both forms call the procedure, print its text, and yield a list of the old closure and a new
one. The new one is the second closure under the first form and the third under the other. -/
theorem newNames_bound_as_applied :
    ∃ outcome later,
      evaluate ⟨.capture, Stock.host⟩ 6
        (.binding newNames (.special .list [.identifier "f", .identifier "g"])) ⟨0⟩ holdsClosure =
          some outcome ∧
      evaluate ⟨.capture, Stock.host⟩ 6
        (.application newNames (.special .list [.identifier "f", .identifier "g"])) ⟨0⟩
        holdsClosure = some later ∧
      later.observed = outcome.observed ∧ Event.handed outcome.events = ["!"] ∧
      outcome.result = .ok (.list [.closure 0 ["x"] (.identifier "x") ⟨0⟩,
        .closure 1 ["y"] (.identifier "f") ⟨0⟩]) ∧
      later.result = .ok (.list [.closure 0 ["x"] (.identifier "x") ⟨0⟩,
        .closure 2 ["y"] (.identifier "f") ⟨0⟩]) := by
  have hstore : holdsClosure.AllBound (Value.Meets (.madeBefore holdsClosure.identities)) := by
    refine (Store.allBound_empty _).push fun pair hpair => ?_
    rcases List.mem_cons.1 hpair with rfl | hpair
    · simp [Value.Meets, Node.Meets, Criterion.madeBefore, Criterion.any, holdsClosure]
    · obtain rfl := List.mem_singleton.1 hpair
      trivial
  have hpairs : ∀ pair ∈ newNames, pair.2.Meets (.madeBefore holdsClosure.identities) := by
    simp [newNames, Node.abstraction, Node.special, Node.Meets, Node.AllMeet,
      Criterion.madeBefore, Criterion.any]
  have hbody : (Node.special .list [.identifier "f", .identifier "g"]).Meets
      (.madeBefore holdsClosure.identities) := by
    simp [Node.special, Node.Meets, Node.AllMeet, Criterion.madeBefore, Criterion.any]
  have hrel := binding_evaluates_as_application ⟨.capture, Stock.host⟩ newNames _ ⟨0⟩ holdsClosure
    (Stock.respects_host _) hstore hpairs hbody 6
  have hrun : (evaluate ⟨.capture, Stock.host⟩ 6
      (.binding newNames (.special .list [.identifier "f", .identifier "g"])) ⟨0⟩
      holdsClosure).map (fun outcome => (outcome.result, Event.handed outcome.events)) =
        some (.ok (.list [.closure 0 ["x"] (.identifier "x") ⟨0⟩,
          .closure 1 ["y"] (.identifier "f") ⟨0⟩]), ["!"]) := rfl
  obtain ⟨outcome, houtcome, hseen⟩ := Option.map_eq_some_iff.1 hrun
  obtain ⟨hresult, hhanded⟩ := Prod.mk.inj hseen
  obtain ⟨later, hlater, hskips⟩ := exists_right_of_rel hrel houtcome
  refine ⟨outcome, later, houtcome, hlater, hskips.observed, hhanded, hresult, ?_⟩
  rw [hskips.result, hresult]
  rfl

end Lisplet
