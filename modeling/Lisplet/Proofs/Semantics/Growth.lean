import Lisplet.Host.Stock
import Lisplet.Proofs.Semantics.Soundness

/-!
# Stores only grow

Closures share the frames that they capture, so a change to a frame would be felt by every closure
that was made in it. No such change happens: whatever is evaluated, and whether it yields a value or
fails, all frames that were there stay as they are, and new frames are added after them.

A rule changes the store in two ways only. It gives out an identity, to a closure or to a call of
the host, which leaves the frames alone, or it makes a frame, which becomes the newest one and is
complete from the start. `Store.Grows` is what both have in common, and it is handed on by every
rule.
-/

namespace Lisplet

namespace Store

/-- The later store has the frames of the earlier one, and new frames after them. A new frame has an
outer frame and binds no name twice. -/
structure Grows (before after : Store) : Prop where
  /-- All frames are kept, in their places. -/
  frames : ∃ added : Array Frame, after.frames = before.frames ++ added ∧
    ∀ frame ∈ added, frame.outer.isSome ∧ frame.bindings.names.Nodup
  /-- Identities that were given out stay given out. -/
  identities : before.identities ≤ after.identities

namespace Grows

variable {before middle after : Store}

/-- A store that stays as it is has grown by nothing. -/
lemma refl (store : Store) : Grows store store := by
  refine ⟨⟨#[], Array.append_empty.symm, ?_⟩, Nat.le_refl _⟩
  intro frame hframe
  exact absurd hframe (Array.not_mem_empty frame)

/-- Growth adds up. -/
lemma trans (h : Grows before middle) (h' : Grows middle after) : Grows before after := by
  obtain ⟨first, hfirst, hnew⟩ := h.frames
  obtain ⟨second, hsecond, hnew'⟩ := h'.frames
  refine ⟨⟨first ++ second, ?_, ?_⟩, Nat.le_trans h.identities h'.identities⟩
  · rw [hsecond, hfirst, Array.append_assoc]
  · intro frame hframe
    rcases Array.mem_append.1 hframe with hmem | hmem
    · exact hnew frame hmem
    · exact hnew' frame hmem

/-- A new frame with distinct names is growth. -/
lemma push (store : Store) {bindings : Bindings} (outer : FrameId) (h : bindings.names.Nodup) :
    Grows store (store.push ⟨bindings, some outer⟩).2 := by
  refine ⟨⟨#[⟨bindings, some outer⟩], Array.push_eq_append, ?_⟩, Nat.le_refl _⟩
  intro frame hframe
  obtain rfl := Array.mem_singleton.1 hframe
  exact ⟨rfl, h⟩

/-- An identity is given out without a change to the frames. -/
lemma next (store : Store) : Grows store store.next :=
  ⟨(refl store).frames, Nat.le_succ _⟩

/-- Frames keep their places as a store grows. -/
lemma getElem? (h : Grows before after) {index : Nat} {frame : Frame}
    (hframe : before.frames[index]? = some frame) : after.frames[index]? = some frame := by
  obtain ⟨added, hadded, -⟩ := h.frames
  obtain ⟨hindex, -⟩ := Array.getElem?_eq_some_iff.1 hframe
  rw [hadded, Array.getElem?_append_left hindex]
  exact hframe

end Grows

/-! ## Looking up names -/

/-- Frames keep their places when a new one comes. -/
lemma getElem?_push_of_some {store : Store} {index : Nat} {found : Frame}
    (h : store.frames[index]? = some found) (frame : Frame) :
    (store.push frame).2.frames[index]? = some found := by
  obtain ⟨hindex, hfound⟩ := Array.getElem?_eq_some_iff.1 h
  rw [← hfound]
  exact Array.getElem?_push_lt hindex

/-- The value of a name is the one that the frame itself binds to it, or else the one that it has in
the outer frame. -/
lemma lookup_eq (store : Store) (frame : FrameId) (name : String) :
    store.lookup frame name =
      match store.frames[frame.index]? with
      | none => .absent
      | some found =>
        match found.bindings.lookup name, found.outer with
        | some value, _ => value
        | none, none => .absent
        | none, some outer =>
          if outer.index < frame.index then store.lookup outer name else .absent := by
  unfold lookup
  rw [chain_eq]
  cases hframe : store.frames[frame.index]? with
  | none => rfl
  | some found =>
    have hbound : store.bound? frame name = found.bindings.lookup name := by
      rw [bound?, hframe]
      rfl
    simp only [List.findSome?_cons, hbound]
    cases found.bindings.lookup name with
    | some value => rfl
    | none =>
      cases found.outer with
      | none => rfl
      | some outer =>
        simp only
        split <;> rfl

/-- If the frames of two stores have the same links, and their own bindings give two names
corresponding values, then the names have corresponding values in every frame. -/
lemma lookup_eq_map {before after : Store} {name name' : String} {f : Value → Value}
    (habsent : f .absent = .absent)
    (h : ∀ index : Nat, Option.Rel (fun found found' : Frame => found'.outer = found.outer ∧
        found'.bindings.lookup name' = (found.bindings.lookup name).map f)
      before.frames[index]? after.frames[index]?) (frame : FrameId) :
    after.lookup frame name' = f (before.lookup frame name) := by
  -- Links lead to older frames, so the argument goes along the chain by the number of the frame.
  induction hindex : frame.index using Nat.strongRecOn generalizing frame with
  | ind index ih =>
    subst hindex
    have hframe := h frame.index
    rw [lookup_eq after, lookup_eq before]
    generalize before.frames[frame.index]? = found, after.frames[frame.index]? = found' at hframe
    cases hframe with
    | none => exact habsent.symm
    | some hfound =>
      rename_i found found'
      obtain ⟨houter, hlookup⟩ := hfound
      simp only [houter, hlookup]
      cases found.bindings.lookup name with
      | some value => rfl
      | none =>
        cases found.outer with
        | none => exact habsent.symm
        | some outer =>
          simp only [Option.map_none]
          split
          · rename_i hlt
            exact ih outer.index hlt outer rfl
          · exact habsent.symm

/-- Names keep their values in the frames that were there before a store grew. -/
lemma lookup_eq_of_kept {before after : Store}
    (h : ∀ (index : Nat) (found : Frame), before.frames[index]? = some found →
      after.frames[index]? = some found)
    {frame : FrameId} (hframe : frame.index < before.frames.size) (name : String) :
    after.lookup frame name = before.lookup frame name := by
  -- Links lead to older frames, so the argument goes along the chain by the number of the frame.
  induction hindex : frame.index using Nat.strongRecOn generalizing frame with
  | ind index ih =>
    subst hindex
    have hbefore := Array.getElem?_eq_getElem hframe
    have hafter := h _ _ hbefore
    rw [lookup_eq after, lookup_eq before, hbefore, hafter]
    simp only
    cases before.frames[frame.index].bindings.lookup name with
    | some value => rfl
    | none =>
      cases before.frames[frame.index].outer with
      | none => rfl
      | some outer =>
        simp only
        split
        · rename_i hlt
          exact ih outer.index hlt (Nat.lt_trans hlt hframe) rfl
        · rfl

/-- In a new frame, a name that the frame does not bind has the value that it has outside. -/
lemma lookup_push (store : Store) {bindings : Bindings} {outer : FrameId} {name : String}
    (houter : outer.index < store.frames.size) (hname : name ∉ bindings.names) :
    (store.push ⟨bindings, some outer⟩).2.lookup ⟨store.frames.size⟩ name =
      store.lookup outer name := by
  have hnew : (store.push ⟨bindings, some outer⟩).2.frames[store.frames.size]? =
      some ⟨bindings, some outer⟩ := Array.getElem?_push_size
  have hnone : bindings.lookup name = none := by
    rw [← Option.not_isSome_iff_eq_none, Bindings.lookup_isSome_iff]
    exact hname
  rw [lookup_eq]
  simp only [hnew, hnone, houter, ↓reduceIte]
  exact lookup_eq_of_kept (fun _ _ hfound => getElem?_push_of_some hfound _) houter name

end Store

/-- The names before the first repetition are distinct. -/
lemma Bindings.RepeatsAt.nodup {bindings kept : Bindings} {name : String}
    (h : bindings.RepeatsAt kept name) : kept.names.Nodup := by
  obtain ⟨value, rest, -, hnodup, -⟩ := h
  exact hnodup

mutual

/-- The store grows along every derivation for a tree. -/
theorem Evaluates.grows {host : Host} {s s' frame node result texts} :
    Evaluates host s frame node result texts s' → s.Grows s'
  | .number | .string | .constant | .identifier | .quoteMark | .emptyForm | .foreign
  | .operandCount _ | .parameterNotName _ | .parametersNotList _ | .bindingsNotList _ | .quote =>
    .refl s
  | .operandFails _ h | .operandNotList _ h _ | .first h | .firstOfEmpty h | .rest h | .print h _
  | .printTooLong h _ | .evalOther h _ _ | .conditionFails h | .operatorFails _ h => h.grows
  | .list h | .listFails h => h.grows
  | .lambda => .next s
  | .letIn h hnodup hbody => (h.grows.trans (.push _ frame hnodup)).trans hbody.grows
  | .letRepeats h hrepeats => h.grows.trans (.push _ frame hrepeats.nodup)
  | .letFails h => h.grows
  | .evalQuoted h h' | .evalList h h' | .consequent h _ h' | .alternative h _ h' =>
    h.grows.trans h'.grows
  | .operandsFail _ h hoperands => h.grows.trans hoperands.grows
  | .application _ h hoperands happly => (h.grows.trans hoperands.grows).trans happly.grows

/-- The store grows along every derivation for a row of trees. -/
theorem EvaluatesAll.grows {host : Host} {s s' frame nodes result texts} :
    EvaluatesAll host s frame nodes result texts s' → s.Grows s'
  | .nil => .refl s
  | .cons h hrest | .tailFails h hrest => h.grows.trans hrest.grows
  | .headFails h => h.grows

/-- The store grows along every derivation for new bindings. -/
theorem Initialises.grows {host : Host} {s s' frame bindings result texts} :
    Initialises host s frame bindings result texts s' → s.Grows s'
  | .nil | .malformed _ => .refl s
  | .cons h hrest | .tailFails h hrest => h.grows.trans hrest.grows
  | .headFails h => h.grows

/-- The store grows along every derivation for an application. -/
theorem Applies.grows {host : Host} {s s' head arguments result texts} :
    Applies host s head arguments result texts s' → s.Grows s'
  | .closure _ hnodup hbody => (Store.Grows.push s _ hnodup).trans hbody.grows
  | .repeats _ hrepeats => .push s _ hrepeats.nodup
  | .host => .next s
  | .argumentCount _ | .degenerate _ | .notCallable _ _ => .refl s

end

/-- The store grows in every evaluation that ends. -/
lemma grows_of_evaluate {context : Context} {fuel : Nat} {node : Node} {frame : FrameId}
    {before : Store} {outcome : Outcome Value}
    (h : evaluate context fuel node frame before = some outcome) : before.Grows outcome.store := by
  have hrun : (evaluate context fuel node frame).Runs before outcome.result
      (Event.handed outcome.events) outcome.store := ⟨outcome.events, h, rfl⟩
  exact (isSound_evaluate context fuel hrun).grows

/-- Evaluation keeps every frame that exists as it is: its bindings, their order and their values,
and the link to its outer frame. All that it does to frames is to add new ones after them. -/
theorem evaluate_keeps_frames (context : Context) (fuel : Nat) (node : Node) (frame : FrameId)
    (before : Store) (outcome : Outcome Value)
    (h : evaluate context fuel node frame before = some outcome) :
    (∀ (id : FrameId) (found : Frame), before.frames[id.index]? = some found →
      outcome.store.frames[id.index]? = some found) ∧
    ∃ added : Array Frame, outcome.store.frames = before.frames ++ added ∧
      ∀ new ∈ added, new.outer.isSome ∧ new.bindings.names.Nodup := by
  have hgrows := grows_of_evaluate h
  constructor
  · intro id found hfound
    exact hgrows.getElem? hfound
  · exact hgrows.frames

/-- The form `((lambda (x x) y) "a" "b")`. -/
def repeatedParameter : Node :=
  .form [.special .lambda [.form [.identifier "x", .identifier "x"], .identifier "y"],
    .string "a", .string "b"]

/-- The form fails while its parameters are bound, and the frame in which it is evaluated is as
before. -/
theorem evaluate_repeatedParameter_keeps_root :
    ∃ outcome, evaluate ⟨.capture, Stock.host⟩ 4 repeatedParameter ⟨0⟩
        (Store.empty.root [("y", .text "kept")]).2 = some outcome ∧
      outcome.result = .error (.duplicateName "x") ∧
      outcome.store.frames[0]? = some ⟨[("y", .text "kept")], none⟩ := by
  obtain ⟨outcome, houtcome, hresult⟩ : ∃ outcome,
      evaluate ⟨.capture, Stock.host⟩ 4 repeatedParameter ⟨0⟩
        (Store.empty.root [("y", .text "kept")]).2 = some outcome ∧
      outcome.result = .error (.duplicateName "x") := ⟨_, rfl, rfl⟩
  have hkept := (evaluate_keeps_frames _ _ _ _ _ _ houtcome).1 ⟨0⟩ _ rfl
  exact ⟨outcome, houtcome, hresult, hkept⟩

end Lisplet
