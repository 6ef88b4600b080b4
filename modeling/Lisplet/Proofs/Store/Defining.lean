import Lisplet.Proofs.Semantics.Growth

/-!
# What a definition changes

Frames are shared: many chains go through one frame, and many closures capture it. So a definition
in one frame is felt in other frames as well, and this module says in which.

A frame sees another one for a name if the other one lies on its chain and no frame before it on the
chain binds the name. Such a frame is where the look-up of the name arrives if nothing nearer stops
it. A definition changes the value of one name, and only for the frames that see the frame in which
it is made.

An update is a row of definitions that ends with the first one that fails. Its net effect is that a
frame gets more bindings, `Store.extendAll`: those for the items before the first name that is no
text or is bound already.
-/

namespace Lisplet

/-- Different frames have different numbers. -/
lemma FrameId.index_ne {first second : FrameId} (h : first ≠ second) :
    first.index ≠ second.index := by
  cases first
  cases second
  exact fun heq => h (congrArg FrameId.mk heq)

namespace Store

variable {store : Store} {environment frame viewer : FrameId} {name other : String} {value : Value}

/-! ## A store with more bindings -/

/-- A store in which a frame has more bindings. -/
def extendAll (store : Store) (frame : FrameId) (more : Bindings) : Store :=
  { store with frames :=
      store.frames.modify frame.index fun found =>
        { found with bindings := found.bindings ++ more } }

/-- Only the one frame gets the bindings. -/
lemma getElem?_extendAll (store : Store) (frame : FrameId) (more : Bindings) (index : Nat) :
    (store.extendAll frame more).frames[index]? =
      if frame.index = index then
        store.frames[index]?.map fun found => { found with bindings := found.bindings ++ more }
      else store.frames[index]? :=
  Array.getElem?_modify

/-- Only the one frame gets the binding. -/
lemma getElem?_extend (store : Store) (frame : FrameId) (name : String) (value : Value)
    (index : Nat) :
    (store.extend frame name value).frames[index]? =
      if frame.index = index then
        store.frames[index]?.map fun found =>
          { found with bindings := found.bindings ++ [(name, value)] }
      else store.frames[index]? :=
  getElem?_extendAll store frame [(name, value)] index

/-- The frame gets the binding after those that it has. -/
lemma getElem?_extend_self {found : Frame} (h : store.frames[frame.index]? = some found)
    (name : String) (value : Value) :
    (store.extend frame name value).frames[frame.index]? =
      some { found with bindings := found.bindings ++ [(name, value)] } := by
  rw [getElem?_extend, if_pos rfl, h]
  rfl

/-- A binding does not change what other frames bind. -/
lemma bound?_extend_of_ne (h : frame ≠ environment) :
    (store.extend environment name value).bound? frame other = store.bound? frame other := by
  rw [bound?, bound?, getElem?_extend, if_neg (FrameId.index_ne h.symm)]

/-- A binding does not change what other names stand for in any frame. -/
lemma lookup_extend_of_ne (h : other ≠ name) :
    (store.extend environment name value).lookup frame other = store.lookup frame other := by
  have hnone : [(name, value)].lookup other = none := by
    rw [List.lookup_cons, beq_false_of_ne h]
    rfl
  refine Store.lookup_eq_map (f := id) rfl (fun index => ?_) frame
  rw [getElem?_extend]
  cases store.frames[index]? with
  | none =>
    rw [Option.map_none, ite_self]
    exact .none
  | some found =>
    split
    · refine .some ⟨rfl, ?_⟩
      rw [List.lookup_append, hnone, Option.or_none, Option.map_id_fun, id]
    · exact .some ⟨rfl, by rw [Option.map_id_fun, id]⟩

/-- What a frame binds a name to is found in its bindings. -/
lemma bound?_eq_lookup {found : Frame} (h : store.frames[frame.index]? = some found)
    (name : String) : store.bound? frame name = found.bindings.lookup name := by
  rw [bound?, h]
  rfl

/-- A name that a frame did not bind has the value that it is bound to. -/
lemma bound?_extend_self {found : Frame} (hframe : store.frames[frame.index]? = some found)
    (hunbound : store.bound? frame name = none) (value : Value) :
    (store.extend frame name value).bound? frame name = some value := by
  rw [bound?_eq_lookup hframe] at hunbound
  rw [bound?_eq_lookup (getElem?_extend_self hframe name value), List.lookup_append, hunbound]
  simp

/-- Stores with the same links have the same chains. -/
lemma chain_eq_of_links {before after : Store}
    (h : ∀ index : Nat, after.frames[index]?.map Frame.outer =
      before.frames[index]?.map Frame.outer) (viewer : FrameId) :
    after.chain viewer = before.chain viewer := by
  -- Links lead to older frames, so the argument goes along the chain by the number of the frame.
  induction hindex : viewer.index using Nat.strongRecOn generalizing viewer with
  | ind index ih =>
    subst hindex
    have houter := h viewer.index
    rw [chain_eq after, chain_eq before]
    cases hfound : before.frames[viewer.index]? with
    | none =>
      rw [hfound] at houter
      rw [Option.map_eq_none_iff.1 houter]
    | some found =>
      rw [hfound] at houter
      obtain ⟨twin, hfound', htwin⟩ := Option.map_eq_some_iff.1 houter
      simp only [hfound', htwin]
      cases found.outer with
      | none => rfl
      | some outer =>
        simp only [List.cons.injEq, true_and]
        split
        · rename_i hlt
          exact ih outer.index hlt outer rfl
        · rfl

/-- Bindings do not change chains. -/
lemma chain_extend (store : Store) (frame viewer : FrameId) (name : String) (value : Value) :
    (store.extend frame name value).chain viewer = store.chain viewer := by
  refine chain_eq_of_links (fun index => ?_) viewer
  rw [getElem?_extend]
  split
  · rw [Option.map_map]
    rfl
  · rfl

/-! ## Frames on a chain -/

/-- Chains are built from their last frames on. A frame of the store is put in front of nothing, or
in front of the chain of an older frame. -/
lemma chain_induction {motive : FrameId → List FrameId → Prop} (store : Store)
    (missing : ∀ frame, motive frame [])
    (last : ∀ frame found, store.frames[frame.index]? = some found → motive frame [frame])
    (link : ∀ frame found outer, store.frames[frame.index]? = some found →
      outer.index < frame.index → motive outer (store.chain outer) →
      motive frame (frame :: store.chain outer))
    (frame : FrameId) : motive frame (store.chain frame) := by
  induction hindex : frame.index using Nat.strongRecOn generalizing frame with
  | ind index ih =>
    subst hindex
    rw [chain_eq]
    cases hfound : store.frames[frame.index]? with
    | none => exact missing frame
    | some found =>
      simp only
      cases found.outer with
      | none => exact last frame found hfound
      | some outer =>
        by_cases hlt : outer.index < frame.index
        · simp only [hlt, ↓reduceIte]
          exact link frame found outer hfound hlt (ih outer.index hlt outer rfl)
        · simp only [hlt, ↓reduceIte]
          exact last frame found hfound

/-- A chain consists of frames of the store, none of which is younger than the first. -/
lemma of_mem_chain {seen : FrameId} (h : seen ∈ store.chain frame) :
    seen.index ≤ frame.index ∧ ∃ found, store.frames[seen.index]? = some found := by
  induction frame using chain_induction store with
  | missing frame => exact absurd h List.not_mem_nil
  | last frame found hfound =>
    obtain rfl := List.mem_singleton.1 h
    exact ⟨Nat.le_refl _, found, hfound⟩
  | link frame found outer hfound hlt ih =>
    rcases List.mem_cons.1 h with rfl | hmem
    · exact ⟨Nat.le_refl _, found, hfound⟩
    · obtain ⟨hle, hexists⟩ := ih hmem
      exact ⟨by omega, hexists⟩

/-- No frame occurs twice on a chain. -/
lemma nodup_chain (store : Store) (frame : FrameId) : (store.chain frame).Nodup := by
  induction frame using chain_induction store with
  | missing frame => exact List.nodup_nil
  | last frame found _ => exact List.nodup_singleton frame
  | link frame found outer _ hlt ih =>
    refine List.nodup_cons.2 ⟨fun hmem => ?_, ih⟩
    have hle := (of_mem_chain hmem).1
    omega

/-! ## Frames that are seen -/

/-- One frame sees another one for a name: the other one lies on its chain, and no frame that is
nearer binds the name. -/
def Sees (store : Store) (viewer frame : FrameId) (name : String) : Prop :=
  ∃ nearer farther, store.chain viewer = nearer ++ frame :: farther ∧
    ∀ other ∈ nearer, store.bound? other name = none

/-- A frame that is seen is on the chain. -/
lemma Sees.mem_chain (h : store.Sees viewer frame name) : frame ∈ store.chain viewer := by
  obtain ⟨nearer, farther, hchain, -⟩ := h
  rw [hchain]
  exact List.mem_append_right _ (List.mem_cons_self ..)

/-- The nearest binding of a name gives the name its value. -/
lemma Sees.lookup_eq (h : store.Sees viewer frame name)
    (hbound : store.bound? frame name = some value) : store.lookup viewer name = value := by
  obtain ⟨nearer, farther, hchain, hnearer⟩ := h
  have hskipped : nearer.findSome? (fun frame => store.bound? frame name) = none :=
    List.findSome?_eq_none_iff.2 hnearer
  rw [lookup, hchain, List.findSome?_append, hskipped, List.findSome?_cons, hbound]
  rfl

/-- What is seen does not change when the name is bound in the frame that is seen or behind it. -/
lemma sees_extend_of_mem {shade : FrameId} {nearer farther : List FrameId}
    (hchain : store.chain viewer = nearer ++ shade :: farther)
    (hnearer : ∀ other ∈ nearer, store.bound? other name = none)
    (hframe : frame ∈ shade :: farther) (value : Value) :
    (store.extend frame name value).Sees viewer shade name := by
  have hnodup : (nearer ++ shade :: farther).Nodup := hchain ▸ store.nodup_chain viewer
  refine ⟨nearer, farther, (chain_extend ..).trans hchain, fun other hother => ?_⟩
  have hne : other ≠ frame := by
    rintro rfl
    exact List.disjoint_of_nodup_append hnodup hother hframe
  rw [bound?_extend_of_ne hne]
  exact hnearer other hother

/-- A frame in which the name is bound is still seen. -/
lemma Sees.extend (h : store.Sees viewer frame name) (value : Value) :
    (store.extend frame name value).Sees viewer frame name := by
  obtain ⟨nearer, farther, hchain, hnearer⟩ := h
  exact sees_extend_of_mem hchain hnearer (List.mem_cons_self ..) value

/-- Where the frame is seen, the name has its new value. -/
lemma lookup_extend_of_sees (h : store.Sees viewer frame name)
    (hunbound : store.bound? frame name = none) (value : Value) :
    (store.extend frame name value).lookup viewer name = value := by
  obtain ⟨-, found, hfound⟩ := of_mem_chain h.mem_chain
  exact (h.extend value).lookup_eq (bound?_extend_self hfound hunbound value)

/-- Where the frame is not seen, the name keeps its value. -/
lemma lookup_extend_of_not_sees (h : ¬ store.Sees viewer frame name) (value : Value) :
    (store.extend frame name value).lookup viewer name = store.lookup viewer name := by
  have hfind : ∀ chain : List FrameId,
      (∀ nearer farther, chain = nearer ++ frame :: farther →
        ∃ other ∈ nearer, store.bound? other name ≠ none) →
      chain.findSome? (fun frame' => (store.extend frame name value).bound? frame' name) =
        chain.findSome? fun frame' => store.bound? frame' name := by
    intro chain hchain
    induction chain with
    | nil => rfl
    | cons first rest ih =>
      have hne : first ≠ frame := by
        rintro rfl
        obtain ⟨other, hother, -⟩ := hchain [] rest rfl
        exact absurd hother List.not_mem_nil
      rw [List.findSome?_cons, List.findSome?_cons, bound?_extend_of_ne hne]
      cases hfirst : store.bound? first name with
      | some found => rfl
      | none =>
        refine ih fun nearer farther heq => ?_
        obtain ⟨other, hother, hbound⟩ := hchain (first :: nearer) farther (by rw [heq]; rfl)
        rcases List.mem_cons.1 hother with rfl | hother
        · exact absurd hfirst hbound
        · exact ⟨other, hother, hbound⟩
  rw [lookup, lookup, chain_extend, hfind]
  intro nearer farther hchain
  by_contra hnone
  push Not at hnone
  exact h ⟨nearer, farther, hchain, hnone⟩

end Store

/-! ## Names that can be bound -/

namespace Bindings

/-- A name that cannot be bound beside given bindings: it is no text, or it is bound already. -/
def Refuses (bindings : Bindings) (name : Value) : Prop :=
  ∀ text, name = .text text → text ∈ bindings.names

/-- Bindings as the items of an update. -/
def toItems (bindings : Bindings) : List (Value × Value) :=
  bindings.map fun pair => (.text pair.1, pair.2)

end Bindings

/-- Why a name cannot be bound. -/
def Value.refusal : Value → Error
  | .text name => .duplicateName name
  | other => Error.naming other.inspect .nameNotText

namespace Store

variable {store : Store} {frame : FrameId} {found : Frame}

/-- A definition fails if the bindings of the frame refuse the name. Otherwise the name is a new
text and is bound in the frame. -/
lemma define_cases (hframe : store.frames[frame.index]? = some found) (name value : Value) :
    (found.bindings.Refuses name ∧ store.define frame name value = .error name.refusal) ∨
    ∃ text, name = .text text ∧ text ∉ found.bindings.names ∧
      store.define frame name value = .ok (store.extend frame text value) := by
  cases name with
  | text text =>
    have hbound : (store.bound? frame text).isSome ↔ text ∈ found.bindings.names := by
      rw [bound?_eq_lookup hframe, Bindings.lookup_isSome_iff]
    by_cases hmem : text ∈ found.bindings.names
    · left
      refine ⟨fun other heq => ?_, if_pos (hbound.2 hmem)⟩
      cases heq
      exact hmem
    · exact .inr ⟨text, rfl, hmem, if_neg fun hsome => hmem (hbound.1 hsome)⟩
  | _ => exact .inl ⟨fun _ => nofun, rfl⟩

/-- No bindings make no change. -/
lemma extendAll_nil (store : Store) (frame : FrameId) : store.extendAll frame [] = store := by
  have hframes : (store.extendAll frame []).frames = store.frames := by
    refine Array.ext_getElem? fun index => ?_
    simp [getElem?_extendAll]
  exact congrArg (Store.mk · store.identities) hframes

/-- Bindings can be added one after the other. -/
lemma extendAll_extend (store : Store) (frame : FrameId) (name : String) (value : Value)
    (more : Bindings) :
    (store.extend frame name value).extendAll frame more =
      store.extendAll frame ((name, value) :: more) := by
  have hframes : ((store.extend frame name value).extendAll frame more).frames =
      (store.extendAll frame ((name, value) :: more)).frames := by
    refine Array.ext_getElem? fun index => ?_
    simp only [getElem?_extendAll, getElem?_extend]
    split
    · simp [Function.comp_def]
    · rfl
  exact congrArg (Store.mk · store.identities) hframes

/-- An update adds bindings for the items before the first one whose name is refused, and fails with
that one. -/
lemma update_cases (hframe : store.frames[frame.index]? = some found)
    (hnodup : found.bindings.names.Nodup) (items : List (Value × Value)) :
    ∃ added rest, items = Bindings.toItems added ++ rest ∧
      (Bindings.names (found.bindings ++ added)).Nodup ∧
      (store.update frame items).2 = store.extendAll frame added ∧
      ((rest = [] ∧ (store.update frame items).1 = .ok ()) ∨
        ∃ name value later, rest = (name, value) :: later ∧
          Bindings.Refuses (found.bindings ++ added) name ∧
          (store.update frame items).1 = .error name.refusal) := by
  induction items generalizing store found with
  | nil =>
    refine ⟨[], [], rfl, ?_, (store.extendAll_nil frame).symm, .inl ⟨rfl, rfl⟩⟩
    rwa [List.append_nil]
  | cons item items ih =>
    obtain ⟨name, value⟩ := item
    rcases define_cases hframe name value with ⟨hrefuses, hdefine⟩ | ⟨text, rfl, hnew, hdefine⟩
    · have hupdate : store.update frame ((name, value) :: items) =
          (.error name.refusal, store) := by
        rw [update, hdefine]
      rw [hupdate]
      refine ⟨[], (name, value) :: items, rfl, ?_, (store.extendAll_nil frame).symm, .inr ?_⟩
      · rwa [List.append_nil]
      · exact ⟨name, value, items, rfl, by rwa [List.append_nil], rfl⟩
    · -- the item is bound, and the rest is an update of the frame with this binding
      have hupdate : store.update frame ((.text text, value) :: items) =
          (store.extend frame text value).update frame items := by
        rw [update, hdefine]
      have hextended := getElem?_extend_self hframe text value
      have hnodup' := Bindings.nodup_names_concat hnodup hnew value
      obtain ⟨added, rest, hitems, hnames, hstore, hresult⟩ := ih hextended hnodup'
      simp only [List.append_assoc, List.singleton_append] at hnames hresult
      rw [hupdate]
      refine ⟨(text, value) :: added, rest, ?_, hnames, ?_, hresult⟩
      · rw [hitems]
        rfl
      · rw [hstore, extendAll_extend]

end Store

end Lisplet
