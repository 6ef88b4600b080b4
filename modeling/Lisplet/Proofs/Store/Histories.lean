import Lisplet.Proofs.Store.Defining

/-!
# Histories of a store

A store comes about by calls on its frames, one after the other: new frames are made, names are
defined, and trees are evaluated. Calls may fail, and those that do may have done a part of their
work. Whatever the calls were, the store is in order, which `Store.Orderly` says in detail. No frame
binds a name twice, bindings stay as they are, a definition is felt exactly where its frame is seen,
and an update stops at the first item that cannot be bound.

All that a call does to frames is to add some, or to add bindings to one. The names that a frame
binds stay distinct in both cases, and bindings are only added after those that are there.
-/

namespace Lisplet

/-- Parameters that are bound to as many arguments are the names of the bindings. -/
lemma Bindings.names_zip {params : List String} {arguments : List Value}
    (h : params.length = arguments.length) : Bindings.names (params.zip arguments) = params :=
  List.map_fst_zip (Nat.le_of_eq h)

namespace Store

/-! ## Calls -/

/-- A call that makes a frame, or a call on a frame. -/
inductive Operation where
  /-- Makes a frame that lies inside no other one. -/
  | root
  /-- Makes a frame inside a given one. -/
  | child (outer : FrameId)
  /-- Defines a name. -/
  | define (frame : FrameId) (name value : Value)
  /-- Defines names one after the other. -/
  | update (frame : FrameId) (items : List (Value × Value))
  /-- Evaluates a tree, at most to a given depth. -/
  | evaluate (context : Context) (fuel : Nat) (node : Node) (frame : FrameId)

/-- The frame that a call is made on. -/
def Operation.target : Operation → Option FrameId
  | root => none
  | child outer => some outer
  | define frame _ _ | update frame _ | evaluate _ _ _ frame => some frame

/-- The store after a call, whether it failed or not. An evaluation that does not end leaves
none. -/
def result? (store : Store) : Operation → Option Store
  | .root => some (store.root []).2
  | .child outer => some (store.child outer).2
  | .define frame name value =>
    match store.define frame name value with
    | .ok extended => some extended
    | .error _ => some store
  | .update frame items => some (store.update frame items).2
  | .evaluate context fuel node frame =>
    (Lisplet.evaluate context fuel node frame store).map Outcome.store

/-- The store after a call on one of its own frames. -/
def perform (store : Store) (operation : Operation) : Option Store :=
  if operation.target.all fun frame => frame.index < store.frames.size then
    store.result? operation
  else none

/-- The store after a row of calls. -/
def performAll (store : Store) : List Operation → Option Store
  | [] => some store
  | operation :: rest => (store.perform operation).bind fun later => later.performAll rest

/-! ## What calls do to frames -/

/-- No frame binds a name twice. -/
def Distinct (store : Store) : Prop :=
  ∀ (frame : FrameId) (found : Frame), store.frames[frame.index]? = some found →
    found.bindings.names.Nodup

/-- The later store has the frames of the earlier one. They have the same links and begin with the
same bindings. -/
def Extends (before after : Store) : Prop :=
  ∀ (frame : FrameId) (found : Frame), before.frames[frame.index]? = some found →
    ∃ more, after.frames[frame.index]? = some { found with bindings := found.bindings ++ more }

variable {store before middle after : Store} {frame viewer : FrameId} {name : String}
  {value : Value}

/-- A store extends itself. -/
lemma Extends.refl (store : Store) : store.Extends store :=
  fun _ found hfound => ⟨[], by rw [hfound, List.append_nil]⟩

/-- Extensions can be put after each other. -/
lemma Extends.trans (h : before.Extends middle) (h' : middle.Extends after) :
    before.Extends after := by
  intro frame found hfound
  obtain ⟨first, hfirst⟩ := h frame found hfound
  obtain ⟨second, hsecond⟩ := h' frame _ hfirst
  refine ⟨first ++ second, ?_⟩
  rw [hsecond, List.append_assoc]

/-- What a frame binds it keeps on binding. -/
lemma Extends.bound? (h : before.Extends after) (hbound : before.bound? frame name = some value) :
    after.bound? frame name = some value := by
  obtain ⟨found, hfound, hvalue⟩ := Option.bind_eq_some_iff.1 hbound
  obtain ⟨more, hmore⟩ := h frame found hfound
  rw [bound?_eq_lookup hmore, List.lookup_append, hvalue]
  rfl

/-- Every number below the count is that of a frame. -/
lemma exists_frame_of_lt (h : frame.index < store.frames.size) :
    ∃ found, store.frames[frame.index]? = some found :=
  ⟨_, Array.getElem?_eq_getElem h⟩

/-- Everything that a call can do to frames. -/
lemma perform_cases (hdistinct : before.Distinct) {operation : Operation}
    (h : before.perform operation = some after) :
    (∃ added : Array Frame, after.frames = before.frames ++ added ∧
      ∀ new ∈ added, new.bindings.names.Nodup) ∨
    ∃ frame found more, before.frames[frame.index]? = some found ∧
      (Bindings.names (found.bindings ++ more)).Nodup ∧ after = before.extendAll frame more := by
  have hpush : ∀ outer, (∃ added : Array Frame,
      (before.push ⟨[], outer⟩).2.frames = before.frames ++ added ∧
        ∀ new ∈ added, new.bindings.names.Nodup) := by
    intro outer
    refine ⟨#[⟨[], outer⟩], Array.push_eq_append, fun new hnew => ?_⟩
    obtain rfl := Array.mem_singleton.1 hnew
    exact List.nodup_nil
  rw [perform] at h
  split at h
  · rename_i htarget
    cases operation with
    | root =>
      obtain rfl := Option.some.inj h
      exact .inl (hpush none)
    | child outer =>
      obtain rfl := Option.some.inj h
      exact .inl (hpush (some outer))
    | define frame name value =>
      obtain ⟨found, hfound⟩ := exists_frame_of_lt (of_decide_eq_true htarget)
      rcases define_cases hfound name value with ⟨-, hdefine⟩ | ⟨text, rfl, hnew, hdefine⟩
      · rw [result?, hdefine] at h
        obtain rfl := Option.some.inj h
        refine .inl ⟨#[], Array.append_empty.symm, fun new hnew => ?_⟩
        exact absurd hnew (Array.not_mem_empty new)
      · rw [result?, hdefine] at h
        obtain rfl := Option.some.inj h
        have hnodup := Bindings.nodup_names_concat (hdistinct frame found hfound) hnew value
        exact .inr ⟨frame, found, [(text, value)], hfound, hnodup, rfl⟩
    | update frame items =>
      obtain ⟨found, hfound⟩ := exists_frame_of_lt (of_decide_eq_true htarget)
      obtain ⟨added, -, -, hnodup, hupdate, -⟩ :=
        update_cases hfound (hdistinct frame found hfound) items
      obtain rfl := Option.some.inj h
      exact .inr ⟨frame, found, added, hfound, hnodup, hupdate⟩
    | evaluate context fuel node frame =>
      obtain ⟨outcome, houtcome, rfl⟩ := Option.map_eq_some_iff.1 h
      obtain ⟨added, hframes, hadded⟩ := (grows_of_evaluate houtcome).frames
      exact .inl ⟨added, hframes, fun new hnew => (hadded new hnew).2⟩
  · cases h

/-- A call keeps names distinct and leaves all bindings in their places. -/
lemma Distinct.perform (hdistinct : before.Distinct) {operation : Operation}
    (h : before.perform operation = some after) : after.Distinct ∧ before.Extends after := by
  rcases perform_cases hdistinct h with
    ⟨added, hframes, hadded⟩ | ⟨frame, found, more, hfound, hnodup, rfl⟩
  · constructor
    · intro frame found hfound
      rw [hframes] at hfound
      rcases Array.mem_append.1 (Array.mem_of_getElem? hfound) with hold | hnew
      · obtain ⟨index, hindex⟩ := Array.getElem?_of_mem hold
        exact hdistinct ⟨index⟩ found hindex
      · exact hadded found hnew
    · intro frame found hfound
      obtain ⟨hlt, -⟩ := Array.getElem?_eq_some_iff.1 hfound
      refine ⟨[], ?_⟩
      rw [hframes, Array.getElem?_append_left hlt, hfound, List.append_nil]
  · constructor
    · intro other found' hfound'
      rw [getElem?_extendAll] at hfound'
      split at hfound'
      · rename_i hindex
        rw [← hindex, hfound] at hfound'
        obtain rfl := Option.some.inj hfound'
        exact hnodup
      · exact hdistinct other found' hfound'
    · intro other found' hfound'
      rw [getElem?_extendAll, hfound']
      split
      · exact ⟨more, rfl⟩
      · exact ⟨[], by rw [List.append_nil]⟩

/-- So does a row of calls. -/
lemma Distinct.performAll (hdistinct : before.Distinct) {operations : List Operation}
    (h : before.performAll operations = some after) : after.Distinct ∧ before.Extends after := by
  induction operations generalizing before with
  | nil =>
    obtain rfl := Option.some.inj h
    exact ⟨hdistinct, .refl _⟩
  | cons operation rest ih =>
    obtain ⟨middle, hfirst, hrest⟩ := Option.bind_eq_some_iff.1 h
    obtain ⟨hmiddle, hextends⟩ := hdistinct.perform hfirst
    obtain ⟨hafter, hextends'⟩ := ih hmiddle hrest
    exact ⟨hafter, hextends.trans hextends'⟩

/-- No frame of the empty store binds a name twice. -/
lemma distinct_empty : empty.Distinct := by
  intro frame found hfound
  exact absurd hfound (by simp [empty])

/-! ## Where a definition is felt -/

/-- A definition that succeeds adds one binding of a text that was not bound. -/
lemma of_define_eq_ok {name : Value} (h : before.define frame name value = .ok after) :
    ∃ text, name = .text text ∧ before.bound? frame text = none ∧
      after = before.extend frame text value := by
  cases name with
  | text text =>
    rw [define, bind] at h
    split at h
    · cases h
    · rename_i hbound
      obtain rfl := Except.ok.inj h
      exact ⟨text, rfl, Option.not_isSome_iff_eq_none.1 hbound, rfl⟩
  | _ => cases h

/-- What a definition means for the other frames of a store. -/
structure Felt (before after : Store) (frame : FrameId) (name : String) (value : Value) : Prop where
  /-- The name has the new value wherever the frame is seen for it. -/
  seen : ∀ viewer, before.Sees viewer frame name → after.lookup viewer name = value
  /-- Everything else has the value that it had. -/
  unseen : ∀ viewer other, ¬ (other = name ∧ before.Sees viewer frame name) →
    after.lookup viewer other = before.lookup viewer other
  /-- A closure that was made where the frame is seen sees the new value. If its body is the name,
  and the name is none of its parameters, then this is what a call yields. -/
  captured : ∀ context fuel identity scope (params : List String) (arguments : List Value),
    before.Sees scope frame name → params.Nodup → params.length = arguments.length →
    name ∉ params →
      ∃ later, (apply context (Lisplet.evaluate context (fuel + 1))
        (.closure identity params (.identifier name) scope) arguments).Runs after (.ok value) []
        later
  /-- A frame that binds the name itself hides the definition from all frames that see this frame,
  whatever its value is, which may be `absent`. -/
  hidden : ∀ viewer nearer shade farther old,
    before.chain viewer = nearer ++ shade :: farther → frame ∈ farther →
    (∀ other ∈ nearer, before.bound? other name = none) → before.bound? shade name = some old →
      after.lookup viewer name = old

/-- A closure whose body is a name yields what the name stands for where the closure was made,
unless the name is one of its parameters. -/
lemma runs_apply_name (context : Context) (fuel identity : Nat) {scope : FrameId}
    {params : List String} {arguments : List Value} (hscope : scope.index < store.frames.size)
    (hnodup : params.Nodup) (hlength : params.length = arguments.length) (hname : name ∉ params) :
    (apply context (Lisplet.evaluate context (fuel + 1))
      (.closure identity params (.identifier name) scope) arguments).Runs store
      (.ok (store.lookup scope name)) [] (store.push ⟨params.zip arguments, some scope⟩).2 := by
  have hnames : Bindings.names (params.zip arguments) = params := Bindings.names_zip hlength
  have hlookup : (store.push ⟨params.zip arguments, some scope⟩).2.lookup ⟨store.frames.size⟩ name =
      store.lookup scope name := store.lookup_push hscope (by rwa [hnames])
  have hbody : (Lisplet.evaluate context (fuel + 1) (.identifier name) ⟨store.frames.size⟩).Runs
      (store.push ⟨params.zip arguments, some scope⟩).2 (.ok (store.lookup scope name)) []
      (store.push ⟨params.zip arguments, some scope⟩).2 :=
    Action.runs_lookup.2 ⟨congrArg Except.ok hlookup.symm, rfl, rfl⟩
  rw [apply_closure_of_eq hlength]
  exact Action.runs_enter.2 (.inl ⟨by rwa [hnames], Action.runs_trace_bind.2 hbody⟩)

/-- A frame that sees another one is a frame of the store. -/
lemma Sees.viewer_lt (h : store.Sees viewer frame name) :
    viewer.index < store.frames.size := by
  by_contra hge
  have hnone : store.frames[viewer.index]? = none := Array.getElem?_eq_none (Nat.not_lt.1 hge)
  have hchain : store.chain viewer = [] := by rw [chain_eq, hnone]
  exact absurd (hchain ▸ h.mem_chain) List.not_mem_nil

/-- A new binding is felt where its frame is seen. -/
lemma felt_extend (hunbound : store.bound? frame name = none) (value : Value) :
    store.Felt (store.extend frame name value) frame name value where
  seen _ hsees := lookup_extend_of_sees hsees hunbound value
  unseen viewer other h := by
    by_cases hother : other = name
    · subst hother
      exact lookup_extend_of_not_sees (fun hsees => h ⟨rfl, hsees⟩) value
    · exact lookup_extend_of_ne hother
  captured context fuel identity scope params arguments hsees hnodup hlength hname := by
    have hrun := runs_apply_name context fuel identity (hsees.extend value).viewer_lt hnodup hlength
      hname
    rw [lookup_extend_of_sees hsees hunbound value] at hrun
    exact ⟨_, hrun⟩
  hidden viewer nearer shade farther old hchain hframe hnearer hshade := by
    have hnodup : (shade :: farther).Nodup :=
      (List.nodup_append.1 (hchain ▸ store.nodup_chain viewer)).2.1
    have hne : shade ≠ frame := by
      rintro rfl
      exact (List.nodup_cons.1 hnodup).1 hframe
    refine (sees_extend_of_mem hchain hnearer (List.mem_cons_of_mem _ hframe) value).lookup_eq ?_
    rw [bound?_extend_of_ne hne]
    exact hshade

/-! ## Updates that fail -/

/-- An update fails exactly if some item has a name that is no text, or one that is bound in the
frame or by an earlier item. -/
lemma update_eq_error_iff {found : Frame} (hframe : store.frames[frame.index]? = some found)
    (hnodup : found.bindings.names.Nodup) (items : List (Value × Value)) :
    (∃ error, (store.update frame items).1 = .error error) ↔
      ∃ earlier name value later, items = earlier ++ (name, value) :: later ∧
        ∀ text, name = .text text →
          text ∈ found.bindings.names ∨ .text text ∈ earlier.map Prod.fst := by
  obtain ⟨added, rest, rfl, hnames, -, ⟨rfl, hok⟩ | ⟨name, value, later, rfl, hrefuses, herror⟩⟩ :=
    update_cases hframe hnodup items
  · constructor
    · rintro ⟨error, herror⟩
      rw [hok] at herror
      cases herror
    · -- all items were bound, so that none has a name that is bound before
      rintro ⟨earlier, name, value, later, hitems, hname⟩
      rw [List.append_nil] at hitems
      obtain ⟨first, second, rfl, rfl, hsecond⟩ := List.map_eq_append_iff.1 hitems
      obtain ⟨⟨text, value⟩, others, rfl, hpair, -⟩ := List.map_eq_cons_iff.1 hsecond
      obtain ⟨rfl, -⟩ := Prod.mk.inj hpair
      have hfirst : .text text ∈ (Bindings.toItems first).map Prod.fst →
          text ∈ Bindings.names first := by
        simp [Bindings.toItems, Bindings.names]
      have hbefore : text ∈ Bindings.names (found.bindings ++ first) := by
        rw [Bindings.names_append]
        exact List.mem_append.2 ((hname text rfl).imp_right hfirst)
      rw [← List.append_assoc, Bindings.names_append] at hnames
      exact absurd (List.mem_cons_self ..) (List.disjoint_of_nodup_append hnames hbefore)
  · refine iff_of_true ⟨_, herror⟩ ⟨_, name, value, later, rfl, fun text htext => ?_⟩
    have hmem := hrefuses text htext
    rw [Bindings.names_append, List.mem_append] at hmem
    refine hmem.imp_right fun hadded => ?_
    obtain ⟨pair, hpair, rfl⟩ := List.mem_map.1 hadded
    simpa [Bindings.toItems] using ⟨pair.2, hpair⟩

/-! ## Stores in order -/

/-- A store whose frames can be relied on. -/
structure Orderly (store : Store) : Prop where
  /-- No frame binds a name twice. -/
  distinct : store.Distinct
  /-- A binding never changes or disappears, whatever calls follow. -/
  kept : ∀ operations later, store.performAll operations = some later →
    store.Extends later ∧ ∀ frame name value, store.bound? frame name = some value →
      later.bound? frame name = some value
  /-- A definition is felt where its frame is seen, and nowhere else. -/
  defined : ∀ frame name value extended, store.define frame name value = .ok extended →
    ∃ text, name = .text text ∧ store.Felt extended frame text value
  /-- A definition fails exactly if its name is no text, or one that the frame binds. -/
  refused : ∀ frame found name value, store.frames[frame.index]? = some found →
    ((∃ error, store.define frame name value = .error error) ↔ found.bindings.Refuses name)
  /-- A definition that fails changes nothing. -/
  unchanged : ∀ frame name value error, frame.index < store.frames.size →
    store.define frame name value = .error error →
      store.perform (.define frame name value) = some store ∧
      store.update frame [(name, value)] = (.error error, store)
  /-- An update adds bindings for as many items as there are before the first name that is no text
  or is bound already. -/
  updated : ∀ frame found items, store.frames[frame.index]? = some found →
    ∃ added rest, items = Bindings.toItems added ++ rest ∧
      (Bindings.names (found.bindings ++ added)).Nodup ∧
      (∀ name value later, rest = (name, value) :: later →
        Bindings.Refuses (found.bindings ++ added) name) ∧
      store.perform (.update frame items) = some (store.extendAll frame added)
  /-- It fails exactly if there is such a name. -/
  stopped : ∀ frame found items, store.frames[frame.index]? = some found →
    ((∃ error, (store.update frame items).1 = .error error) ↔
      ∃ earlier name value later, items = earlier ++ (name, value) :: later ∧
        ∀ text, name = .text text →
          text ∈ found.bindings.names ∨ .text text ∈ earlier.map Prod.fst)

/-- A call on a frame that exists is performed. -/
lemma perform_of_lt {operation : Operation} (htarget : operation.target = some frame)
    (h : frame.index < store.frames.size) : store.perform operation = store.result? operation := by
  rw [perform, htarget]
  exact if_pos (decide_eq_true h)

/-- A definition fails if and only if the bindings of the frame refuse it. -/
lemma define_eq_error_iff {found : Frame} (hframe : store.frames[frame.index]? = some found)
    (name value : Value) :
    (∃ error, store.define frame name value = .error error) ↔ found.bindings.Refuses name := by
  rcases define_cases hframe name value with ⟨hrefuses, hdefine⟩ | ⟨text, rfl, hnew, hdefine⟩
  · exact iff_of_true ⟨_, hdefine⟩ hrefuses
  · refine iff_of_false ?_ fun hrefuses => hnew (hrefuses text rfl)
    rintro ⟨error, herror⟩
    rw [hdefine] at herror
    cases herror

end Store

/-- Every history leaves a store in order: any row of calls that begins with the empty store, makes
frames, defines names, updates frames and evaluates trees in any of them, where calls may fail. -/
theorem orderly_after_history (operations : List Store.Operation) (store : Store)
    (h : Store.empty.performAll operations = some store) : store.Orderly := by
  have hdistinct : store.Distinct := (Store.distinct_empty.performAll h).1
  refine ⟨hdistinct, ?_, ?_, ?_, ?_, ?_, ?_⟩
  · intro more later hlater
    have hextends := (hdistinct.performAll hlater).2
    exact ⟨hextends, fun frame name value hbound => hextends.bound? hbound⟩
  · intro frame name value extended hdefine
    obtain ⟨text, rfl, hunbound, rfl⟩ := Store.of_define_eq_ok hdefine
    exact ⟨text, rfl, Store.felt_extend hunbound value⟩
  · intro frame found name value hfound
    exact Store.define_eq_error_iff hfound name value
  · intro frame name value error hframe herror
    constructor
    · rw [Store.perform_of_lt rfl hframe, Store.result?, herror]
    · rw [Store.update, herror]
  · intro frame found items hfound
    obtain ⟨added, rest, hitems, hnames, hstore, hresult⟩ :=
      Store.update_cases hfound (hdistinct frame found hfound) items
    obtain ⟨hframe, -⟩ := Array.getElem?_eq_some_iff.1 hfound
    refine ⟨added, rest, hitems, hnames, ?_, ?_⟩
    · rintro name value later rfl
      rcases hresult with ⟨hnil, -⟩ | ⟨_, _, _, heq, hrefuses, -⟩
      · cases hnil
      · obtain ⟨hpair, -⟩ := List.cons.inj heq
        obtain ⟨rfl, -⟩ := Prod.mk.inj hpair
        exact hrefuses
    · rw [Store.perform_of_lt rfl hframe, Store.result?, hstore]
  · intro frame found items hfound
    exact Store.update_eq_error_iff hfound (hdistinct frame found hfound) items

/-- A history of a root frame and two frames inside it. The first of them binds `x` to `absent`. The
calls after that fail: `x` is defined again, the second item of an update of the other frame has no
name, and an evaluation ends with an error. -/
def shadedHistory : List Store.Operation :=
  [.root, .child ⟨0⟩, .child ⟨0⟩, .define ⟨1⟩ (.text "x") .absent, .define ⟨1⟩ (.text "x") .empty,
    .update ⟨2⟩ [(.text "y", .empty), (.empty, .empty), (.text "z", .empty)],
    .evaluate ⟨.capture, Stock.host⟩ 4 repeatedParameter ⟨2⟩]

/-- The store that this history leaves. -/
def shadedStore : Store where
  frames := #[⟨[], none⟩, ⟨[("x", .absent)], some ⟨0⟩⟩, ⟨[("y", .empty)], some ⟨0⟩⟩,
    ⟨[("x", .text "a")], some ⟨2⟩⟩]
  identities := 1

/-- When `x` is defined in the root frame afterwards, the frame that binds it does not see this,
while the other one does, and so does every closure that was made there. Nothing else changes. -/
theorem shadedHistory_definition_felt :
    Store.empty.performAll shadedHistory = some shadedStore ∧
    ∃ extended, shadedStore.define ⟨0⟩ (.text "x") (.text "b") = .ok extended ∧
      extended.lookup ⟨1⟩ "x" = .absent ∧ extended.lookup ⟨2⟩ "x" = .text "b" ∧
      (∃ later, (apply ⟨.capture, Stock.host⟩ (evaluate ⟨.capture, Stock.host⟩ 1)
        (.closure 0 ["y"] (.identifier "x") ⟨2⟩) [.empty]).Runs extended (.ok (.text "b")) []
        later) ∧
      extended.lookup ⟨2⟩ "y" = shadedStore.lookup ⟨2⟩ "y" := by
  have hhistory : Store.empty.performAll shadedHistory = some shadedStore := rfl
  have horderly := orderly_after_history shadedHistory shadedStore hhistory
  obtain ⟨extended, hdefine⟩ : ∃ extended,
      shadedStore.define ⟨0⟩ (.text "x") (.text "b") = .ok extended := ⟨_, rfl⟩
  obtain ⟨text, htext, hfelt⟩ := horderly.defined _ _ _ _ hdefine
  obtain rfl := Value.text.inj htext
  have hsees : shadedStore.Sees ⟨2⟩ ⟨0⟩ "x" := by
    refine ⟨[⟨2⟩], [], rfl, fun other hother => ?_⟩
    obtain rfl := List.mem_singleton.1 hother
    rfl
  refine ⟨hhistory, extended, hdefine, ?_, hfelt.seen ⟨2⟩ hsees, ?_, ?_⟩
  · exact hfelt.hidden ⟨1⟩ [] ⟨1⟩ [⟨0⟩] .absent rfl (List.mem_singleton_self _) nofun rfl
  · exact hfelt.captured _ 0 0 ⟨2⟩ ["y"] [.empty] hsees (by decide) rfl (by decide)
  · exact hfelt.unseen ⟨2⟩ "y" fun h => absurd h.1 (by decide)

end Lisplet
