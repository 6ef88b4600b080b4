import Lisplet.Eval.Evaluate
import Mathlib.Data.List.Induction
import Mathlib.Data.List.Nodup

/-!
# What an action does

A run of an action is seen from outside as a result, a row of texts handed to the outlet, and the
store that is left. `Action.Runs` is that view, and the lemmas of this module say what the actions
the evaluator is made of do in it: for each of them there is exactly one run, and a sequence runs
by running its parts.

The one composite action is the making of a frame with bindings. It is a sequence of steps, in which
a name that occurs twice stops the rest, and its net effect is one new frame: with all bindings if
their names are distinct, and otherwise with those before the first name that was there already.
-/

namespace Lisplet

section

variable {α β : Type} {related : α → β → Prop} {first : Option α} {second : Option β}

/-- If the first of two related options has a value, so has the second, and the values are related.
-/
lemma exists_right_of_rel (h : Option.Rel related first second) {value : α}
    (hfirst : first = some value) : ∃ other, second = some other ∧ related value other := by
  subst hfirst
  cases h with
  | some h => exact ⟨_, rfl, h⟩

/-- If the second of two related options has a value, so has the first, and the values are related.
-/
lemma exists_left_of_rel (h : Option.Rel related first second) {other : β}
    (hsecond : second = some other) : ∃ value, first = some value ∧ related value other := by
  subst hsecond
  cases h with
  | some h => exact ⟨_, rfl, h⟩

end

namespace Event

@[simp]
lemma handed_append (events more : List Event) :
    handed (events ++ more) = handed events ++ handed more :=
  List.filterMap_append

/-- What an outlet does with a text hands no further text over. -/
lemma handed_deliver (outlet : Outlet) (text : String) : handed (outlet.deliver text) = [] := by
  cases outlet <;> rfl

/-- Printing hands over one text, whatever the outlet makes of it. -/
lemma handed_print (outlet : Outlet) (value : Value) (text : String) :
    handed (outlet.print value text) = [text] := by
  unfold Outlet.print
  rw [← List.singleton_append, handed_append, handed_deliver]
  rfl

end Event

namespace Action

variable {α β : Type}

/-- The action ends with a result and a store, and hands texts to the outlet on the way. -/
def Runs (action : Action α) (before : Store) (result : Except Error α) (texts : List String)
    (after : Store) : Prop :=
  ∃ events, action before = some ⟨result, after, events⟩ ∧ Event.handed events = texts

variable {before after : Store} {texts : List String}

/-! ## Single actions -/

/-- An action whose outcome is known runs in that way only. -/
lemma runs_iff_of_eq {action : Action α} {given : Except Error α} {final : Store}
    {events : List Event} (h : action before = some ⟨given, final, events⟩)
    {result : Except Error α} :
    action.Runs before result texts after ↔
      result = given ∧ texts = Event.handed events ∧ after = final := by
  constructor
  · rintro ⟨events', heq, htexts⟩
    cases h.symm.trans heq
    exact ⟨rfl, htexts.symm, rfl⟩
  · rintro ⟨rfl, rfl, rfl⟩
    exact ⟨events, h, rfl⟩

/-- An action that is known to end without events runs in that way only. -/
lemma runs_iff_of_silent {action : Action α} {given : Except Error α} {final : Store}
    (h : action before = some ⟨given, final, []⟩) {result : Except Error α} :
    action.Runs before result texts after ↔ result = given ∧ texts = [] ∧ after = final :=
  runs_iff_of_eq h

/-- Yielding a value prints nothing and leaves the store alone. -/
lemma runs_pure {value : α} {result : Except Error α} :
    (pure value : Action α).Runs before result texts after ↔
      result = .ok value ∧ texts = [] ∧ after = before :=
  runs_iff_of_silent rfl

/-- Failing prints nothing and leaves the store alone. -/
lemma runs_fail {error : Error} {result : Except Error α} :
    (fail error).Runs before result texts after ↔
      result = .error error ∧ texts = [] ∧ after = before :=
  runs_iff_of_silent rfl

/-- Yielding a value runs in every store. -/
lemma Runs.pure (value : α) (store : Store) :
    (Pure.pure value : Action α).Runs store (.ok value) [] store :=
  runs_pure.2 ⟨rfl, rfl, rfl⟩

/-- Failing runs in every store. -/
lemma Runs.fail (error : Error) (store : Store) :
    (Action.fail error : Action α).Runs store (.error error) [] store :=
  runs_fail.2 ⟨rfl, rfl, rfl⟩

/-- A given result is yielded without further effect. -/
lemma runs_ofResult {given result : Except Error α} :
    (ofResult given).Runs before result texts after ↔
      result = given ∧ texts = [] ∧ after = before :=
  runs_iff_of_silent rfl

/-- Events hand over their texts and leave the store alone. -/
lemma runs_emit {events : List Event} {result : Except Error Unit} :
    (emit events).Runs before result texts after ↔
      result = .ok () ∧ texts = Event.handed events ∧ after = before :=
  runs_iff_of_eq rfl

/-- Looking a name up yields its value and leaves the store alone. -/
lemma runs_lookup {frame : FrameId} {name : String} {result : Except Error Value} :
    (lookup frame name).Runs before result texts after ↔
      result = .ok (before.lookup frame name) ∧ texts = [] ∧ after = before :=
  runs_iff_of_silent rfl

/-- A new closure takes the next identity. -/
lemma runs_newClosure {params : List String} {body : Node} {scope : FrameId}
    {result : Except Error Value} :
    (newClosure params body scope).Runs before result texts after ↔
      result = .ok (.closure before.identities params body scope) ∧ texts = [] ∧
        after = before.next :=
  runs_iff_of_silent rfl

/-- A call of a host procedure takes the next identity, whatever comes of it. -/
lemma runs_callHost {host : Host} {callable : Callable} {arguments : List Value}
    {result : Except Error Value} :
    (callHost host callable arguments).Runs before result texts after ↔
      result = callable.call host before.identities arguments ∧ texts = [] ∧
        after = before.next :=
  runs_iff_of_silent rfl

/-- An action that meets the limit does not run. -/
lemma not_runs_exhausted {result : Except Error α} :
    ¬ (exhausted : Action α).Runs before result texts after := by
  rintro ⟨events, h, -⟩
  cases h

/-! ## Sequences -/

/-- A sequence meets the limit if its first part does. -/
lemma bind_eq_of_none {action : Action α} {next : α → Action β} (h : action before = none) :
    (action >>= next) before = none := by
  change andThen action next before = none
  simp only [andThen, h]

/-- A sequence whose first part yields a value goes on with the part that the value selects. -/
lemma bind_eq_of_ok {action : Action α} {next : α → Action β} {value : α} {middle : Store}
    {events : List Event} (h : action before = some ⟨.ok value, middle, events⟩) :
    (action >>= next) before = (next value middle).map (Outcome.after events) := by
  change andThen action next before = _
  simp only [andThen, h]

/-- A sequence whose first part fails ends there. -/
lemma bind_eq_of_error {action : Action α} {next : α → Action β} {error : Error} {middle : Store}
    {events : List Event} (h : action before = some ⟨.error error, middle, events⟩) :
    (action >>= next) before = some ⟨.error error, middle, events⟩ := by
  change andThen action next before = _
  simp only [andThen, h]

/-- A sequence whose first part yields a value without events is the part that the value selects. -/
lemma bind_eq_of_silent {action : Action α} {next : α → Action β} {value : α} {middle : Store}
    (h : action before = some ⟨.ok value, middle, []⟩) :
    (action >>= next) before = next value middle := by
  rw [bind_eq_of_ok h]
  exact Option.map_id'

/-- A sequence fails with its first part. -/
lemma Runs.error_bind {action : Action α} {error : Error}
    (h : action.Runs before (.error error) texts after) (next : α → Action β) :
    (action >>= next).Runs before (.error error) texts after := by
  obtain ⟨events, heq, htexts⟩ := h
  exact ⟨events, bind_eq_of_error heq, htexts⟩

/-- A sequence runs by running both parts, and prints the texts of both. -/
lemma Runs.ok_bind {action : Action α} {next : α → Action β} {value : α} {middle : Store}
    {more : List String} {result : Except Error β}
    (h : action.Runs before (.ok value) texts middle)
    (hnext : (next value).Runs middle result more after) :
    (action >>= next).Runs before result (texts ++ more) after := by
  obtain ⟨events, heq, rfl⟩ := h
  obtain ⟨later, hlater, rfl⟩ := hnext
  refine ⟨events ++ later, ?_, Event.handed_append events later⟩
  rw [bind_eq_of_ok heq, hlater]
  rfl

/-- A second part that prints nothing adds no texts to a sequence. -/
lemma Runs.ok_bind_silent {action : Action α} {next : α → Action β} {value : α} {middle : Store}
    {result : Except Error β} (h : action.Runs before (.ok value) texts middle)
    (hnext : (next value).Runs middle result [] after) :
    (action >>= next).Runs before result texts after := by
  have hrun := h.ok_bind hnext
  rwa [List.append_nil] at hrun

/-- A sequence runs by failing in its first part, or by running both parts. -/
lemma runs_bind {action : Action α} {next : α → Action β} {result : Except Error β} :
    (action >>= next).Runs before result texts after ↔
      (∃ error, action.Runs before (.error error) texts after ∧ result = .error error) ∨
        ∃ value first middle more, action.Runs before (.ok value) first middle ∧
          (next value).Runs middle result more after ∧ texts = first ++ more := by
  constructor
  · rintro ⟨events, heq, rfl⟩
    rcases hfirst : action before with _ | ⟨error | value, middle, earlier⟩
    · rw [bind_eq_of_none hfirst] at heq
      cases heq
    · rw [bind_eq_of_error hfirst] at heq
      cases heq
      exact .inl ⟨error, ⟨_, hfirst, rfl⟩, rfl⟩
    · rw [bind_eq_of_ok hfirst] at heq
      obtain ⟨⟨last, final, later⟩, hlast, houtcome⟩ := Option.map_eq_some_iff.1 heq
      cases houtcome
      exact .inr ⟨value, _, middle, _, ⟨_, hfirst, rfl⟩, ⟨_, hlast, rfl⟩,
        Event.handed_append earlier later⟩
  · rintro (⟨error, hfirst, rfl⟩ | ⟨value, first, middle, more, hfirst, hnext, rfl⟩)
    · exact hfirst.error_bind next
    · exact hfirst.ok_bind hnext

/-- An action whose value is turned into another one runs as before. -/
lemma runs_bind_pure {action : Action α} {f : α → β} {result : Except Error β} :
    (action >>= fun value => pure (f value)).Runs before result texts after ↔
      (∃ error, action.Runs before (.error error) texts after ∧ result = .error error) ∨
        ∃ value, action.Runs before (.ok value) texts after ∧ result = .ok (f value) := by
  rw [runs_bind]
  refine or_congr_right ⟨?_, ?_⟩
  · rintro ⟨value, first, middle, more, hfirst, hpure, rfl⟩
    obtain ⟨rfl, rfl, rfl⟩ := runs_pure.1 hpure
    rw [List.append_nil]
    exact ⟨value, hfirst, rfl⟩
  · rintro ⟨value, hfirst, rfl⟩
    exact ⟨value, texts, after, [], hfirst, runs_pure.2 ⟨rfl, rfl, rfl⟩,
      (List.append_nil texts).symm⟩

/-- Debug records are not seen. -/
lemma runs_trace_bind {channel : Channel} {message : String} {next : Unit → Action α}
    {result : Except Error α} :
    (trace channel message >>= next).Runs before result texts after ↔
      (next ()).Runs before result texts after := by
  have htrace : (trace channel message).Runs before (.ok ()) [] before := ⟨_, rfl, rfl⟩
  constructor
  · intro h
    rcases runs_bind.1 h with ⟨error, hfail, -⟩ | ⟨value, first, middle, more, hrun, hnext, rfl⟩
    · obtain ⟨_, hfail, -⟩ := hfail
      cases hfail
    · obtain ⟨-, rfl, rfl⟩ := (runs_iff_of_eq rfl).1 hrun
      exact hnext
  · intro h
    exact htrace.ok_bind h

end Action

/-! ## Names that occur twice -/

namespace Bindings

/-- The names in order. -/
def names (bindings : Bindings) : List String :=
  bindings.map Prod.fst

@[simp]
lemma names_append (bindings more : Bindings) :
    names (bindings ++ more) = names bindings ++ names more :=
  List.map_append

/-- A new name keeps names distinct. -/
lemma nodup_names_concat {bindings : Bindings} {name : String} (h : bindings.names.Nodup)
    (hname : name ∉ bindings.names) (value : Value) :
    (names (bindings ++ [(name, value)])).Nodup := by
  rw [names_append]
  exact h.append (List.nodup_singleton name) (List.disjoint_singleton.2 hname)

/-- The bindings `kept` come before the first occurrence of a name that one of them has already. -/
def RepeatsAt (bindings kept : Bindings) (name : String) : Prop :=
  ∃ value rest, bindings = kept ++ (name, value) :: rest ∧ kept.names.Nodup ∧ name ∈ kept.names

/-- The first repetition stays the first when more bindings follow. -/
lemma RepeatsAt.append {bindings kept : Bindings} {name : String}
    (h : bindings.RepeatsAt kept name) (more : Bindings) :
    RepeatsAt (bindings ++ more) kept name := by
  obtain ⟨value, rest, rfl, hnodup, hmem⟩ := h
  exact ⟨value, rest ++ more, by simp, hnodup, hmem⟩

/-- Names are distinct, or there is a first one that repeats. -/
lemma nodup_or_repeatsAt (bindings : Bindings) :
    bindings.names.Nodup ∨ ∃ kept name, bindings.RepeatsAt kept name := by
  induction bindings using List.reverseRecOn with
  | nil => exact .inl List.nodup_nil
  | append_singleton bindings pair ih =>
    obtain ⟨name, value⟩ := pair
    rcases ih with hnodup | ⟨kept, other, hother⟩
    · by_cases hmem : name ∈ names bindings
      · exact .inr ⟨bindings, name, value, [], rfl, hnodup, hmem⟩
      · exact .inl (nodup_names_concat hnodup hmem value)
    · exact .inr ⟨kept, other, hother.append _⟩

/-- The names that have a value are the names of the bindings. -/
lemma lookup_isSome_iff {bindings : Bindings} {name : String} :
    (bindings.lookup name).isSome ↔ name ∈ bindings.names := by
  simp [names, List.lookup_isSome_iff]

end Bindings

/-! ## Frames with bindings -/

namespace Store

/-- A new frame binds what it was given. -/
lemma bound?_push_self (store : Store) (frame : Frame) (name : String) :
    (store.push frame).2.bound? (store.push frame).1 name = frame.bindings.lookup name := by
  simp [bound?, push]

/-- A binding added to the newest frame could have been there from the start. -/
lemma extend_push_self (store : Store) (bindings : Bindings) (outer : Option FrameId)
    (name : String) (value : Value) :
    (store.push ⟨bindings, outer⟩).2.extend (store.push ⟨bindings, outer⟩).1 name value =
      (store.push ⟨bindings ++ [(name, value)], outer⟩).2 := by
  have hframes : ∀ (frames : Array Frame) (frame : Frame) (f : Frame → Frame),
      (frames.push frame).modify frames.size f = frames.push (f frame) := by
    intro frames frame f
    apply Array.ext
    · simp
    · intro i hi hi'
      rw [Array.getElem_modify, Array.getElem_push, Array.getElem_push]
      split <;> grind
  simp only [extend, push, hframes]

end Store

namespace Action

/-- The names of `more` are new, so all of them are added to the newest frame. -/
lemma bindAll_push_of_nodup (store : Store) (outer : Option FrameId) (bindings more : Bindings)
    (h : (bindings ++ more).names.Nodup) :
    bindAll (store.push ⟨bindings, outer⟩).1 more (store.push ⟨bindings, outer⟩).2 =
      some ⟨.ok (), (store.push ⟨bindings ++ more, outer⟩).2, []⟩ := by
  induction more generalizing bindings with
  | nil =>
    rw [List.append_nil]
    rfl
  | cons pair more ih =>
    obtain ⟨name, value⟩ := pair
    have hnew : name ∉ bindings.names := by
      intro hmem
      rw [Bindings.names_append] at h
      exact List.disjoint_of_nodup_append h hmem (List.mem_cons_self ..)
    have hbind : bind (store.push ⟨bindings, outer⟩).1 name value (store.push ⟨bindings, outer⟩).2 =
        some ⟨.ok (), (store.push ⟨bindings ++ [(name, value)], outer⟩).2, []⟩ := by
      have hnone : ¬ (bindings.lookup name).isSome := by rwa [Bindings.lookup_isSome_iff]
      simp only [bind, Store.bind, Store.bound?_push_self, hnone, Store.extend_push_self,
        Bool.false_eq_true, ↓reduceIte]
    have hrest : (bindings ++ [(name, value)] ++ more).names.Nodup := by
      rwa [List.append_assoc, List.singleton_append]
    change (bind _ name value >>= fun _ => bindAll _ more) _ = _
    rw [bind_eq_of_silent hbind]
    have hmore := ih _ hrest
    rwa [List.append_assoc, List.singleton_append] at hmore

/-- Bindings are made one after the other, in two groups or in one. -/
lemma bindAll_append (frame : FrameId) (bindings more : Bindings) :
    bindAll frame (bindings ++ more) = bindAll frame bindings >>= fun _ => bindAll frame more := by
  induction bindings with
  | nil => exact (pure_bind _ _).symm
  | cons pair bindings ih =>
    obtain ⟨name, value⟩ := pair
    change (bind frame name value >>= fun _ => bindAll frame (bindings ++ more)) = _
    rw [ih]
    exact (bind_assoc _ _ _).symm

/-- Making a frame with distinct names adds that frame to the store and nothing else. -/
lemma enter_eq_of_nodup {α : Type} {outer : FrameId} {bindings : Bindings}
    (h : bindings.names.Nodup) (store : Store) (next : FrameId → Action α) :
    (do let frame ← child outer; bindAll frame bindings; next frame : Action α) store =
      next (store.push ⟨bindings, some outer⟩).1 (store.push ⟨bindings, some outer⟩).2 := by
  have hchild : child outer store =
      some ⟨.ok (store.push ⟨[], some outer⟩).1, (store.push ⟨[], some outer⟩).2, []⟩ := rfl
  rw [bind_eq_of_silent hchild,
    bind_eq_of_silent (bindAll_push_of_nodup store (some outer) [] bindings h)]
  rfl

/-- Making a frame in which a name would occur twice fails, and leaves a frame with the bindings
that come before. -/
lemma enter_eq_of_repeatsAt {α : Type} {outer : FrameId} {bindings kept : Bindings} {name : String}
    (h : bindings.RepeatsAt kept name) (store : Store) (next : FrameId → Action α) :
    (do let frame ← child outer; bindAll frame bindings; next frame : Action α) store =
      some ⟨.error (.duplicateName name), (store.push ⟨kept, some outer⟩).2, []⟩ := by
  obtain ⟨value, rest, rfl, hnodup, hmem⟩ := h
  have hchild : child outer store =
      some ⟨.ok (store.push ⟨[], some outer⟩).1, (store.push ⟨[], some outer⟩).2, []⟩ := rfl
  have hkept := bindAll_push_of_nodup store (some outer) [] kept hnodup
  have hbind : bind (store.push ⟨[], some outer⟩).1 name value (store.push ⟨kept, some outer⟩).2 =
      some ⟨.error (.duplicateName name), (store.push ⟨kept, some outer⟩).2, []⟩ := by
    have hsome : ((store.push ⟨kept, some outer⟩).2.bound? (store.push ⟨[], some outer⟩).1
        name).isSome := by
      rw [show (store.push ⟨[], some outer⟩).1 = (store.push ⟨kept, some outer⟩).1 from rfl,
        Store.bound?_push_self]
      exact Bindings.lookup_isSome_iff.2 hmem
    simp only [bind, Store.bind, hsome, ↓reduceIte]
  have hall : bindAll (store.push ⟨[], some outer⟩).1 (kept ++ (name, value) :: rest)
      (store.push ⟨[], some outer⟩).2 =
        some ⟨.error (.duplicateName name), (store.push ⟨kept, some outer⟩).2, []⟩ := by
    rw [bindAll_append, bind_eq_of_silent hkept]
    exact bind_eq_of_error hbind
  rw [bind_eq_of_silent hchild]
  exact bind_eq_of_error hall

/-- A run that makes a frame with bindings goes on in the new frame, or ends at the first name that
occurs twice. -/
lemma runs_enter {α : Type} {outer : FrameId} {bindings : Bindings} {next : FrameId → Action α}
    {before after : Store} {result : Except Error α} {texts : List String} :
    (do let frame ← child outer; bindAll frame bindings; next frame : Action α).Runs
        before result texts after ↔
      (bindings.names.Nodup ∧ (next (before.push ⟨bindings, some outer⟩).1).Runs
        (before.push ⟨bindings, some outer⟩).2 result texts after) ∨
      ∃ kept name, bindings.RepeatsAt kept name ∧ result = .error (.duplicateName name) ∧
        texts = [] ∧ after = (before.push ⟨kept, some outer⟩).2 := by
  constructor
  · intro h
    rcases bindings.nodup_or_repeatsAt with hnodup | ⟨kept, name, hrepeats⟩
    · unfold Runs at h
      rw [enter_eq_of_nodup hnodup] at h
      exact .inl ⟨hnodup, h⟩
    · obtain ⟨rfl, rfl, rfl⟩ :=
        (runs_iff_of_silent (enter_eq_of_repeatsAt hrepeats before next)).1 h
      exact .inr ⟨kept, name, hrepeats, rfl, rfl, rfl⟩
  · rintro (⟨hnodup, h⟩ | ⟨kept, name, hrepeats, rfl, rfl, rfl⟩)
    · unfold Runs
      rw [enter_eq_of_nodup hnodup]
      exact h
    · exact (runs_iff_of_silent (enter_eq_of_repeatsAt hrepeats before next)).2 ⟨rfl, rfl, rfl⟩

end Action

end Lisplet
