import Lisplet.Primitive
import Lisplet.Store
import Mathlib.Data.List.Basic
import Mathlib.Tactic.Common

/-!
# What occurs in values, trees and stores

Values and trees hold each other: a list holds its items, a closure its body, quoted code its
literals, and assembled code the values that it was assembled from. A criterion says which numbers,
names, closures, captured frames and host procedures may occur at any depth, and whether code may
have values in the place of trees. `Value.Meets` and `Node.Meets` say that nothing else occurs. The
texts in a value are data, not names, and may be anything.

Frames are numbered in the order of creation. `Store.Meets` lets the criterion depend on the number
of the frame in which a value is bound. `Store.AllBound` is for properties of values that are not
given by a criterion.
-/

namespace Lisplet

/-- What may occur inside values and trees. -/
structure Criterion where
  /-- The numbers, as values and as literals. -/
  number : Number → Prop
  /-- The names in code, among them the parameters of closures. -/
  name : String → Prop
  /-- The closures, told by their identities. -/
  identity : Nat → Prop
  /-- The frames that closures capture. -/
  scope : FrameId → Prop
  /-- The procedures of the host. -/
  callable : Callable → Prop
  /-- Whether values may stand where code is expected. -/
  foreign : Prop

/-- The call that made a double that is no number, if a call made it. -/
def Number.origin? : Number → Option Nat
  | .undefined origin _ => origin
  | .int _ | .real _ | .bool _ => none

namespace Criterion

/-- Everything may occur. -/
def any : Criterion where
  number _ := True
  name _ := True
  identity _ := True
  scope _ := True
  callable _ := True
  foreign := True

/-- Everything but closures may occur. -/
def closureFree : Criterion :=
  { any with identity := fun _ => False, scope := fun _ => False }

/-- Nothing may occur that a run has made, neither closures nor doubles that are no numbers. -/
def given : Criterion :=
  { closureFree with number := fun n => n.origin? = none }

/-- What the first criterion lets occur, the second one does too. -/
structure Implies (p q : Criterion) : Prop where
  number : ∀ {n}, p.number n → q.number n
  name : ∀ {name}, p.name name → q.name name
  identity : ∀ {identity}, p.identity identity → q.identity identity
  scope : ∀ {frame}, p.scope frame → q.scope frame
  callable : ∀ {callable}, p.callable callable → q.callable callable
  foreign : p.foreign → q.foreign

/-- All numbers that may occur have a text. -/
def Legible (p : Criterion) : Prop :=
  ∀ n, p.number n → n.text.isSome

end Criterion

mutual

/-- Only what the criterion allows occurs in a value. -/
def Value.Meets (p : Criterion) : Value → Prop
  | .number n => p.number n
  | .text _ | .empty | .absent | .nothing => True
  | .list items => Value.AllMeet p items
  | .quoted node => node.Meets p
  | .closure identity params body scope =>
    p.identity identity ∧ (∀ param ∈ params, p.name param) ∧ p.scope scope ∧ body.Meets p
  | .host callable => p.callable callable

/-- Only what the criterion allows occurs in a list of values. -/
def Value.AllMeet (p : Criterion) : List Value → Prop
  | [] => True
  | value :: rest => value.Meets p ∧ Value.AllMeet p rest

/-- Only what the criterion allows occurs in a tree. -/
def Node.Meets (p : Criterion) : Node → Prop
  | .identifier name => p.name name
  | .number n => p.number n
  | .string _ => True
  | .form children => Node.AllMeet p children
  | .quote inner => inner.Meets p
  | .constant value => value.Meets p
  | .foreign value => p.foreign ∧ value.Meets p

/-- Only what the criterion allows occurs in a row of trees. -/
def Node.AllMeet (p : Criterion) : List Node → Prop
  | [] => True
  | node :: rest => node.Meets p ∧ Node.AllMeet p rest

end

/-- Only what the criterion allows occurs in bound values. -/
def Bindings.Meets (p : Criterion) (bindings : Bindings) : Prop :=
  ∀ pair ∈ bindings, pair.2.Meets p

/-- Links and values of every frame meet the criterion for the number of the frame. -/
def Store.Meets (p : Nat → Criterion) (store : Store) : Prop :=
  ∀ (index : Nat) (found : Frame), store.frames[index]? = some found →
    (∀ outer, found.outer = some outer → (p index).scope outer) ∧ found.bindings.Meets (p index)

variable {p q : Criterion}

/-- A list of values meets a criterion if every one of them does. -/
lemma Value.allMeet_iff {values : List Value} :
    Value.AllMeet p values ↔ ∀ value ∈ values, value.Meets p := by
  induction values with
  | nil => simp [Value.AllMeet]
  | cons value rest ih => rw [Value.AllMeet, ih, List.forall_mem_cons]

/-- A row of trees meets a criterion if every one of them does. -/
lemma Node.allMeet_iff {nodes : List Node} :
    Node.AllMeet p nodes ↔ ∀ node ∈ nodes, node.Meets p := by
  induction nodes with
  | nil => simp [Node.AllMeet]
  | cons node rest ih => rw [Node.AllMeet, ih, List.forall_mem_cons]

/-! ## Weaker criteria -/

mutual

/-- A value that meets a criterion meets every weaker one. -/
theorem Value.Meets.mono (h : p.Implies q) : ∀ {value : Value}, value.Meets p → value.Meets q
  | .number _, hvalue => h.number hvalue
  | .text _, _ | .empty, _ | .absent, _ | .nothing, _ => trivial
  | .list _, hvalue => Value.AllMeet.mono h hvalue
  | .quoted _, hvalue => Node.Meets.mono h hvalue
  | .closure _ _ _ _, ⟨hidentity, hparams, hscope, hbody⟩ =>
    ⟨h.identity hidentity, fun param hparam => h.name (hparams param hparam), h.scope hscope,
      Node.Meets.mono h hbody⟩
  | .host _, hvalue => h.callable hvalue

/-- A list of values that meets a criterion meets every weaker one. -/
theorem Value.AllMeet.mono (h : p.Implies q) :
    ∀ {values : List Value}, Value.AllMeet p values → Value.AllMeet q values
  | [], _ => trivial
  | _ :: _, hvalues => ⟨Value.Meets.mono h hvalues.1, Value.AllMeet.mono h hvalues.2⟩

/-- A tree that meets a criterion meets every weaker one. -/
theorem Node.Meets.mono (h : p.Implies q) : ∀ {node : Node}, node.Meets p → node.Meets q
  | .identifier _, hnode => h.name hnode
  | .number _, hnode => h.number hnode
  | .string _, _ => trivial
  | .form _, hnode => Node.AllMeet.mono h hnode
  | .quote inner, hnode => show inner.Meets q from Node.Meets.mono h hnode
  | .constant _, hnode => Value.Meets.mono h hnode
  | .foreign _, hnode => ⟨h.foreign hnode.1, Value.Meets.mono h hnode.2⟩

/-- A row of trees that meets a criterion meets every weaker one. -/
theorem Node.AllMeet.mono (h : p.Implies q) :
    ∀ {nodes : List Node}, Node.AllMeet p nodes → Node.AllMeet q nodes
  | [], _ => trivial
  | _ :: _, hnodes => ⟨Node.Meets.mono h hnodes.1, Node.AllMeet.mono h hnodes.2⟩

end

/-- Bindings that meet a criterion meet every weaker one. -/
lemma Bindings.Meets.mono (h : p.Implies q) {bindings : Bindings} (hbindings : bindings.Meets p) :
    bindings.Meets q :=
  fun pair hpair => (hbindings pair hpair).mono h

/-- What a name is bound to meets the criterion of the bindings. -/
lemma Bindings.Meets.of_lookup {bindings : Bindings} (h : bindings.Meets p) {name : String}
    {value : Value} (hlookup : bindings.lookup name = some value) : value.Meets p := by
  obtain ⟨before, after, rfl, -⟩ := List.lookup_eq_some_iff.1 hlookup
  exact h (name, value) (List.mem_append_right _ (List.mem_cons_self ..))

/-! ## Assembled code -/

/-- A value meets a criterion as a part of assembled code too. -/
lemma Value.Meets.toNode {value : Value} (h : value.Meets p) : value.toNode.Meets p := by
  cases value with
  | quoted node => exact h
  | _ => exact h

/-- Code meets the criteria that the values meet from which it is assembled. -/
lemma Value.AllMeet.ofItems {items : List Value} (h : Value.AllMeet p items) :
    (Node.ofItems items).Meets p := by
  have hchildren : ∀ node ∈ items.map Value.toNode, node.Meets p := by
    intro node hnode
    obtain ⟨item, hitem, rfl⟩ := List.mem_map.1 hnode
    exact (Value.allMeet_iff.1 h item hitem).toNode
  exact Node.allMeet_iff.2 hchildren

/-! ## Texts -/

mutual

/-- A value has a text if all numbers in it do. -/
theorem Value.Meets.isSome_render (hp : p.Legible) (style : Style) :
    ∀ {value : Value}, value.Meets p → (value.render style).isSome
  | .number n, h => hp n h
  | .text _, _ | .empty, _ | .absent, _ | .nothing, _ | .host _, _ => rfl
  | .list _, h => by
    rw [Value.render, Option.isSome_map]
    exact Value.AllMeet.isSome_renderAll hp style h
  | .quoted _, h => by
    rw [Value.render, Option.isSome_map]
    exact Node.Meets.isSome_render hp style h
  | .closure _ _ _ _, h => by
    rw [Value.render, Option.isSome_map]
    exact Node.Meets.isSome_render hp .surface h.2.2.2

/-- All values of a list have a text if all numbers in them do. -/
theorem Value.AllMeet.isSome_renderAll (hp : p.Legible) (style : Style) :
    ∀ {values : List Value}, Value.AllMeet p values → (Value.renderAll style values).isSome
  | [], _ => rfl
  | _ :: _, h => by
    have hfirst := Value.Meets.isSome_render hp style h.1
    have hrest := Value.AllMeet.isSome_renderAll hp style h.2
    obtain ⟨text, htext⟩ := Option.isSome_iff_exists.1 hfirst
    obtain ⟨texts, htexts⟩ := Option.isSome_iff_exists.1 hrest
    rw [Value.renderAll, htext, htexts]
    rfl

/-- A tree has a text if all numbers in it do. -/
theorem Node.Meets.isSome_render (hp : p.Legible) (style : Style) :
    ∀ {node : Node}, node.Meets p → (node.render style).isSome
  | .identifier _, _ | .string _, _ => rfl
  | .number n, h => by
    rw [Node.render, Option.isSome_map]
    exact hp n h
  | .form _, h => by
    rw [Node.render, Option.isSome_map]
    exact Node.AllMeet.isSome_renderAll hp style h
  | .quote _, h => by
    rw [Node.render, Option.isSome_map]
    exact Node.Meets.isSome_render hp style h
  | .constant _, h => by
    rw [Node.render, Option.isSome_map]
    exact Value.Meets.isSome_render hp style h
  | .foreign _, h => Value.Meets.isSome_render hp .structural h.2

/-- All trees of a row have a text if all numbers in them do. -/
theorem Node.AllMeet.isSome_renderAll (hp : p.Legible) (style : Style) :
    ∀ {nodes : List Node}, Node.AllMeet p nodes → (Node.renderAll style nodes).isSome
  | [], _ => rfl
  | _ :: _, h => by
    have hfirst := Node.Meets.isSome_render hp style h.1
    have hrest := Node.AllMeet.isSome_renderAll hp style h.2
    obtain ⟨text, htext⟩ := Option.isSome_iff_exists.1 hfirst
    obtain ⟨texts, htexts⟩ := Option.isSome_iff_exists.1 hrest
    rw [Node.renderAll, htext, htexts]
    rfl

end

/-! ## Host procedures -/

/-- A sequence that yields a value does so by way of a value of its first part. -/
lemma Except.exists_of_bind_eq_ok {ε α β : Type} {first : Except ε α} {next : α → Except ε β}
    {value : β} (h : first >>= next = .ok value) :
    ∃ middle, first = .ok middle ∧ next middle = .ok value := by
  cases first with
  | error error => cases h
  | ok middle => exact ⟨middle, rfl, h⟩

/-- All that comparisons yield are numbers. -/
lemma Primitive.exists_number_of_compare {α : Type} {primitive : Primitive}
    {related : α → α → Bool} {arguments : List α} {value : Value}
    (h : compare primitive related arguments = .ok value) : ∃ n, value = .number n := by
  unfold compare at h
  split at h
  · cases h
  · exact ⟨_, (Except.ok.inj h).symm⟩

/-- All that primitives yield are numbers. -/
lemma Primitive.exists_number_of_run {primitive : Primitive} {arguments : List Value}
    {value : Value} (h : primitive.run arguments = .ok value) : ∃ n, value = .number n := by
  cases primitive with
  | add | sub | mul | div =>
    obtain ⟨numbers, -, hnumbers⟩ := Except.exists_of_bind_eq_ok h
    obtain ⟨n, -, hn⟩ := Except.exists_of_bind_eq_ok hnumbers
    exact ⟨n, (Except.ok.inj hn).symm⟩
  | equals => exact exists_number_of_compare h
  | less | greater =>
    obtain ⟨numbers, -, hnumbers⟩ := Except.exists_of_bind_eq_ok h
    exact exists_number_of_compare hnumbers

/-- All that calls of primitives yield are numbers. -/
lemma Primitive.exists_number_of_call {host : Host} {call : Nat} {primitive : Primitive}
    {arguments : List Value} {value : Value}
    (h : Callable.call host call arguments (.primitive primitive) = .ok value) :
    ∃ n, value = .number n := by
  rw [Callable.call] at h
  cases hrun : primitive.run arguments with
  | error failure =>
    rw [hrun] at h
    cases h
  | ok result =>
    obtain ⟨n, rfl⟩ := exists_number_of_run hrun
    rw [hrun] at h
    exact ⟨n.madeBy call, (Except.ok.inj h).symm⟩

/-- What a call yields is a number, if a primitive is called, or comes from a procedure of the
host. -/
lemma Callable.call_cases {host : Host} {call : Nat} {callable : Callable} {arguments : List Value}
    {value : Value} (h : callable.call host call arguments = .ok value) :
    (∃ n, value = .number n) ∨ ∃ procedure, host procedure call arguments = .ok value := by
  cases callable with
  | primitive primitive => exact .inl (Primitive.exists_number_of_call h)
  | function procedure => exact .inr ⟨procedure, h⟩
  | object procedure => exact .inr ⟨procedure, h⟩

/-- A host whose procedures yield only what a criterion allows if their arguments hold nothing
else. -/
def Host.StaysWithin (p : Criterion) (host : Host) : Prop :=
  ∀ procedure call arguments value, (∀ argument ∈ arguments, argument.Meets p) →
    host procedure call arguments = .ok value → value.Meets p

/-! ## Stores -/

namespace Store

variable {criteria : Nat → Criterion} {store : Store}

/-- The store without frames meets all criteria. -/
lemma meets_empty (criteria : Nat → Criterion) : Store.empty.Meets criteria := by
  intro index found hfound
  cases hfound

/-- What a name stands for is bound in one of the frames, or absent. -/
lemma lookup_cases (store : Store) (frame : FrameId) (name : String) :
    store.lookup frame name = .absent ∨
      ∃ (index : Nat) (found : Frame), store.frames[index]? = some found ∧
        (name, store.lookup frame name) ∈ found.bindings := by
  unfold Store.lookup
  cases hfind : (store.chain frame).findSome? fun frame => store.bound? frame name with
  | none => exact .inl rfl
  | some value =>
    obtain ⟨binder, -, hbound⟩ := List.exists_of_findSome?_eq_some hfind
    obtain ⟨found, hfound, hlookup⟩ := Option.bind_eq_some_iff.1 hbound
    obtain ⟨before, after, hbindings, -⟩ := List.lookup_eq_some_iff.1 hlookup
    refine .inr ⟨binder.index, found, hfound, ?_⟩
    rw [hbindings]
    exact List.mem_append_right _ (List.mem_cons_self ..)

/-- What a name stands for meets the criterion for the frame that comes next. -/
lemma Meets.lookup (h : store.Meets criteria)
    (hmono : ∀ {m n}, m ≤ n → (criteria m).Implies (criteria n)) (frame : FrameId)
    (name : String) : (store.lookup frame name).Meets (criteria store.frames.size) := by
  rcases store.lookup_cases frame name with habsent | ⟨index, found, hfound, hmem⟩
  · rw [habsent]
    trivial
  · obtain ⟨hindex, -⟩ := Array.getElem?_eq_some_iff.1 hfound
    have hvalue : (store.lookup frame name).Meets (criteria index) := (h _ _ hfound).2 _ hmem
    exact hvalue.mono (hmono (Nat.le_of_lt hindex))

/-- A new frame has to meet the criterion for the number that it gets. -/
lemma Meets.push (h : store.Meets criteria) {frame : Frame}
    (houter : ∀ outer, frame.outer = some outer → (criteria store.frames.size).scope outer)
    (hbindings : frame.bindings.Meets (criteria store.frames.size)) :
    (store.push frame).2.Meets criteria := by
  intro index found hfound
  simp only [Store.push, Array.getElem?_push] at hfound
  split at hfound
  · rename_i hindex
    obtain rfl := Option.some.inj hfound
    rw [hindex]
    exact ⟨houter, hbindings⟩
  · exact h index found hfound

/-- A new binding has to meet the criterion for the number of its frame. -/
lemma Meets.extend (h : store.Meets criteria) {frame : FrameId} (name : String) {value : Value}
    (hvalue : value.Meets (criteria frame.index)) :
    (store.extend frame name value).Meets criteria := by
  intro index found hfound
  simp only [Store.extend, Array.getElem?_modify] at hfound
  split at hfound
  · rename_i hindex
    obtain ⟨old, hold, rfl⟩ := Option.map_eq_some_iff.1 hfound
    obtain ⟨houter, hbindings⟩ := h index old hold
    refine ⟨houter, fun pair hpair => ?_⟩
    rcases List.mem_append.1 hpair with hpair | hpair
    · exact hbindings pair hpair
    · obtain rfl := List.mem_singleton.1 hpair
      rw [← hindex]
      exact hvalue
  · exact h index found hfound

/-- A new binding makes no frame. -/
lemma size_extend (store : Store) (frame : FrameId) (name : String) (value : Value) :
    (store.extend frame name value).frames.size = store.frames.size := by
  rw [Store.extend, Array.size_modify]

/-! ## Values that are bound -/

/-- All values that the frames bind have a property. -/
def AllBound (p : Value → Prop) (store : Store) : Prop :=
  ∀ (index : Nat) (found : Frame), store.frames[index]? = some found →
    ∀ pair ∈ found.bindings, p pair.2

section

variable {p : Value → Prop}

/-- The store without frames binds nothing. -/
lemma allBound_empty (p : Value → Prop) : Store.empty.AllBound p := by
  intro index found hfound
  cases hfound

/-- What a name stands for has every property that bound values and the absent value have. -/
lemma AllBound.lookup (h : store.AllBound p) (habsent : p .absent) (frame : FrameId)
    (name : String) : p (store.lookup frame name) := by
  rcases store.lookup_cases frame name with hlookup | ⟨index, found, hfound, hmem⟩
  · rw [hlookup]
    exact habsent
  · exact h index found hfound _ hmem

/-- The values of a new frame have to have the property. -/
lemma AllBound.push (h : store.AllBound p) {frame : Frame}
    (hbindings : ∀ pair ∈ frame.bindings, p pair.2) : (store.push frame).2.AllBound p := by
  intro index found hfound
  simp only [Store.push, Array.getElem?_push] at hfound
  split at hfound
  · obtain rfl := Option.some.inj hfound
    exact hbindings
  · exact h index found hfound

/-- The value of a new binding has to have the property. -/
lemma AllBound.extend (h : store.AllBound p) (frame : FrameId) (name : String) {value : Value}
    (hvalue : p value) : (store.extend frame name value).AllBound p := by
  intro index found hfound
  simp only [Store.extend, Array.getElem?_modify] at hfound
  split at hfound
  · obtain ⟨old, hold, rfl⟩ := Option.map_eq_some_iff.1 hfound
    intro pair hpair
    rcases List.mem_append.1 hpair with hpair | hpair
    · exact h index old hold pair hpair
    · obtain rfl := List.mem_singleton.1 hpair
      exact hvalue
  · exact h index found hfound

end

end Store

end Lisplet
