import Lisplet.Outlet
import Lisplet.Store

/-!
# Actions on the store

Evaluation is written in terms of actions. An action takes the store, and either runs out of the
steps it was allowed or yields an outcome: a result, the store afterwards, and the events on the
way. An action that fails ends the actions that would come after it, and keeps the store and the
events up to the failure.
-/

namespace Lisplet

/-- What an action leaves behind. -/
structure Outcome (α : Type) where
  /-- The result or the error. -/
  result : Except Error α
  /-- The store afterwards. -/
  store : Store
  /-- The events in order. -/
  events : List Event

namespace Outcome

/-- An outcome with events that happened before. -/
def after {α : Type} (earlier : List Event) (outcome : Outcome α) : Outcome α :=
  { outcome with events := earlier ++ outcome.events }

end Outcome

/-- A step-limited computation on the store. The value `none` means that the limit was met. -/
def Action (α : Type) : Type :=
  Store → Option (Outcome α)

namespace Action

variable {α β γ : Type}

/-- Yields a value and does nothing. -/
def yield (value : α) : Action α :=
  fun store => some ⟨.ok value, store, []⟩

/-- Fails. -/
def fail (error : Error) : Action α :=
  fun store => some ⟨.error error, store, []⟩

/-- Runs one action and then the one that its value selects. -/
def andThen (first : Action α) (next : α → Action β) : Action β :=
  fun store =>
    match first store with
    | none => none
    | some ⟨.error error, store, events⟩ => some ⟨.error error, store, events⟩
    | some ⟨.ok value, store, events⟩ => (next value store).map (Outcome.after events)

/-- Doing nothing first changes nothing. -/
theorem yield_andThen (value : α) (next : α → Action β) :
    andThen (yield value) next = next value := by
  funext store
  cases h : next value store <;> simp [andThen, yield, h, Outcome.after]

/-- Doing nothing afterwards changes nothing. -/
theorem andThen_yield (action : Action α) : andThen action yield = action := by
  funext store
  rcases h : action store with _ | ⟨_ | _, _, _⟩ <;> simp [andThen, yield, h, Outcome.after]

/-- Only the order of actions counts, not how they are grouped. -/
theorem andThen_assoc (action : Action α) (next : α → Action β) (last : β → Action γ) :
    andThen (andThen action next) last = andThen action fun value => andThen (next value) last := by
  funext store
  rcases h : action store with _ | ⟨_ | value, middle, _⟩
  · simp [andThen, h]
  · simp [andThen, h]
  · rcases h' : next value middle with _ | ⟨_ | result, final, _⟩
    · simp [andThen, h, h']
    · simp [andThen, h, h', Outcome.after]
    · cases h'' : last result final <;> simp [andThen, h, h', h'', Outcome.after]

instance : Monad Action where
  pure := yield
  bind := andThen

instance : LawfulMonad Action :=
  LawfulMonad.mk' Action andThen_yield yield_andThen andThen_assoc

/-- Meets the limit. -/
def exhausted : Action α :=
  fun _ => none

/-- Yields a result that may be an error. -/
def ofResult (result : Except Error α) : Action α :=
  fun store => some ⟨result, store, []⟩

/-- Lets events happen. -/
def emit (events : List Event) : Action Unit :=
  fun store => some ⟨.ok (), store, events⟩

/-- Makes a debug record. -/
def trace (channel : Channel) (message : String) : Action Unit :=
  emit [.logged ⟨channel, .debug, message⟩]

/-- The value of a name in a frame. -/
def lookup (frame : FrameId) (name : String) : Action Value :=
  fun store => some ⟨.ok (store.lookup frame name), store, []⟩

/-- Makes a new frame inside a given one. -/
def child (outer : FrameId) : Action FrameId :=
  fun store =>
    let (frame, store) := store.child outer
    some ⟨.ok frame, store, []⟩

/-- Binds a name in a frame. -/
def bind (frame : FrameId) (name : String) (value : Value) : Action Unit :=
  fun store =>
    match store.bind frame name value with
    | .ok store => some ⟨.ok (), store, []⟩
    | .error error => some ⟨.error error, store, []⟩

/-- Makes a new closure. -/
def newClosure (params : List String) (body : Node) (scope : FrameId) : Action Value :=
  fun store =>
    some ⟨.ok (.closure store.identities params body scope), store.next, []⟩

/-- Binds names in a frame one after the other. -/
def bindAll (frame : FrameId) : Bindings → Action Unit
  | [] => pure ()
  | (name, value) :: rest => do
    bind frame name value
    bindAll frame rest

end Action

end Lisplet
