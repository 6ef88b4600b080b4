import Lisplet.Error
import Lisplet.Value.Render

/-!
# The frame store

Frames hold bindings of names to values, in the order in which they were made, and a link to an
outer frame. All frames of a run live in one store and are known by their numbers, so that closures
share the frames that they capture. The store only grows: a frame is never removed, and a name is
bound at most once in a frame.

A frame's chain is the frame itself, its outer frame, and so on. Links lead to older frames. The
value of a name is the one in the first frame of the chain that binds it.
-/

namespace Lisplet

/-- Bindings of names, in the order in which they were made. -/
abbrev Bindings := List (String × Value)

/-- Bindings with a name set to a value. A name that was there keeps its place. -/
def Bindings.put (name : String) (value : Value) : Bindings → Bindings
  | [] => [(name, value)]
  | (other, old) :: rest =>
    if other = name then (name, value) :: rest
    else (other, old) :: Bindings.put name value rest

/-- The bindings that a row of pairs makes, where the last pair of a name counts. -/
def Bindings.ofPairs (pairs : List (String × Value)) : Bindings :=
  pairs.foldl (fun bindings pair => Bindings.put pair.1 pair.2 bindings) []

/-- One scope of names. -/
structure Frame where
  /-- The bindings made in this frame. -/
  bindings : Bindings
  /-- The frame around this one. -/
  outer : Option FrameId

/-- All frames of a run, and the number of identities given out. -/
structure Store where
  /-- The frames, by number. -/
  frames : Array Frame
  /-- How many closures were made and host procedures called, which is the identity of the next
  closure or call. -/
  identities : Nat

namespace Store

/-- The store with no frames. -/
def empty : Store := ⟨#[], 0⟩

/-- A store that has given out one identity more. -/
def next (store : Store) : Store :=
  { store with identities := store.identities + 1 }

/-- A store with one more frame, and its number. -/
def push (store : Store) (frame : Frame) : FrameId × Store :=
  (⟨store.frames.size⟩, { store with frames := store.frames.push frame })

/-- A store with one more frame that has no bindings and lies inside a given one. -/
def child (store : Store) (outer : FrameId) : FrameId × Store :=
  store.push ⟨[], some outer⟩

/-- A store with one more frame that has the given bindings and no outer frame. -/
def root (store : Store) (bindings : Bindings) : FrameId × Store :=
  store.push ⟨bindings, none⟩

/-- The first frames of a chain, at most a given number of them. -/
def chainWithin (store : Store) : Nat → FrameId → List FrameId
  | 0, _ => []
  | steps + 1, frame =>
    match store.frames[frame.index]? with
    | none => []
    | some found =>
      frame :: match found.outer with
        | none => []
        | some outer => if outer.index < frame.index then store.chainWithin steps outer else []

/-- The chain of a frame. Since links lead to older frames, its length is bounded by the number of
the frame. -/
def chain (store : Store) (frame : FrameId) : List FrameId :=
  store.chainWithin (frame.index + 1) frame

/-- A bound above the number of a frame does not cut its chain short. -/
theorem chainWithin_eq_chainWithin (store : Store) {m n : Nat} {frame : FrameId}
    (hm : frame.index < m) (hn : frame.index < n) :
    store.chainWithin m frame = store.chainWithin n frame := by
  induction m generalizing n frame with
  | zero => omega
  | succ m ih =>
    obtain ⟨n, rfl⟩ : ∃ k, n = k + 1 := ⟨n - 1, by omega⟩
    simp only [chainWithin]
    cases store.frames[frame.index]? with
    | none => rfl
    | some found =>
      obtain ⟨bindings, outer⟩ := found
      cases outer with
      | none => rfl
      | some outer =>
        by_cases hlt : outer.index < frame.index
        · simp only [hlt, ↓reduceIte, List.cons.injEq, true_and]
          exact ih (by omega) (by omega)
        · simp only [hlt, ↓reduceIte]

/-- A chain is its first frame followed by the chain of the outer frame. -/
theorem chain_eq (store : Store) (frame : FrameId) :
    store.chain frame =
      match store.frames[frame.index]? with
      | none => []
      | some found =>
        frame :: match found.outer with
          | none => []
          | some outer => if outer.index < frame.index then store.chain outer else [] := by
  rw [chain, chainWithin]
  cases store.frames[frame.index]? with
  | none => rfl
  | some found =>
    obtain ⟨bindings, outer⟩ := found
    cases outer with
    | none => rfl
    | some outer =>
      by_cases hlt : outer.index < frame.index
      · simp only [hlt, ↓reduceIte, List.cons.injEq, true_and]
        exact store.chainWithin_eq_chainWithin hlt (Nat.lt_succ_self outer.index)
      · simp only [hlt, ↓reduceIte]

/-- The value that one frame binds to a name. -/
def bound? (store : Store) (frame : FrameId) (name : String) : Option Value :=
  store.frames[frame.index]?.bind fun found => found.bindings.lookup name

/-- The first frame of a chain that binds a name. -/
def find? (store : Store) (frame : FrameId) (name : String) : Option FrameId :=
  (store.chain frame).find? fun frame => (store.bound? frame name).isSome

/-- The value of a name, `absent` when nothing binds it. -/
def lookup (store : Store) (frame : FrameId) (name : String) : Value :=
  ((store.chain frame).findSome? fun frame => store.bound? frame name).getD .absent

/-- A store in which a frame has one more binding. -/
def extend (store : Store) (frame : FrameId) (name : String) (value : Value) : Store :=
  { store with frames :=
      store.frames.modify frame.index fun found =>
        { found with bindings := found.bindings ++ [(name, value)] } }

/-- Binds a name in a frame, unless that frame binds it already. -/
@[inline]
def bind (store : Store) (frame : FrameId) (name : String) (value : Value) :
    Except Error Store :=
  if (store.bound? frame name).isSome then .error (.duplicateName name)
  else .ok (store.extend frame name value)

/-- Binds a name that is given as a value, which has to be a text. -/
def define (store : Store) (frame : FrameId) (name value : Value) : Except Error Store :=
  match name with
  | .text name => store.bind frame name value
  | other => .error (Error.naming other.inspect .nameNotText)

/-- Binds names in a frame one after the other, up to the first that cannot be bound. -/
def update (store : Store) (frame : FrameId) : List (Value × Value) → Except Error Unit × Store
  | [] => (.ok (), store)
  | (name, value) :: rest =>
    match store.define frame name value with
    | .ok store => store.update frame rest
    | .error error => (.error error, store)

end Store

/-! ## Texts of frames

A frame is shown as its bindings in order, with the values in the structural style. One view shows a
frame and whether there is another around it, the other one shows the whole chain. -/

/-- The texts of bindings in order. -/
def Bindings.inspect : Bindings → Option (List String)
  | [] => some []
  | (name, value) :: rest => do
    let shown ← value.inspect
    let others ← Bindings.inspect rest
    return (name ++ ": " ++ shown) :: others

/-- The text of the bindings of a frame. -/
def Frame.inspect (frame : Frame) : Option String :=
  (Bindings.inspect frame.bindings).map fun shown => "\x7b" ++ Text.joined ", " shown ++ "\x7d"

namespace Store

/-- The text of the bindings of a frame in a store. -/
def inspectFrame (store : Store) (frame : FrameId) : Option String :=
  store.frames[frame.index]?.bind Frame.inspect

/-- A frame by itself, with a hint at the frames around it. -/
def describe (store : Store) (frame : FrameId) : Option String :=
  store.frames[frame.index]?.bind fun found =>
    found.inspect.map fun shown => if found.outer.isSome then shown ++ " -> ..." else shown

/-- The texts of a row of frames. -/
def inspectFrames (store : Store) : List FrameId → Option (List String)
  | [] => some []
  | frame :: rest => do
    let shown ← store.inspectFrame frame
    let others ← store.inspectFrames rest
    return shown :: others

/-- A frame and all frames around it. -/
def describeChain (store : Store) (frame : FrameId) : Option String :=
  (store.inspectFrames (store.chain frame)).map fun shown =>
    "<Environment chain: " ++ Text.joined " -> " shown ++ ">"

end Store

end Lisplet
