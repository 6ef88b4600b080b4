import Lisplet.Proofs.Machine.Agreement
import Lisplet.Proofs.Machine.Discipline
import Mathlib.Logic.Relation
import Mathlib.Order.WellFounded

/-!
# The order of frames

Frames are numbered in the order of creation. In the course of a run that is given no closures, a
frame only ever refers to older frames: its link leads to one, and so does every closure that occurs
in a value bound in it, be it inside a list, in quoted code, or in the body of another closure.

The reason is that a frame is filled with values that were there before the frame was. This holds at
every moment of a run, and so the frames never form a cycle: links can be followed only so far, and
a closure that is bound to a name cannot see that binding.
-/

namespace Lisplet

/-! ## Captured frames -/

mutual

/-- The frames that the closures in a value capture, at any depth. -/
def Value.captured : Value → List FrameId
  | .list items => Value.capturedAll items
  | .quoted node => node.captured
  | .closure _ _ body scope => scope :: body.captured
  | .number _ | .text _ | .empty | .absent | .nothing | .host _ => []

/-- The frames that the closures in a list of values capture. -/
def Value.capturedAll : List Value → List FrameId
  | [] => []
  | value :: rest => value.captured ++ Value.capturedAll rest

/-- The frames that the closures in a tree capture. -/
def Node.captured : Node → List FrameId
  | .form children => Node.capturedAll children
  | .quote inner => inner.captured
  | .constant value | .foreign value => value.captured
  | .identifier _ | .number _ | .string _ => []

/-- The frames that the closures in a row of trees capture. -/
def Node.capturedAll : List Node → List FrameId
  | [] => []
  | node :: rest => node.captured ++ Node.capturedAll rest

end

/-- Only the captured frames matter. -/
def Criterion.captures (allowed : FrameId → Prop) : Criterion :=
  { any with scope := allowed }

section

variable {allowed : FrameId → Prop}

mutual

/-- The captured frames of a value are those that the criterion is about. -/
theorem Value.meets_captures_iff : ∀ {value : Value},
    value.Meets (.captures allowed) ↔ ∀ frame ∈ value.captured, allowed frame
  | .number _ | .text _ | .empty | .absent | .nothing | .host _ =>
    ⟨fun _ _ h => absurd h List.not_mem_nil, fun _ => trivial⟩
  | .list items => show Value.AllMeet _ items ↔ _ from Value.allMeet_captures_iff
  | .quoted node => show node.Meets _ ↔ _ from Node.meets_captures_iff
  | .closure _ _ body scope => by
    rw [Value.captured, List.forall_mem_cons, ← Node.meets_captures_iff]
    exact ⟨fun h => h.2.2, fun h => ⟨trivial, fun _ _ => trivial, h⟩⟩

/-- The captured frames of a list are those that the criterion is about. -/
theorem Value.allMeet_captures_iff : ∀ {values : List Value},
    Value.AllMeet (.captures allowed) values ↔ ∀ frame ∈ Value.capturedAll values, allowed frame
  | [] => ⟨fun _ _ h => absurd h List.not_mem_nil, fun _ => trivial⟩
  | value :: rest => by
    rw [Value.capturedAll, List.forall_mem_append, ← Value.meets_captures_iff,
      ← Value.allMeet_captures_iff]
    exact Iff.rfl

/-- The captured frames of a tree are those that the criterion is about. -/
theorem Node.meets_captures_iff : ∀ {node : Node},
    node.Meets (.captures allowed) ↔ ∀ frame ∈ node.captured, allowed frame
  | .identifier _ | .number _ | .string _ =>
    ⟨fun _ _ h => absurd h List.not_mem_nil, fun _ => trivial⟩
  | .form children => show Node.AllMeet _ children ↔ _ from Node.allMeet_captures_iff
  | .quote inner => show inner.Meets _ ↔ _ from Node.meets_captures_iff
  | .constant value => show value.Meets _ ↔ _ from Value.meets_captures_iff
  | .foreign value => by
    rw [Node.captured, ← Value.meets_captures_iff]
    exact ⟨fun h => h.2, fun h => ⟨trivial, h⟩⟩

/-- The captured frames of a row are those that the criterion is about. -/
theorem Node.allMeet_captures_iff : ∀ {nodes : List Node},
    Node.AllMeet (.captures allowed) nodes ↔ ∀ frame ∈ Node.capturedAll nodes, allowed frame
  | [] => ⟨fun _ _ h => absurd h List.not_mem_nil, fun _ => trivial⟩
  | node :: rest => by
    rw [Node.capturedAll, List.forall_mem_append, ← Node.meets_captures_iff,
      ← Node.allMeet_captures_iff]
    exact Iff.rfl

end

/-- Without closures no frame is captured. -/
lemma Criterion.closureFree_captures : closureFree.Implies (captures allowed) where
  number := id
  name := id
  identity := False.elim
  scope := False.elim
  callable := id
  foreign := id

end

/-- A host whose procedures build their results from their arguments and from data without
closures. -/
def Host.MakesNoClosures (host : Host) : Prop :=
  ∀ procedure call arguments value, host procedure call arguments = .ok value →
    ∀ frame ∈ value.captured, ∃ argument ∈ arguments, frame ∈ argument.captured

/-! ## The discipline -/

/-- Closures capture frames that are older than what they are bound in. -/
def Machine.Discipline.ordered {host : Host} (h : host.MakesNoClosures) :
    Machine.Discipline host where
  allows n := .captures fun frame => frame.index < n
  error _ := True
  mono hmn := ⟨id, id, id, fun hframe => Nat.lt_of_lt_of_le hframe hmn, id, id⟩
  scope_of_lt hframe := hframe
  identity_any _ _ := trivial
  call := by
    intro n callable arguments call _ harguments
    refine ⟨fun value hvalue => ?_, fun _ _ => trivial⟩
    rcases Callable.call_cases hvalue with ⟨n, rfl⟩ | ⟨procedure, hcall⟩
    · trivial
    · refine Value.meets_captures_iff.2 fun frame hframe => ?_
      obtain ⟨argument, hargument, hcaptured⟩ :=
        h procedure call arguments value hcall frame hframe
      have hmeets := Value.allMeet_iff.1 harguments argument hargument
      exact Value.meets_captures_iff.1 hmeets frame hcaptured
  error_of_program _ := trivial
  error_illegible _ := trivial
  error_foreign _ := trivial

/-! ## Stores without cycles -/

namespace Store

/-- The first frame lies directly around the second. -/
def Encloses (store : Store) (outer inner : FrameId) : Prop :=
  ∃ found, store.frames[inner.index]? = some found ∧ found.outer = some outer

/-- A frame has a binding of a name to a value. -/
def Binds (store : Store) (frame : FrameId) (name : String) (value : Value) : Prop :=
  ∃ found, store.frames[frame.index]? = some found ∧ (name, value) ∈ found.bindings

/-- Frames refer to older frames only, and what follows from it. -/
structure Acyclic (store : Store) : Prop where
  /-- Links lead to older frames. -/
  outer_lt : ∀ outer inner, store.Encloses outer inner → outer.index < inner.index
  /-- Closures in the values of a frame capture older frames. -/
  captured_lt : ∀ frame name value, store.Binds frame name value →
    ∀ scope ∈ value.captured, scope.index < frame.index
  /-- Links cannot be followed forever. -/
  wellFounded : WellFounded store.Encloses
  /-- The frames in which a name is looked up are those that links lead to. -/
  mem_chain_iff : ∀ frame seen, seen ∈ store.chain frame ↔
    frame.index < store.frames.size ∧ Relation.ReflTransGen store.Encloses seen frame
  /-- No closure sees a binding of which it is a part. -/
  not_mem_chain : ∀ frame name value, store.Binds frame name value →
    ∀ scope ∈ value.captured, frame ∉ store.chain scope

variable {store : Store}

/-- Links lead to the frame itself and to what they lead to from the frame around it. -/
lemma reflTransGen_encloses_iff {seen frame : FrameId} :
    Relation.ReflTransGen store.Encloses seen frame ↔
      seen = frame ∨ ∃ outer, store.Encloses outer frame ∧
        Relation.ReflTransGen store.Encloses seen outer := by
  rw [Relation.ReflTransGen.cases_tail_iff]
  exact or_congr eq_comm (exists_congr fun _ => and_comm)

/-- If links lead to older frames, they lead to no younger one. -/
lemma index_le_of_reflTransGen (h : ∀ outer inner, store.Encloses outer inner →
      outer.index < inner.index) {seen frame : FrameId}
    (hseen : Relation.ReflTransGen store.Encloses seen frame) : seen.index ≤ frame.index := by
  induction hseen with
  | refl => exact Nat.le_refl _
  | tail _ hlast ih => exact Nat.le_trans ih (Nat.le_of_lt (h _ _ hlast))

/-- If links lead to older frames, a chain consists of all frames that links lead to. -/
lemma mem_chain_iff_of_lt
    (h : ∀ outer inner, store.Encloses outer inner → outer.index < inner.index)
    (frame seen : FrameId) :
    seen ∈ store.chain frame ↔
      frame.index < store.frames.size ∧ Relation.ReflTransGen store.Encloses seen frame := by
  induction hindex : frame.index using Nat.strongRecOn generalizing frame with
  | ind index ih =>
    subst hindex
    rw [chain_eq, reflTransGen_encloses_iff]
    cases hframe : store.frames[frame.index]? with
    | none =>
      have hsize := Array.getElem?_eq_none_iff.1 hframe
      simp only [List.not_mem_nil, false_iff, not_and]
      intro hlt
      omega
    | some found =>
      obtain ⟨hsize, -⟩ := Array.getElem?_eq_some_iff.1 hframe
      have hencloses : ∀ outer, store.Encloses outer frame ↔ found.outer = some outer := by
        intro outer
        constructor
        · rintro ⟨found', hfound', houter⟩
          obtain rfl := Option.some.inj (hframe.symm.trans hfound')
          exact houter
        · exact fun houter => ⟨found, hframe, houter⟩
      simp only [List.mem_cons, hsize, true_and, hencloses]
      refine or_congr_right ?_
      cases houter : found.outer with
      | none => simp
      | some outer =>
        have hlt : outer.index < frame.index := h _ _ ((hencloses outer).2 houter)
        simp only [hlt, ↓reduceIte, Option.some.injEq, exists_eq_left']
        rw [ih outer.index hlt outer rfl]
        exact and_iff_right (Nat.lt_trans hlt hsize)

/-- A store that meets the order of frames has no cycles. -/
lemma Meets.acyclic (h : store.Meets fun n => .captures fun frame => frame.index < n) :
    store.Acyclic := by
  have houter : ∀ outer inner, store.Encloses outer inner → outer.index < inner.index := by
    rintro outer inner ⟨found, hfound, hlink⟩
    exact (h _ _ hfound).1 outer hlink
  have hcaptured : ∀ frame name value, store.Binds frame name value →
      ∀ scope ∈ value.captured, scope.index < frame.index := by
    rintro frame name value ⟨found, hfound, hmem⟩
    exact Value.meets_captures_iff.1 ((h _ _ hfound).2 (name, value) hmem)
  refine ⟨houter, hcaptured, ?_, mem_chain_iff_of_lt houter, ?_⟩
  · exact Subrelation.wf (houter _ _) (InvImage.wf FrameId.index Nat.lt_wfRel.wf)
  · intro frame name value hbinds scope hscope hmem
    obtain ⟨-, hseen⟩ := (mem_chain_iff_of_lt houter scope frame).1 hmem
    have hle := index_le_of_reflTransGen houter hseen
    have hlt := hcaptured frame name value hbinds scope hscope
    omega

end Store

/-! ## Runs -/

/-- If a run is given no closures, its store has no cycles at any moment, whether the run ends or
not, and also at its end. -/
theorem acyclic_at_every_moment (context : Context) (hhost : context.host.MakesNoClosures)
    (bindings : Bindings) (hbindings : bindings.Meets .closureFree) (node : Node)
    (hnode : node.Meets .closureFree) :
    (∀ steps state, Machine.run context.host steps (Machine.initial bindings node) = some state →
      state.memory.store.Acyclic) ∧
    ∀ fuel,
      match interpret context fuel Store.empty bindings node with
      | some outcome => outcome.store.Acyclic ∧
        ∃ steps, Machine.run context.host steps (Machine.initial bindings node) =
          some (Machine.final outcome.result outcome.store (Event.printings outcome.events))
      | none => ∃ state, Machine.run context.host fuel (Machine.initial bindings node) =
          some state := by
  have hinitial : (Machine.Discipline.ordered hhost).Keeps (Machine.initial bindings node) :=
    Machine.Discipline.keeps_initial (hbindings.mono Criterion.closureFree_captures)
      (hnode.mono Criterion.closureFree_captures)
  have hmoments : ∀ steps state,
      Machine.run context.host steps (Machine.initial bindings node) = some state →
        state.memory.store.Acyclic :=
    fun _ _ hrun => (hinitial.run hrun).memory.store.acyclic
  refine ⟨hmoments, fun fuel => ?_⟩
  cases houtcome : interpret context fuel Store.empty bindings node with
  | some outcome =>
    obtain ⟨steps, hrun⟩ := Machine.reaches_of_evaluate houtcome
    have hacyclic := hmoments steps _ hrun
    rw [Machine.store_final] at hacyclic
    exact ⟨hacyclic, steps, hrun⟩
  | none => exact Option.isSome_iff_exists.1 (Machine.lasts_of_evaluate houtcome)

/-- The form `(let ((f (lambda (x) x))) (let ((g (pack f))) (first g)))`. -/
def packedClosure : Node :=
  .special .letIn [.form [.form [.identifier "f",
      .special .lambda [.form [.identifier "x"], .identifier "x"]]],
    .special .letIn [.form [.form [.identifier "g", .form [.identifier "pack", .identifier "f"]]],
      .special .first [.identifier "g"]]]

/-- A procedure of the host puts a closure into a list. The frame that binds the list is not the one
that the closure captures, and cannot be seen from there. -/
theorem acyclic_packedClosure :
    ∃ outcome, interpret ⟨.capture, fun _ _ arguments => .ok (.list arguments)⟩ 8 Store.empty
        [("pack", .host (.function ⟨0, "pack"⟩))] packedClosure = some outcome ∧
      outcome.store.frames[2]? =
        some ⟨[("g", .list [.closure 0 ["x"] (.identifier "x") ⟨0⟩])], some ⟨1⟩⟩ ∧
      (⟨2⟩ : FrameId) ∉ outcome.store.chain ⟨0⟩ := by
  have hhost : Host.MakesNoClosures fun _ _ arguments => .ok (.list arguments) := by
    intro procedure call arguments value hvalue frame hframe
    obtain rfl := Except.ok.inj hvalue
    by_contra hnone
    have hmeets : Value.AllMeet (.captures fun other => other ≠ frame) arguments :=
      Value.allMeet_iff.2 fun argument hargument =>
        Value.meets_captures_iff.2 fun other hother heq =>
          hnone ⟨argument, hargument, heq ▸ hother⟩
    exact Value.allMeet_captures_iff.1 hmeets frame hframe rfl
  have hbindings : Bindings.Meets .closureFree [("pack", .host (.function ⟨0, "pack"⟩))] := by
    intro pair hpair
    obtain rfl := List.mem_singleton.1 hpair
    trivial
  have hnode : packedClosure.Meets .closureFree := by
    simp [packedClosure, Node.special, Node.Meets, Node.AllMeet, Criterion.closureFree,
      Criterion.any]
  obtain ⟨outcome, houtcome, hframe⟩ : ∃ outcome,
      interpret ⟨.capture, fun _ _ arguments => .ok (.list arguments)⟩ 8 Store.empty
        [("pack", .host (.function ⟨0, "pack"⟩))] packedClosure = some outcome ∧
      outcome.store.frames[2]? =
        some ⟨[("g", .list [.closure 0 ["x"] (.identifier "x") ⟨0⟩])], some ⟨1⟩⟩ :=
    ⟨_, rfl, rfl⟩
  have hrun := (acyclic_at_every_moment ⟨.capture, fun _ _ arguments => .ok (.list arguments)⟩
    hhost _ hbindings packedClosure hnode).2 8
  rw [houtcome] at hrun
  refine ⟨outcome, houtcome, hframe, ?_⟩
  have hbinds : outcome.store.Binds ⟨2⟩ "g" (.list [.closure 0 ["x"] (.identifier "x") ⟨0⟩]) :=
    ⟨_, hframe, List.mem_cons_self ..⟩
  exact hrun.1.not_mem_chain ⟨2⟩ _ _ hbinds ⟨0⟩ (List.mem_cons_self ..)

end Lisplet
