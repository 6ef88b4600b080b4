import Lisplet.Proofs.Renaming.Lockstep
import Lisplet.Proofs.Semantics.Growth

/-!
# A run inside a larger store

A single run begins with one frame, the root, that holds its bindings. The same evaluation can take
place in a store that has other frames already, from a base frame in which every name has the value
that it has in the root. The base may be a frame with the same bindings, or an empty frame inside
one.

The two evaluations differ by a renaming, `Renaming.mount`: the root becomes the base, the frames
that are made later are counted on from the frames that were there, and so are the identities of
closures and calls. The relation between the two stores is `Store.Mounted`. It is carried by the
renaming, so that the two evaluations go in lockstep.
-/

namespace Lisplet

/-! ## Frames under renaming -/

/-- A frame after a renaming. -/
def Frame.rename (ρ : Renaming) (frame : Frame) : Frame :=
  ⟨frame.bindings.rename ρ, frame.outer.map ρ.frame⟩

/-- A renamed name is bound to the renamed value. -/
lemma Bindings.lookup_rename (ρ : Renaming) (bindings : Bindings) (name : String) :
    (bindings.rename ρ).lookup (ρ.name name) = (bindings.lookup name).map (Value.rename ρ) := by
  induction bindings with
  | nil => rfl
  | cons pair rest ih =>
    obtain ⟨other, value⟩ := pair
    change List.lookup (ρ.name name) ((ρ.name other, value.rename ρ) :: Bindings.rename ρ rest) = _
    rw [List.lookup_cons, List.lookup_cons, ih]
    have hbeq : (ρ.name name == ρ.name other) = (name == other) := by
      rw [Bool.eq_iff_iff, beq_iff_eq, beq_iff_eq, ρ.name_injective.eq_iff]
    rw [hbeq]
    cases name == other <;> rfl

/-! ## The renaming -/

/-- The root becomes the base frame, all other frames move up, and so do identities. -/
def Renaming.mount (base : FrameId) (offset made : Nat) (h : base.index ≤ offset) : Renaming where
  name := id
  frame frame := if frame.index = 0 then base else ⟨frame.index + offset⟩
  identity identity := identity + made
  name_injective := Function.injective_id
  frame_injective := by
    rintro ⟨first⟩ ⟨second⟩ heq
    have hindex := congrArg FrameId.index heq
    simp only at hindex
    split at hindex <;> split at hindex <;> simp only at hindex <;>
      exact congrArg FrameId.mk (by omega)
  identity_injective := fun _ _ heq => Nat.add_right_cancel heq
  name_special _ := rfl

section

variable {base : FrameId} {offset made : Nat} {h : base.index ≤ offset}

/-- Mounting keeps names. -/
lemma keepsNames_mount : (Renaming.mount base offset made h).KeepsNames :=
  fun _ => rfl

/-- Frames other than the root move up. -/
lemma mount_frame_of_pos {frame : FrameId} (hframe : 0 < frame.index) :
    (Renaming.mount base offset made h).frame frame = ⟨frame.index + offset⟩ :=
  if_neg (Nat.ne_of_gt hframe)

/-- The root becomes the base frame. -/
lemma mount_frame_of_zero {frame : FrameId} (hframe : frame.index = 0) :
    (Renaming.mount base offset made h).frame frame = base :=
  if_pos hframe

/-- The renaming keeps the order of frames, as far as links between frames are concerned. -/
lemma mount_frame_lt_iff {index : Nat} (hindex : 0 < index) {outer : FrameId} :
    ((Renaming.mount base offset made h).frame outer).index < index + offset ↔
      outer.index < index := by
  rcases Nat.eq_zero_or_pos outer.index with hzero | hpos
  · rw [mount_frame_of_zero hzero]
    omega
  · rw [mount_frame_of_pos hpos]
    exact Nat.add_lt_add_iff_right

/-! ## The relation between the stores -/

/-- The frames of a single run, apart from its root, stand after the other frames of a larger store,
and in the base frame of that store names have the values that they have in the root. -/
structure Store.Mounted (bindings : Bindings) (base : FrameId) (offset made : Nat)
    (h : base.index ≤ offset) (single larger : Store) : Prop where
  /-- The root of the single run holds the bindings. -/
  root : single.frames[0]? = some ⟨bindings, none⟩
  base_lt : base.index < larger.frames.size
  /-- In the base frame names have the values that the bindings give them. -/
  lookup_base : ∀ name, larger.lookup base name = (bindings.lookup name).getD .absent
  size : larger.frames.size = single.frames.size + offset
  /-- The frames after the root are the same up to the renaming. -/
  frames : ∀ index, 0 < index → larger.frames[index + offset]? =
    single.frames[index]?.map (Frame.rename (Renaming.mount base offset made h))
  identities : larger.identities = single.identities + made

namespace Store.Mounted

variable {bindings : Bindings} {single larger : Store}

/-- The single run has a root. -/
lemma single_size_pos (hm : Store.Mounted bindings base offset made h single larger) :
    0 < single.frames.size := by
  obtain ⟨hsize, -⟩ := Array.getElem?_eq_some_iff.1 hm.root
  exact hsize

/-- Names have corresponding values in corresponding frames. -/
lemma lookup (hm : Store.Mounted bindings base offset made h single larger)
    (hgiven : bindings.Meets .given) (frame : FrameId) (name : String) :
    larger.lookup ((Renaming.mount base offset made h).frame frame) name =
      (single.lookup frame name).rename (Renaming.mount base offset made h) := by
  induction hindex : frame.index using Nat.strongRecOn generalizing frame with
  | ind index ih =>
    subst hindex
    rcases Nat.eq_zero_or_pos frame.index with hzero | hpos
    · -- At the root, the bindings are looked up on both sides.
      rw [mount_frame_of_zero hzero, hm.lookup_base, Store.lookup_eq single, hzero, hm.root]
      dsimp only
      cases hlookup : bindings.lookup name with
      | none => rfl
      | some value =>
        exact ((hgiven.of_lookup hlookup).rename_eq keepsNames_mount.fixes_given).symm
    · rw [mount_frame_of_pos hpos, Store.lookup_eq larger, Store.lookup_eq single,
        hm.frames frame.index hpos]
      cases single.frames[frame.index]? with
      | none => rfl
      | some found =>
        have hlookup : (found.bindings.rename (Renaming.mount base offset made h)).lookup name =
            (found.bindings.lookup name).map (Value.rename (Renaming.mount base offset made h)) :=
          Bindings.lookup_rename (Renaming.mount base offset made h) found.bindings name
        simp only [Option.map_some, Frame.rename, hlookup]
        cases found.bindings.lookup name with
        | some value => rfl
        | none =>
          cases found.outer with
          | none => rfl
          | some outer =>
            simp only [Option.map_some, Option.map_none, mount_frame_lt_iff hpos]
            by_cases hlt : outer.index < frame.index
            · rw [if_pos hlt, if_pos hlt]
              exact ih outer.index hlt outer rfl
            · rw [if_neg hlt, if_neg hlt]
              rfl

/-- Corresponding new frames keep a run mounted. -/
lemma push (hm : Store.Mounted bindings base offset made h single larger) (inner : Bindings)
    (outer : FrameId) :
    Store.Mounted bindings base offset made h (single.push ⟨inner, some outer⟩).2
      (larger.push ⟨inner.rename (Renaming.mount base offset made h),
        some ((Renaming.mount base offset made h).frame outer)⟩).2 := by
  refine ⟨?_, ?_, ?_, ?_, ?_, hm.identities⟩
  · exact Store.getElem?_push_of_some hm.root _
  · simp only [Store.push, Array.size_push]
    exact Nat.lt_succ_of_lt hm.base_lt
  · intro name
    rw [Store.lookup_eq_of_kept (fun _ _ hfound => Store.getElem?_push_of_some hfound _) hm.base_lt]
    exact hm.lookup_base name
  · simp only [Store.push, Array.size_push, hm.size]
    omega
  · intro index hindex
    simp only [Store.push, Array.getElem?_push, hm.size]
    by_cases hnew : index = single.frames.size
    · subst hnew
      simp [Frame.rename]
    · rw [if_neg hnew, if_neg (by omega)]
      exact hm.frames index hindex

end Store.Mounted

/-- The renaming carries the relation, so evaluations in the two stores go in lockstep. -/
lemma carries_mounted {bindings : Bindings} (hgiven : bindings.Meets .given) :
    (Renaming.mount base offset made h).Carries
      (Store.Mounted bindings base offset made h) where
  lookup hm frame name := hm.lookup hgiven frame name
  next := by
    intro single larger hm
    have hframe : (Renaming.mount base offset made h).frame ⟨single.frames.size⟩ =
        ⟨single.frames.size + offset⟩ := mount_frame_of_pos hm.single_size_pos
    rw [hframe, hm.size]
  push hm inner outer := hm.push inner outer
  identity hm := hm.identities
  newIdentity := by
    intro single larger hm
    refine ⟨hm.root, hm.base_lt, ?_, hm.size, hm.frames, ?_⟩
    · intro name
      have hsame : larger.next.lookup base name = larger.lookup base name := by
        refine Store.lookup_eq_of_kept ?_ hm.base_lt name
        intro index found hfound
        exact hfound
      rw [hsame]
      exact hm.lookup_base name
    · simp only [Store.next, hm.identities]
      omega

end

end Lisplet
