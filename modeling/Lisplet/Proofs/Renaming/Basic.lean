import Lisplet.Eval.Evaluate
import Lisplet.Proofs.Values.Criterion
import Mathlib.Logic.Function.Basic

/-!
# Renaming

Programs depend neither on the numbers of frames, nor on the identities of closures and calls, nor
on the spelling of names. A renaming changes all three, in values and in trees, without making two
names, two closures or two calls one. It leaves the names of the special forms alone, and texts,
which are data. Of the numbers it changes those only that are known by the call that made them.

This module defines the action of a renaming and shows what does not notice it: whether a value has
a text at all, which text it has if names are kept, which values are equal, and which criteria are
met.
-/

namespace Lisplet

/-- A change of names, frames and identities that keeps different things different. -/
structure Renaming where
  /-- The new spelling of a name. -/
  name : String → String
  /-- The new number of a frame. -/
  frame : FrameId → FrameId
  /-- The new identity of a closure or a call. -/
  identity : Nat → Nat
  name_injective : Function.Injective name
  frame_injective : Function.Injective frame
  identity_injective : Function.Injective identity
  /-- Special forms stay special forms. -/
  name_special : ∀ form : SpecialForm, name form.name = form.name

namespace Renaming

/-- A renaming that changes only the numbers of frames and the identities. -/
def KeepsNames (ρ : Renaming) : Prop :=
  ∀ name, ρ.name name = name

/-- Only the names of special forms become names of special forms. -/
lemma name_eq_special_iff (ρ : Renaming) {name : String} {form : SpecialForm} :
    ρ.name name = form.name ↔ name = form.name := by
  constructor
  · intro h
    apply ρ.name_injective
    rw [h, ρ.name_special form]
  · rintro rfl
    exact ρ.name_special form

/-- Names that are kept one by one are kept as a row. -/
lemma KeepsNames.map {ρ : Renaming} (h : ρ.KeepsNames) (names : List String) :
    names.map ρ.name = names := by
  rw [funext h]
  exact List.map_id' names

end Renaming

/-- A number after a renaming. -/
def Number.rename (ρ : Renaming) : Number → Number
  | .undefined origin index => .undefined (origin.map ρ.identity) index
  | .int n => .int n
  | .real x => .real x
  | .bool b => .bool b

mutual

/-- A value after a renaming. -/
def Value.rename (ρ : Renaming) : Value → Value
  | .number n => .number (n.rename ρ)
  | .text s => .text s
  | .list items => .list (Value.renameAll ρ items)
  | .empty => .empty
  | .absent => .absent
  | .nothing => .nothing
  | .quoted node => .quoted (node.rename ρ)
  | .closure identity params body scope =>
    .closure (ρ.identity identity) (params.map ρ.name) (body.rename ρ) (ρ.frame scope)
  | .host callable => .host callable

/-- A list of values after a renaming. -/
def Value.renameAll (ρ : Renaming) : List Value → List Value
  | [] => []
  | value :: rest => value.rename ρ :: Value.renameAll ρ rest

/-- A tree after a renaming. -/
def Node.rename (ρ : Renaming) : Node → Node
  | .identifier name => .identifier (ρ.name name)
  | .number n => .number (n.rename ρ)
  | .string s => .string s
  | .form children => .form (Node.renameAll ρ children)
  | .quote inner => .quote (inner.rename ρ)
  | .constant value => .constant (value.rename ρ)
  | .foreign value => .foreign (value.rename ρ)

/-- A row of trees after a renaming. -/
def Node.renameAll (ρ : Renaming) : List Node → List Node
  | [] => []
  | node :: rest => node.rename ρ :: Node.renameAll ρ rest

end

/-- Bindings after a renaming, both of names and of values. -/
def Bindings.rename (ρ : Renaming) (bindings : Bindings) : Bindings :=
  bindings.map fun pair => (ρ.name pair.1, pair.2.rename ρ)

variable {ρ : Renaming}

/-- A list of values is renamed item by item. -/
lemma Value.renameAll_eq_map (values : List Value) :
    Value.renameAll ρ values = values.map (Value.rename ρ) := by
  induction values with
  | nil => rfl
  | cons value rest ih => rw [Value.renameAll, ih, List.map_cons]

/-- A row of trees is renamed one by one. -/
lemma Node.renameAll_eq_map (nodes : List Node) :
    Node.renameAll ρ nodes = nodes.map (Node.rename ρ) := by
  induction nodes with
  | nil => rfl
  | cons node rest ih => rw [Node.renameAll, ih, List.map_cons]

/-- A list is renamed item by item. -/
lemma Value.rename_list (items : List Value) :
    (Value.list items).rename ρ = .list (items.map (Value.rename ρ)) := by
  rw [Value.rename, Value.renameAll_eq_map]

/-- A form is renamed child by child. -/
lemma Node.rename_form (children : List Node) :
    (Node.form children).rename ρ = .form (children.map (Node.rename ρ)) := by
  rw [Node.rename, Node.renameAll_eq_map]

/-! ## Numbers -/

namespace Number

/-- A renaming moves no number on the line. -/
lemma extent_rename (n : Number) : (n.rename ρ).extent = n.extent := by
  cases n <;> rfl

/-- A renaming does not change the text of a number. -/
lemma text_rename (n : Number) : (n.rename ρ).text = n.text := by
  cases n <;> rfl

/-- Renaming keeps different numbers different. -/
lemma rename_injective : Function.Injective (Number.rename ρ) := by
  intro m n h
  cases m with
  | undefined origin index =>
    cases n with
    | undefined origin' index' =>
      obtain ⟨horigin, rfl⟩ := Number.undefined.inj h
      rw [Option.map_injective ρ.identity_injective horigin]
    | _ => cases h
  | _ =>
    cases n with
    | undefined => cases h
    | _ => exact h

/-- Renaming keeps equal numbers equal and different numbers different. -/
lemma same_rename (m n : Number) : (m.rename ρ).same (n.rename ρ) = m.same n := by
  rw [same, same, extent_rename, extent_rename]

/-- Renaming keeps numbers that are alike alike. -/
lemma alike_rename (m n : Number) : (m.rename ρ).alike (n.rename ρ) = m.alike n := by
  rw [alike, alike, same_rename, Bool.eq_iff_iff]
  simp only [Bool.or_eq_true, beq_iff_eq, rename_injective.eq_iff]

/-- The results of corresponding calls correspond. -/
lemma rename_madeBy (call : Nat) (n : Number) :
    (n.madeBy call).rename ρ = n.madeBy (ρ.identity call) := by
  cases n with
  | undefined origin index => rfl
  | _ =>
    unfold madeBy
    split <;> rfl

end Number

/-! ## Texts -/

mutual

/-- Without a change of names, a renaming does not change the text of a value. -/
theorem Value.render_rename (h : ρ.KeepsNames) (style : Style) :
    ∀ value : Value, (value.rename ρ).render style = value.render style
  | .number n => n.text_rename
  | .text _ | .empty | .absent | .nothing | .host _ => rfl
  | .list items => by
    rw [Value.rename, Value.render, Value.render, Value.renderAll_rename h style items]
  | .quoted node => by
    rw [Value.rename, Value.render, Value.render, Node.render_rename h style node]
  | .closure identity params body scope => by
    rw [Value.rename, Value.render, Value.render, Node.render_rename h .surface body, h.map]

/-- Without a change of names, a renaming does not change the texts of a list of values. -/
theorem Value.renderAll_rename (h : ρ.KeepsNames) (style : Style) :
    ∀ values : List Value,
      Value.renderAll style (Value.renameAll ρ values) = Value.renderAll style values
  | [] => rfl
  | value :: rest => by
    rw [Value.renameAll, Value.renderAll, Value.renderAll, Value.render_rename h style value,
      Value.renderAll_rename h style rest]

/-- Without a change of names, a renaming does not change the text of a tree. -/
theorem Node.render_rename (h : ρ.KeepsNames) (style : Style) :
    ∀ node : Node, (node.rename ρ).render style = node.render style
  | .identifier name => by rw [Node.rename, h name]
  | .number n => by rw [Node.rename, Node.render, Node.render, n.text_rename]
  | .string _ => rfl
  | .form children => by
    rw [Node.rename, Node.render, Node.render, Node.renderAll_rename h style children]
  | .quote inner => by
    rw [Node.rename, Node.render, Node.render, Node.render_rename h style inner]
  | .constant value => by
    rw [Node.rename, Node.render, Node.render, Value.render_rename h style value]
  | .foreign value => by
    rw [Node.rename, Node.render, Node.render, Value.render_rename h .structural value]

/-- Without a change of names, a renaming does not change the texts of a row of trees. -/
theorem Node.renderAll_rename (h : ρ.KeepsNames) (style : Style) :
    ∀ nodes : List Node,
      Node.renderAll style (Node.renameAll ρ nodes) = Node.renderAll style nodes
  | [] => rfl
  | node :: rest => by
    rw [Node.renameAll, Node.renderAll, Node.renderAll, Node.render_rename h style node,
      Node.renderAll_rename h style rest]

end

/-- Two options in sequence have a value if both have. -/
private lemma isSome_both {α β γ : Type} (first : Option α) (second : Option β) (f : α → β → γ) :
    (do let a ← first; let b ← second; return f a b).isSome =
      (first.isSome && second.isSome) := by
  cases first <;> cases second <;> rfl

mutual

/-- Whether a value has a text does not depend on names. -/
theorem Value.isSome_render_rename (style : Style) :
    ∀ value : Value, ((value.rename ρ).render style).isSome = (value.render style).isSome
  | .number n => by rw [Value.rename, Value.render, Value.render, n.text_rename]
  | .text _ | .empty | .absent | .nothing | .host _ => rfl
  | .list items => by
    rw [Value.rename, Value.render, Value.render, Option.isSome_map, Option.isSome_map,
      Value.isSome_renderAll_rename style items]
  | .quoted node => by
    rw [Value.rename, Value.render, Value.render, Option.isSome_map, Option.isSome_map,
      Node.isSome_render_rename style node]
  | .closure identity params body scope => by
    rw [Value.rename, Value.render, Value.render, Option.isSome_map, Option.isSome_map,
      Node.isSome_render_rename .surface body]

/-- Whether the values of a list have texts does not depend on names. -/
theorem Value.isSome_renderAll_rename (style : Style) :
    ∀ values : List Value, (Value.renderAll style (Value.renameAll ρ values)).isSome =
      (Value.renderAll style values).isSome
  | [] => rfl
  | value :: rest => by
    rw [Value.renameAll, Value.renderAll, Value.renderAll, isSome_both, isSome_both,
      Value.isSome_render_rename style value, Value.isSome_renderAll_rename style rest]

/-- Whether a tree has a text does not depend on names. -/
theorem Node.isSome_render_rename (style : Style) :
    ∀ node : Node, ((node.rename ρ).render style).isSome = (node.render style).isSome
  | .identifier _ | .string _ => rfl
  | .number n => by rw [Node.rename, Node.render, Node.render, n.text_rename]
  | .form children => by
    rw [Node.rename, Node.render, Node.render, Option.isSome_map, Option.isSome_map,
      Node.isSome_renderAll_rename style children]
  | .quote inner => by
    rw [Node.rename, Node.render, Node.render, Option.isSome_map, Option.isSome_map,
      Node.isSome_render_rename style inner]
  | .constant value => by
    rw [Node.rename, Node.render, Node.render, Option.isSome_map, Option.isSome_map,
      Value.isSome_render_rename style value]
  | .foreign value => by
    rw [Node.rename, Node.render, Node.render, Value.isSome_render_rename .structural value]

/-- Whether the trees of a row have texts does not depend on names. -/
theorem Node.isSome_renderAll_rename (style : Style) :
    ∀ nodes : List Node, (Node.renderAll style (Node.renameAll ρ nodes)).isSome =
      (Node.renderAll style nodes).isSome
  | [] => rfl
  | node :: rest => by
    rw [Node.renameAll, Node.renderAll, Node.renderAll, isSome_both, isSome_both,
      Node.isSome_render_rename style node, Node.isSome_renderAll_rename style rest]

end

/-! ## Equality -/

mutual

/-- Renaming keeps values that are alike alike. -/
theorem Value.alike_rename : ∀ left right : Value,
    (left.rename ρ).alike (right.rename ρ) = left.alike right
  | .list items, right => by
    cases right with
    | list others => simp only [Value.rename, Value.alike, Value.alikeAll_rename items others]
    | _ => simp only [Value.rename, Value.alike]
  | .quoted node, right => by
    cases right with
    | quoted other => simp only [Value.rename, Value.alike, Node.alike_rename node other]
    | _ => simp only [Value.rename, Value.alike]
  | .closure identity params body scope, right => by
    cases right with
    | closure other _ _ _ =>
      simp only [Value.rename, Value.alike]
      rw [Bool.eq_iff_iff, beq_iff_eq, beq_iff_eq, ρ.identity_injective.eq_iff]
    | _ => simp only [Value.rename, Value.alike]
  | .number n, right => by
    cases right with
    | number m => simp only [Value.rename, Value.alike, Number.alike_rename]
    | _ => simp only [Value.rename, Value.alike]
  | .text _, right | .empty, right | .absent, right | .nothing, right | .host _, right => by
    cases right <;> simp only [Value.rename, Value.alike]

/-- Renaming keeps lists that are alike alike. -/
theorem Value.alikeAll_rename : ∀ left right : List Value,
    Value.alikeAll (Value.renameAll ρ left) (Value.renameAll ρ right) = Value.alikeAll left right
  | [], [] | [], _ :: _ | _ :: _, [] => by simp only [Value.renameAll, Value.alikeAll]
  | value :: rest, other :: others => by
    rw [Value.renameAll, Value.renameAll, Value.alikeAll, Value.alikeAll,
      Value.alike_rename value other, Value.alikeAll_rename rest others]

/-- Renaming keeps trees that are alike alike. -/
theorem Node.alike_rename : ∀ left right : Node,
    (left.rename ρ).alike (right.rename ρ) = left.alike right
  | .identifier name, right => by
    cases right with
    | identifier other =>
      simp only [Node.rename, Node.alike]
      rw [Bool.eq_iff_iff, beq_iff_eq, beq_iff_eq, ρ.name_injective.eq_iff]
    | _ => simp only [Node.rename, Node.alike]
  | .form children, right => by
    cases right with
    | form others => simp only [Node.rename, Node.alike, Node.alikeAll_rename children others]
    | _ => simp only [Node.rename, Node.alike]
  | .quote inner, right => by
    cases right with
    | quote other => simp only [Node.rename, Node.alike, Node.alike_rename inner other]
    | _ => simp only [Node.rename, Node.alike]
  | .constant value, right => by
    cases right with
    | constant other => simp only [Node.rename, Node.alike, Value.alike_rename value other]
    | _ => simp only [Node.rename, Node.alike]
  | .foreign value, right => by
    cases right with
    | foreign other => simp only [Node.rename, Node.alike, Value.alike_rename value other]
    | _ => simp only [Node.rename, Node.alike]
  | .number n, right => by
    cases right with
    | number m => simp only [Node.rename, Node.alike, Number.alike_rename]
    | _ => simp only [Node.rename, Node.alike]
  | .string _, right => by cases right <;> simp only [Node.rename, Node.alike]

/-- Renaming keeps rows of trees that are alike alike. -/
theorem Node.alikeAll_rename : ∀ left right : List Node,
    Node.alikeAll (Node.renameAll ρ left) (Node.renameAll ρ right) = Node.alikeAll left right
  | [], [] | [], _ :: _ | _ :: _, [] => by simp only [Node.renameAll, Node.alikeAll]
  | node :: rest, other :: others => by
    rw [Node.renameAll, Node.renameAll, Node.alikeAll, Node.alikeAll, Node.alike_rename node other,
      Node.alikeAll_rename rest others]

end

/-- Renaming keeps equal values equal and different values different. -/
theorem Value.same_rename (left right : Value) :
    (left.rename ρ).same (right.rename ρ) = left.same right := by
  have halike := Value.alike_rename (ρ := ρ) left right
  cases left with
  | number m =>
    cases right with
    | number n => simp only [Value.rename, Value.same, Number.same_rename]
    | _ => simp only [Value.rename, Value.same, Value.alike]
  | _ => exact halike

/-! ## The shape of values and trees -/

/-- Renaming makes nothing true or false. -/
lemma Value.isFalse_rename (value : Value) : (value.rename ρ).isFalse = value.isFalse := by
  cases value with
  | number n => exact Number.same_rename n (.int 0)
  | _ => rfl

/-- A value contributes the renamed tree to assembled code. -/
lemma Value.toNode_rename (value : Value) : (value.rename ρ).toNode = value.toNode.rename ρ := by
  cases value <;> rfl

/-- Renamed values assemble the renamed code. -/
lemma Node.ofItems_rename (items : List Value) :
    Node.ofItems (items.map (Value.rename ρ)) = (Node.ofItems items).rename ρ := by
  unfold Node.ofItems
  rw [Node.rename_form, List.map_map, List.map_map]
  congr 1
  exact List.map_congr_left fun value _ => value.toNode_rename

/-- Special forms stay special forms. -/
lemma Node.specialForm?_rename (head : Node) :
    (head.rename ρ).specialForm? = head.specialForm? := by
  cases head with
  | identifier name =>
    change SpecialForm.ofName? (ρ.name name) = SpecialForm.ofName? name
    unfold SpecialForm.ofName?
    congr 1
    funext form
    rw [Bool.eq_iff_iff, beq_iff_eq, beq_iff_eq, eq_comm, ρ.name_eq_special_iff, eq_comm]
  | _ => rfl

/-- Only names are renamed to names. -/
lemma Node.exists_of_rename_eq_identifier {node : Node} {name : String}
    (h : node.rename ρ = .identifier name) : ∃ name, node = .identifier name := by
  cases node with
  | identifier name => exact ⟨name, rfl⟩
  | _ => simp [Node.rename] at h

/-- Only forms are renamed to forms. -/
lemma Node.exists_of_rename_eq_form {node : Node} {children : List Node}
    (h : node.rename ρ = .form children) :
    ∃ children', node = .form children' ∧ children'.map (Node.rename ρ) = children := by
  cases node with
  | form children' =>
    rw [Node.rename_form] at h
    exact ⟨children', rfl, Node.form.inj h⟩
  | _ => simp [Node.rename] at h

/-- Only a pair of a name and a tree is renamed to such a pair. -/
lemma Node.exists_of_rename_eq_pair {node init : Node} {name : String}
    (h : node.rename ρ = .form [.identifier name, init]) :
    ∃ name init, node = .form [.identifier name, init] := by
  obtain ⟨children, rfl, hchildren⟩ := Node.exists_of_rename_eq_form h
  obtain ⟨first, rest, rfl, hfirst, hrest⟩ := List.map_eq_cons_iff.1 hchildren
  obtain ⟨second, last, rfl, -, hlast⟩ := List.map_eq_cons_iff.1 hrest
  obtain rfl := List.map_eq_nil_iff.1 hlast
  obtain ⟨name, rfl⟩ := Node.exists_of_rename_eq_identifier hfirst
  exact ⟨name, second, rfl⟩

/-! ## Criteria -/

/-- A renaming that changes nothing that a criterion allows. -/
structure Renaming.Fixes (ρ : Renaming) (p : Criterion) : Prop where
  number : ∀ {n}, p.number n → n.rename ρ = n
  name : ∀ {name}, p.name name → ρ.name name = name
  identity : ∀ {identity}, p.identity identity → ρ.identity identity = identity
  scope : ∀ {frame}, p.scope frame → ρ.frame frame = frame

/-- Without a change of names, a renaming changes nothing that no run has made. -/
lemma Renaming.KeepsNames.fixes_given (h : ρ.KeepsNames) : ρ.Fixes .given where
  number := by
    intro n hn
    cases n with
    | undefined origin index =>
      have horigin : origin = none := hn
      rw [horigin]
      rfl
    | _ => rfl
  name _ := h _
  identity := False.elim
  scope := False.elim

/-- A renaming that makes nothing of what a criterion allows that it does not allow. -/
structure Renaming.Keeps (ρ : Renaming) (p : Criterion) : Prop where
  number : ∀ {n}, p.number n → p.number (n.rename ρ)
  name : ∀ {name}, p.name name → p.name (ρ.name name)
  identity : ∀ {identity}, p.identity identity → p.identity (ρ.identity identity)
  scope : ∀ {frame}, p.scope frame → p.scope (ρ.frame frame)

variable {p : Criterion}

mutual

/-- A value is not changed if nothing that may occur in it is. -/
theorem Value.Meets.rename_eq (h : ρ.Fixes p) :
    ∀ {value : Value}, value.Meets p → value.rename ρ = value
  | .number _, hvalue => congrArg Value.number (h.number hvalue)
  | .text _, _ | .empty, _ | .absent, _ | .nothing, _ | .host _, _ => rfl
  | .list _, hvalue => congrArg Value.list (Value.AllMeet.renameAll_eq h hvalue)
  | .quoted _, hvalue => congrArg Value.quoted (Node.Meets.rename_eq h hvalue)
  | .closure _ params _ _, ⟨hidentity, hparams, hscope, hbody⟩ => by
    have hnames : params.map ρ.name = params :=
      (List.map_congr_left fun param hparam => h.name (hparams param hparam)).trans
        (List.map_id' params)
    rw [Value.rename, h.identity hidentity, hnames, Node.Meets.rename_eq h hbody, h.scope hscope]

/-- A list of values is not changed if nothing that may occur in it is. -/
theorem Value.AllMeet.renameAll_eq (h : ρ.Fixes p) :
    ∀ {values : List Value}, Value.AllMeet p values → Value.renameAll ρ values = values
  | [], _ => rfl
  | _ :: _, hvalues =>
    congrArg₂ List.cons (Value.Meets.rename_eq h hvalues.1) (Value.AllMeet.renameAll_eq h hvalues.2)

/-- A tree is not changed if nothing that may occur in it is. -/
theorem Node.Meets.rename_eq (h : ρ.Fixes p) :
    ∀ {node : Node}, node.Meets p → node.rename ρ = node
  | .identifier _, hnode => congrArg Node.identifier (h.name hnode)
  | .number _, hnode => congrArg Node.number (h.number hnode)
  | .string _, _ => rfl
  | .form _, hnode => congrArg Node.form (Node.AllMeet.renameAll_eq h hnode)
  | .quote inner, hnode =>
    have hinner : inner.Meets p := hnode
    congrArg Node.quote (Node.Meets.rename_eq h hinner)
  | .constant _, hnode => congrArg Node.constant (Value.Meets.rename_eq h hnode)
  | .foreign _, hnode => congrArg Node.foreign (Value.Meets.rename_eq h hnode.2)

/-- A row of trees is not changed if nothing that may occur in it is. -/
theorem Node.AllMeet.renameAll_eq (h : ρ.Fixes p) :
    ∀ {nodes : List Node}, Node.AllMeet p nodes → Node.renameAll ρ nodes = nodes
  | [], _ => rfl
  | _ :: _, hnodes =>
    congrArg₂ List.cons (Node.Meets.rename_eq h hnodes.1) (Node.AllMeet.renameAll_eq h hnodes.2)

end

mutual

/-- A renamed value meets the criteria that the renaming keeps. -/
theorem Value.Meets.rename (h : ρ.Keeps p) :
    ∀ {value : Value}, value.Meets p → (value.rename ρ).Meets p
  | .number _, hvalue => h.number hvalue
  | .text _, _ | .empty, _ | .absent, _ | .nothing, _ => trivial
  | .list _, hvalue => Value.AllMeet.rename h hvalue
  | .quoted _, hvalue => Node.Meets.rename h hvalue
  | .closure _ _ _ _, ⟨hidentity, hparams, hscope, hbody⟩ =>
    ⟨h.identity hidentity, List.forall_mem_map.2 fun param hparam => h.name (hparams param hparam),
      h.scope hscope, Node.Meets.rename h hbody⟩
  | .host _, hvalue => hvalue

/-- A renamed list of values meets the criteria that the renaming keeps. -/
theorem Value.AllMeet.rename (h : ρ.Keeps p) :
    ∀ {values : List Value}, Value.AllMeet p values → Value.AllMeet p (Value.renameAll ρ values)
  | [], _ => trivial
  | _ :: _, hvalues => ⟨Value.Meets.rename h hvalues.1, Value.AllMeet.rename h hvalues.2⟩

/-- A renamed tree meets the criteria that the renaming keeps. -/
theorem Node.Meets.rename (h : ρ.Keeps p) :
    ∀ {node : Node}, node.Meets p → (node.rename ρ).Meets p
  | .identifier _, hnode => h.name hnode
  | .number _, hnode => h.number hnode
  | .string _, _ => trivial
  | .form _, hnode => Node.AllMeet.rename h hnode
  | .quote inner, hnode => show (inner.rename ρ).Meets p from Node.Meets.rename h hnode
  | .constant _, hnode => Value.Meets.rename h hnode
  | .foreign _, hnode => ⟨hnode.1, Value.Meets.rename h hnode.2⟩

/-- A renamed row of trees meets the criteria that the renaming keeps. -/
theorem Node.AllMeet.rename (h : ρ.Keeps p) :
    ∀ {nodes : List Node}, Node.AllMeet p nodes → Node.AllMeet p (Node.renameAll ρ nodes)
  | [], _ => trivial
  | _ :: _, hnodes => ⟨Node.Meets.rename h hnodes.1, Node.AllMeet.rename h hnodes.2⟩

end

end Lisplet
