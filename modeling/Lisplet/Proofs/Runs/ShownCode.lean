import Lisplet.Host.Stock
import Lisplet.Proofs.Machine.Confinement
import Lisplet.Proofs.Machine.Prints
import Lisplet.Proofs.Reader.RoundTrip

/-!
# Code that a program shows

Closures and quoted code are shown as source texts. If a program has no literals of doubles and
never evaluates data as code, such a text can be read again, and gives the code of the closure or
the quoted code itself.

All code that such a run comes across is part of the program: a closure is made by a form of the
program, and its body is never put together from values. So the text of a closure, which is written
from its parameters and its body, is the source text of the form that made it.
-/

namespace Lisplet

/-! ## Subtrees -/

/-- The first tree is the second one, or stands somewhere inside it. -/
inductive Node.IsSubtree (part : Node) : Node → Prop
  | self : part.IsSubtree part
  | child {child : Node} {children : List Node} :
      child ∈ children → part.IsSubtree child → part.IsSubtree (.form children)
  | quote {inner : Node} : part.IsSubtree inner → part.IsSubtree (.quote inner)

namespace Node

variable {part node : Node} {real : Float → Prop}

/-- A subtree of a subtree is a subtree. -/
lemma IsSubtree.trans {middle : Node} (h : part.IsSubtree middle) (h' : middle.IsSubtree node) :
    part.IsSubtree node := by
  induction h' with
  | self => exact h
  | child hmem _ ih => exact .child hmem ih
  | quote _ ih => exact .quote ih

@[simp]
lemma isSubtree_identifier_iff {name : String} :
    part.IsSubtree (.identifier name) ↔ part = .identifier name :=
  ⟨fun h => by cases h; rfl, fun h => h ▸ .self⟩

@[simp]
lemma isSubtree_string_iff {s : String} : part.IsSubtree (.string s) ↔ part = .string s :=
  ⟨fun h => by cases h; rfl, fun h => h ▸ .self⟩

@[simp]
lemma isSubtree_form_iff {children : List Node} :
    part.IsSubtree (.form children) ↔
      part = .form children ∨ ∃ child ∈ children, part.IsSubtree child := by
  constructor
  · rintro (_ | ⟨hmem, h⟩)
    · exact .inl rfl
    · exact .inr ⟨_, hmem, h⟩
  · rintro (rfl | ⟨child, hmem, h⟩)
    · exact .self
    · exact .child hmem h

@[simp]
lemma isSubtree_quote_iff {inner : Node} :
    part.IsSubtree (.quote inner) ↔ part = .quote inner ∨ part.IsSubtree inner := by
  constructor
  · rintro (_ | _ | h)
    · exact .inl rfl
    · exact .inr h
  · rintro (rfl | h)
    · exact .self
    · exact .quote h

/-- The children of a form are subtrees. -/
lemma isSubtree_of_mem {child : Node} {children : List Node} (h : child ∈ children) :
    child.IsSubtree (.form children) :=
  .child h .self

/-- The subtrees of a spelled tree are spelled. -/
lemma IsSubtree.spelled (h : part.IsSubtree node) (hnode : node.Spelled real) :
    part.Spelled real := by
  induction h with
  | self => exact hnode
  | child hmem _ ih => exact ih (Node.allSpelled_iff.1 hnode _ hmem)
  | quote _ ih => exact ih hnode

mutual

/-- Only the doubles in a tree matter for the sort of doubles it is spelled with. -/
theorem Spelled.of_real {real' : Float → Prop} : ∀ node : Node, node.Spelled real →
    (∀ x, (Node.number (.real x)).IsSubtree node → real' x) → node.Spelled real'
  | .identifier _, h, _ | .string _, h, _ => h
  | .number (.int _), h, _ => h
  | .number (.real x), _, hreal => hreal x .self
  | .form children, h, hreal =>
    AllSpelled.of_real children h fun x _ hmem hpart => hreal x (.child hmem hpart)
  | .quote inner, h, hreal =>
    show inner.Spelled real' from Spelled.of_real inner h fun x hpart => hreal x (.quote hpart)

/-- Only the doubles in a row of trees matter for the sort of doubles it is spelled with. -/
theorem AllSpelled.of_real {real' : Float → Prop} : ∀ nodes : List Node,
    Node.AllSpelled real nodes →
    (∀ x, ∀ node ∈ nodes, (Node.number (.real x)).IsSubtree node → real' x) →
    Node.AllSpelled real' nodes
  | [], _, _ => trivial
  | node :: rest, h, hreal =>
    ⟨Spelled.of_real node h.1 fun x hpart => hreal x node (List.mem_cons_self ..) hpart,
      AllSpelled.of_real rest h.2 fun x other hmem hpart =>
        hreal x other (List.mem_cons_of_mem _ hmem) hpart⟩

end

/-- A well-formed tree has a source text, which is read as the tree. -/
lemma WellFormed.exists_source (h : node.WellFormed) :
    ∃ text, node.source = some text ∧ parse text = .ok node := by
  obtain ⟨text, htext, hreread⟩ := parse_source_eq_reread h
  exact ⟨text, htext, (hreread node).2 ((Node.reread_eq_self_iff node h).2 h)⟩

/-- The body of a closure is a subtree of the form that makes it. -/
lemma isSubtree_abstraction (params : List String) (body : Node) :
    body.IsSubtree (.abstraction params body) :=
  isSubtree_of_mem (by simp)

end Node

/-! ## The text of a closure -/

/-- Names are written as they are. -/
lemma Node.renderAll_identifiers (names : List String) :
    Node.renderAll .surface (names.map .identifier) = some names := by
  induction names with
  | nil => rfl
  | cons name names ih =>
    rw [List.map_cons, Node.renderAll, ih]
    rfl

/-- A closure is shown as the form that makes it. -/
lemma Value.display_closure (identity : Nat) (params : List String) (body : Node)
    (scope : FrameId) :
    (Value.closure identity params body scope).display =
      (Node.abstraction params body).source := by
  have hparams : (Node.form (params.map .identifier)).render .surface =
      some ("(" ++ Text.joined " " params ++ ")") := by
    rw [Node.render, Node.renderAll_identifiers]
    rfl
  rw [Value.display, Value.render, Node.abstraction, Node.special, Node.source, Node.render,
    Node.renderAll, Node.renderAll, Node.renderAll, hparams]
  cases body.render .surface with
  | none => rfl
  | some text =>
    change some (closureText params text) = some ("(" ++ ("lambda" ++ " " ++
      ("(" ++ Text.joined " " params ++ ")" ++ " " ++ text)) ++ ")")
    rw [Option.some.injEq, ← String.toList_inj]
    simp [closureText]

/-! ## Code of a program in values -/

/-- The first value is the second one, or stands somewhere inside it as an item of a list. -/
inductive Value.OccursIn (part : Value) : Value → Prop
  | self : part.OccursIn part
  | item {item : Value} {items : List Value} :
      item ∈ items → part.OccursIn item → part.OccursIn (.list items)

/-- Code is part of a program, and a procedure of the host is a primitive. -/
def Value.ComesFrom (program : Node) : Value → Prop
  | .closure _ params body _ => (Node.abstraction params body).IsSubtree program
  | .quoted code => code.IsSubtree program
  | .host callable => ∃ p, callable = .primitive p
  | .number _ | .text _ | .list _ | .empty | .absent | .nothing => True

/-- All that stands in a value comes from a program. -/
def Value.AllComeFrom (program : Node) (value : Value) : Prop :=
  ∀ part : Value, part.OccursIn value → part.ComesFrom program

/-- The values that a run may be given: numbers, texts and primitives. -/
def Value.IsPlain : Value → Prop
  | .number _ | .text _ | .host (.primitive _) => True
  | _ => False

namespace Value

variable {program : Node}

/-- All of a list comes from a program if all of every item does. -/
lemma allComeFrom_list_iff {items : List Value} :
    (Value.list items).AllComeFrom program ↔ ∀ item ∈ items, item.AllComeFrom program := by
  constructor
  · intro h item hitem part hpart
    exact h part (.item hitem hpart)
  · intro h part hpart
    cases hpart with
    | self => trivial
    | item hitem hpart => exact h _ hitem part hpart

/-- Plain values hold no code. -/
lemma IsPlain.allComeFrom {value : Value} (h : value.IsPlain) : value.AllComeFrom program := by
  intro part hpart
  cases hpart with
  | self =>
    match value, h with
    | .number _, _ | .text _, _ => trivial
    | .host (.primitive p), _ => exact ⟨p, rfl⟩
  | item hitem hpart => exact h.elim

end Value

/-- A program that does not evaluate data as code comes across its own code only. -/
def Machine.Confinement.ofProgram (host : Host) {program : Node} {real : Float → Prop}
    (hspelled : program.Spelled real)
    (heval : ¬ (Node.identifier SpecialForm.eval.name).IsSubtree program) :
    Machine.Confinement host where
  node part := part.IsSubtree program
  value := Value.AllComeFrom program
  alike store twin := twin = store
  fresh _ := True
  reenters := False
  node_of_mem h hmem := (Node.isSubtree_of_mem hmem).trans h
  node_of_quote h := (Node.IsSubtree.quote .self).trans h
  value_number _ := Value.IsPlain.allComeFrom trivial
  value_text _ := Value.IsPlain.allComeFrom trivial
  value_empty := by
    rintro _ ⟨⟩
    trivial
  value_absent := by
    rintro _ ⟨⟩
    trivial
  value_of_constant h := (h.spelled hspelled).elim
  value_quoted h := by
    rintro _ ⟨⟩
    exact h
  value_list_iff := Value.allComeFrom_list_iff
  value_closure _ _ h := by
    rintro _ ⟨⟩
    exact h
  node_body h := (Node.isSubtree_abstraction _ _).trans (h _ .self)
  value_call hcallable _ hcall := by
    obtain ⟨p, rfl⟩ := hcallable _ .self
    obtain ⟨n, rfl⟩ := Primitive.exists_number_of_call hcall
    exact Value.IsPlain.allComeFrom trivial
  reenters_of_node h := heval ((Node.isSubtree_of_mem (List.mem_cons_self ..)).trans h)
  node_of_quoted h := h.elim
  node_ofItems h := h.elim
  lookup _ h _ := h ▸ rfl
  identities h := h ▸ rfl
  newIdentity h := h ▸ rfl
  child _ h := h ▸ ⟨rfl, trivial, rfl⟩
  bound? _ h _ := h ▸ rfl
  extend _ _ h _ := h ▸ rfl

/-! ## What a run shows -/

/-- The values that a run shows: the one that it returns, and those that it prints, also if it fails
afterwards or never ends. -/
inductive Shows (context : Context) (bindings : Bindings) (node : Node) : Value → Prop
  | returned {fuel : Nat} {outcome : Outcome Value} {value : Value} :
      interpret context fuel Store.empty bindings node = some outcome →
      outcome.result = .ok value → Shows context bindings node value
  | printed {fuel : Nat} {outcome : Outcome Value} {value : Value} :
      interpret context fuel Store.empty bindings node = some outcome →
      value ∈ Event.prints outcome.events → Shows context bindings node value
  | meanwhile {steps : Nat} {moment : Machine.State} {value : Value} {text : String} :
      Machine.run context.host steps (Machine.initial bindings node) = some moment →
      (value, text) ∈ moment.memory.printed → Shows context bindings node value

section

variable {context : Context} {bindings : Bindings} {node : Node} {real : Float → Prop}

/-- At every moment, what was printed comes from the program, and so does a value that is there. -/
lemma keeps_ofProgram (hspelled : node.Spelled real)
    (heval : ¬ (Node.identifier SpecialForm.eval.name).IsSubtree node)
    (hbindings : ∀ pair ∈ bindings, pair.2.IsPlain) {steps : Nat} {moment : Machine.State}
    (h : Machine.run context.host steps (Machine.initial bindings node) = some moment) :
    (Machine.Confinement.ofProgram context.host hspelled heval).Keeps moment moment := by
  have hbound : (Store.empty.root bindings).2.AllBound (Value.AllComeFrom node) :=
    (Store.allBound_empty _).push fun pair hpair => (hbindings pair hpair).allComeFrom
  have hinitial : (Machine.Confinement.ofProgram context.host hspelled heval).Keeps
      (Machine.initial bindings node) (Machine.initial bindings node) :=
    Machine.Confinement.keeps_evaluating rfl hbound Node.IsSubtree.self _
  obtain ⟨moment', hmoment', hkeeps⟩ := exists_right_of_rel (hinitial.run steps) h
  obtain rfl := Option.some.inj (h.symm.trans hmoment')
  exact hkeeps

/-- All code that a run shows comes from the program. -/
lemma Shows.allComeFrom (hspelled : node.Spelled real)
    (heval : ¬ (Node.identifier SpecialForm.eval.name).IsSubtree node)
    (hbindings : ∀ pair ∈ bindings, pair.2.IsPlain) {value : Value}
    (h : Shows context bindings node value) : value.AllComeFrom node := by
  cases h with
  | returned houtcome hresult =>
    obtain ⟨steps, hrun⟩ := Machine.reaches_of_evaluate houtcome
    rw [hresult] at hrun
    exact (keeps_ofProgram hspelled heval hbindings hrun).focus
  | printed houtcome hprinted =>
    obtain ⟨steps, hrun⟩ := Machine.reaches_of_evaluate houtcome
    rw [Event.prints_eq_map_printings] at hprinted
    obtain ⟨printing, hprinting, rfl⟩ := List.mem_map.1 hprinted
    refine (keeps_ofProgram hspelled heval hbindings hrun).memory.printed printing ?_
    rw [Machine.printed_final]
    exact hprinting
  | meanwhile hrun hprinted =>
    exact (keeps_ofProgram hspelled heval hbindings hrun).memory.printed _ hprinted

end

/-- Code that a program shows can be read again. If a source has no literals of doubles and does not
name `eval`, and its run is given plain values only, then the text of every closure that is returned
or printed, also inside a list, is read as the form that makes it, the text of quoted code is read
as a quote of that code, and the code is a subtree of the program. -/
theorem shown_code_reads_back (source : String) (node : Node) (hparse : parse source = .ok node)
    (hreal : ∀ x, ¬ (Node.number (.real x)).IsSubtree node)
    (heval : ¬ (Node.identifier "eval").IsSubtree node) (context : Context) (bindings : Bindings)
    (hbindings : ∀ pair ∈ bindings, pair.2.IsPlain) (shown : Value)
    (hshown : Shows context bindings node shown) :
    (∀ identity params body scope,
      (Value.closure identity params body scope).OccursIn shown →
        body.IsSubtree node ∧
        ∃ text, (Value.closure identity params body scope).display = some text ∧
          parse text =
            .ok (.form [.identifier "lambda", .form (params.map .identifier), body])) ∧
    ∀ code, (Value.quoted code).OccursIn shown →
      code.IsSubtree node ∧
      ∃ text, (Value.quoted code).display = some text ∧ parse text = .ok (.quote code) := by
  have hspelled : node.Spelled fun _ => True := spelled_of_parse (by simp) hparse
  have hwellFormed : node.WellFormed :=
    Node.Spelled.of_real node hspelled fun x hpart => absurd hpart (hreal x)
  have hfrom : shown.AllComeFrom node := hshown.allComeFrom hspelled heval hbindings
  constructor
  · intro identity params body scope hoccurs
    have hform : (Node.abstraction params body).IsSubtree node := hfrom _ hoccurs
    refine ⟨(Node.isSubtree_abstraction params body).trans hform, ?_⟩
    rw [Value.display_closure]
    have hformed : (Node.abstraction params body).WellFormed := hform.spelled hwellFormed
    exact hformed.exists_source
  · intro code hoccurs
    have hcode : code.IsSubtree node := hfrom _ hoccurs
    have hquote : (Node.quote code).WellFormed :=
      show code.WellFormed from hcode.spelled hwellFormed
    exact ⟨hcode, hquote.exists_source⟩

/-- The tree of `(print (list (lambda (f) 'f) 'y))`. -/
def showsClosure : Node :=
  .special .print [.special .list
    [.abstraction ["f"] (.quote (.identifier "f")), .quote (.identifier "y")]]

/-- The program prints a list of a closure and of quoted code. The text of each of them is read
again. -/
theorem showsClosure_reads_back :
    parse "(print (list (lambda (f) 'f) 'y))" = .ok showsClosure ∧
    ∃ outcome closure code, interpret ⟨.capture, Stock.host⟩ 6 Store.empty
        [("f", .host (.primitive .add))] showsClosure = some outcome ∧
      Event.prints outcome.events = [.list [closure, code]] ∧
      (∃ text, closure.display = some text ∧
        parse text = .ok (.abstraction ["f"] (.quote (.identifier "f")))) ∧
      ∃ text, code.display = some text ∧ parse text = .ok (.quote (.identifier "y")) := by
  have hparse : parse "(print (list (lambda (f) 'f) 'y))" = .ok showsClosure := rfl
  have hreal : ∀ x, ¬ (Node.number (.real x)).IsSubtree showsClosure := by
    simp [showsClosure, Node.special, Node.abstraction]
  have heval : ¬ (Node.identifier "eval").IsSubtree showsClosure := by
    simp [showsClosure, Node.special, Node.abstraction, SpecialForm.name]
  have hbindings : ∀ pair ∈ [("f", Value.host (.primitive .add))], pair.2.IsPlain := by
    simp [Value.IsPlain]
  have hrun : (interpret ⟨.capture, Stock.host⟩ 6 Store.empty [("f", .host (.primitive .add))]
      showsClosure).map (fun outcome => Event.prints outcome.events) =
        some [.list [.closure 0 ["f"] (.quote (.identifier "f")) ⟨0⟩,
          .quoted (.identifier "y")]] := rfl
  obtain ⟨outcome, houtcome, hprints⟩ := Option.map_eq_some_iff.1 hrun
  have hshown := Shows.printed houtcome (hprints ▸ List.mem_cons_self ..)
  obtain ⟨hclosures, hquoted⟩ := shown_code_reads_back _ showsClosure hparse hreal heval
    ⟨.capture, Stock.host⟩ _ hbindings _ hshown
  refine ⟨hparse, outcome, _, _, houtcome, hprints, ?_, ?_⟩
  · exact (hclosures 0 ["f"] _ ⟨0⟩ (.item (List.mem_cons_self ..) .self)).2
  · exact (hquoted _ (.item (List.mem_cons_of_mem _ (List.mem_cons_self ..)) .self)).2

end Lisplet
