import Lisplet.Eval.Evaluate
import Mathlib.Tactic.Common

/-!
# The cases of evaluation

What an evaluation step does is decided by the shape of the tree, and what an application does by
the sort of the value that is applied. This module names the shapes that matter and says what the
evaluator does with each of them, so that nothing else has to look into its definition.
-/

namespace Lisplet

/-! ## Special forms -/

namespace SpecialForm

/-- How many operands a special form takes. -/
def Takes : SpecialForm → Nat → Prop
  | list, _ => True
  | lambda, count | letIn, count => count = 2
  | choice, count => count = 3
  | first, count | rest, count | print, count | quote, count | eval, count => count = 1

/-- The special forms that begin by evaluating their only operand. -/
def IsStrict : SpecialForm → Prop
  | first | rest | print | eval => True
  | list | lambda | letIn | quote | choice => False

/-- The special forms that look into a list. -/
def TakesList : SpecialForm → Prop
  | first | rest => True
  | list | print | lambda | letIn | quote | eval | choice => False

/-- Special forms that look into a list evaluate it first. -/
lemma TakesList.isStrict {form : SpecialForm} (h : form.TakesList) : form.IsStrict := by
  cases form with
  | first | rest => trivial
  | _ => exact h.elim

/-- A special form with a wrong number of operands fails before it evaluates any of them. -/
lemma run_of_not_takes {form : SpecialForm} {operands : List Node}
    (h : ¬ form.Takes operands.length) (context : Context) (eval : Evaluator) (frame : FrameId) :
    form.run context eval operands frame = Action.fail (.operandCount form) := by
  cases form with
  | list => exact absurd trivial h
  | _ =>
    simp only [run, evalFirst, evalRest, evalPrint, evalLambda, evalLet, evalQuote, evalEval,
      evalChoice]
    split <;> first | rfl | exact absurd rfl h

/-- A special form is known by its name. -/
lemma ofName?_eq_some_iff {name : String} {form : SpecialForm} :
    ofName? name = some form ↔ name = form.name := by
  constructor
  · intro h
    have hname := List.find?_some h
    exact (beq_iff_eq.1 hname).symm
  · rintro rfl
    cases form <;> rfl

/-! ## Parameters and new bindings -/

/-- Parameters are names, up to the first tree that is none. -/
lemma parameters_cases (params : List Node) :
    (∃ names : List String, params = names.map .identifier) ∨
    ∃ (names : List String) (other : Node) (more : List Node),
      params = names.map .identifier ++ other :: more ∧ ∀ name, other ≠ .identifier name := by
  induction params with
  | nil => exact .inl ⟨[], rfl⟩
  | cons node more ih =>
    by_cases hnode : ∃ name, node = .identifier name
    · obtain ⟨name, rfl⟩ := hnode
      rcases ih with ⟨names, rfl⟩ | ⟨names, other, rest, rfl, hother⟩
      · exact .inl ⟨name :: names, rfl⟩
      · exact .inr ⟨name :: names, other, rest, rfl, hother⟩
    · exact .inr ⟨[], node, more, rfl, fun name hname => hnode ⟨name, hname⟩⟩

/-- Names are taken as parameters. -/
lemma parameterNames_map (names : List String) :
    parameterNames (names.map .identifier) = .ok names := by
  induction names with
  | nil => rfl
  | cons name names ih =>
    rw [List.map_cons, parameterNames, ih]
    rfl

/-- The first parameter that is no name is named in an error. -/
lemma parameterNames_map_append (names : List String) {other : Node} (more : List Node)
    (h : ∀ name, other ≠ .identifier name) :
    parameterNames (names.map .identifier ++ other :: more) =
      .error (Error.naming other.inspect .parameterNotName) := by
  induction names with
  | nil =>
    cases other with
    | identifier name => exact absurd rfl (h name)
    | _ => rfl
  | cons name names ih =>
    rw [List.map_cons, List.cons_append, parameterNames, ih]
    rfl

/-- A binding that is not a pair of a name and a tree is named in an error. -/
lemma initialValues_of_malformed {eval : Evaluator} {frame : FrameId} {other : Node}
    (rest : List Node) (h : ∀ name init, other ≠ .form [.identifier name, init]) :
    initialValues eval frame (other :: rest) =
      Action.fail (Error.naming other.inspect .malformedBinding) :=
  initialValues.eq_3 eval frame other rest h

end SpecialForm

/-! ## Forms -/

namespace Node

/-- A form that starts with the name of a special form. -/
def special (form : SpecialForm) (operands : List Node) : Node :=
  .form (.identifier form.name :: operands)

/-- The form that makes a closure. -/
def abstraction (params : List String) (body : Node) : Node :=
  .special .lambda [.form (params.map .identifier), body]

/-- A tree that is not the name of a special form. -/
def IsOperator (head : Node) : Prop :=
  ∀ form : SpecialForm, head ≠ .identifier form.name

/-- A form is special if it starts with the name of a special form. -/
lemma specialForm?_eq_some_iff {head : Node} {form : SpecialForm} :
    head.specialForm? = some form ↔ head = .identifier form.name := by
  cases head with
  | identifier name =>
    rw [Node.identifier.injEq]
    exact SpecialForm.ofName?_eq_some_iff
  | _ => simp [Node.specialForm?]

/-- A form is an application if it starts with anything else. -/
lemma specialForm?_eq_none_iff {head : Node} : head.specialForm? = none ↔ head.IsOperator := by
  rw [Option.eq_none_iff_forall_ne_some]
  exact forall_congr' fun form => not_congr specialForm?_eq_some_iff

end Node

section

variable {context : Context} {eval : Evaluator} {frame : FrameId} {operands : List Node}

/-- A special form is traced and run. -/
lemma evalStep_special {form : SpecialForm} :
    evalStep context eval (.special form operands) frame = (do
      Action.trace .evaluator
        ("special form " ++ form.name ++ " with " ++ toString operands.length ++ " operand(s)")
      form.run context eval operands frame) := by
  have hform : (Node.identifier form.name).specialForm? = some form :=
    Node.specialForm?_eq_some_iff.2 rfl
  simp only [Node.special, evalStep, hform]

/-- In an application the operator is evaluated first, then the operands. -/
lemma evalStep_of_isOperator {head : Node} (h : head.IsOperator) :
    evalStep context eval (.form (head :: operands)) frame = (do
      let function ← eval head frame
      let arguments ← evalAll eval frame operands
      apply context eval function arguments) := by
  simp only [evalStep, Node.specialForm?_eq_none_iff.2 h]

end

/-! ## Application -/

/-- A closure or a procedure of the host. -/
def Value.IsProcedure : Value → Prop
  | .closure _ _ _ _ | .host _ => True
  | _ => False

section

variable {context : Context} {eval : Evaluator}

/-- A closure with as many parameters as arguments runs its body in a new frame. -/
lemma apply_closure_of_eq {identity : Nat} {params : List String} {body : Node} {scope : FrameId}
    {arguments : List Value} (h : params.length = arguments.length) :
    apply context eval (.closure identity params body scope) arguments = (do
      let frame ← Action.child scope
      Action.bindAll frame (params.zip arguments)
      Action.trace .application
        ("apply closure (" ++ Text.joined " " params ++ ") to " ++ toString arguments.length ++
          " argument(s)")
      eval body frame) :=
  if_pos h

/-- A closure with another number of parameters fails. -/
lemma apply_closure_of_ne {identity : Nat} {params : List String} {body : Node} {scope : FrameId}
    {arguments : List Value} (h : params.length ≠ arguments.length) :
    apply context eval (.closure identity params body scope) arguments =
      Action.fail (Error.naming ((body.render .surface).map (closureText params)) fun shown =>
        .argumentCount params.length shown arguments.length) :=
  if_neg h

/-- What is no procedure stands for itself without arguments. -/
lemma apply_nil {head : Value} (h : ¬ head.IsProcedure) :
    apply context eval head [] = pure head := by
  cases head with
  | closure | host => exact absurd trivial h
  | _ => rfl

/-- What is no procedure cannot be applied to arguments. -/
lemma apply_cons {head argument : Value} {more : List Value} (h : ¬ head.IsProcedure) :
    apply context eval head (argument :: more) =
      Action.fail (notApplicable head (argument :: more)) := by
  cases head with
  | closure | host => exact absurd trivial h
  | _ => rfl

end

end Lisplet
