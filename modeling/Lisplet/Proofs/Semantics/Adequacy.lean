import Lisplet.Host.Stock
import Lisplet.Proofs.Semantics.Soundness
import Mathlib.Order.Filter.AtTopBot.Basic

/-!
# Evaluation and the rules agree

What the rules derive, every evaluation with a large enough limit yields. A derivation mentions
finitely many evaluations of parts, and a limit that is large enough for all of them is large enough
for the whole; "for all large enough limits" is Mathlib's `∀ᶠ fuel in atTop`, which is closed under
such finite conjunctions. The proof is an induction on derivations, with one case for each rule.

Both directions together say that the limited evaluator is a faithful account of the rules. Since
the evaluator is a function, the rules derive at most one result.
-/

namespace Lisplet

open Lisplet.Action Filter

/-! ## One step -/

section

variable {context : Context} {eval : Evaluator} {frame : FrameId} {s s' : Store}
  {texts : List String} {form : SpecialForm} {operands : List Node} {operand : Node}
  {result : Except Error Value}

/-- A special form runs as its step says. -/
lemma runs_special (h : (form.run context eval operands frame).Runs s result texts s') :
    (evalStep context eval (.special form operands) frame).Runs s result texts s' := by
  rw [evalStep_special]
  exact runs_trace_bind.2 h

/-- A wrong number of operands ends a special form at once. -/
lemma runs_operandCount (h : ¬ form.Takes operands.length) :
    (form.run context eval operands frame).Runs s (.error (.operandCount form)) [] s := by
  rw [SpecialForm.run_of_not_takes h]
  exact Runs.fail _ _

/-- A strict special form fails with its operand. -/
lemma runs_operandFails (hform : form.IsStrict) {error : Error}
    (h : (eval operand frame).Runs s (.error error) texts s') :
    (form.run context eval [operand] frame).Runs s (.error error) texts s' := by
  cases form with
  | first => exact (h.error_bind _).error_bind _
  | rest => exact (h.error_bind _).error_bind _
  | print => exact h.error_bind _
  | eval => exact h.error_bind _
  | _ => exact hform.elim

/-- An operand that is a list hands over its items. -/
lemma runs_listOperand {items : List Value}
    (h : (eval operand frame).Runs s (.ok (.list items)) texts s') :
    (SpecialForm.listOperand eval form operand frame).Runs s (.ok items) texts s' :=
  h.ok_bind_silent (Runs.pure _ _)

/-- A special form that looks into a list fails on everything else. -/
lemma runs_operandNotList (hform : form.TakesList) {value : Value}
    (h : (eval operand frame).Runs s (.ok value) texts s') (hvalue : ∀ items, value ≠ .list items) :
    (form.run context eval [operand] frame).Runs s
      (.error (Error.naming value.inspect (.notList form))) texts s' := by
  have hoperand : (SpecialForm.listOperand eval form operand frame).Runs s
      (.error (Error.naming value.inspect (.notList form))) texts s' := by
    refine h.ok_bind_silent ?_
    cases value with
    | list items => exact absurd rfl (hvalue items)
    | _ => exact Runs.fail _ _
  cases form with
  | first => exact hoperand.error_bind _
  | rest => exact hoperand.error_bind _
  | _ => exact hform.elim

/-- Printing hands over the text of the value and yields the value. -/
lemma runs_print {value : Value} {text : String}
    (h : (eval operand frame).Runs s (.ok value) texts s') (htext : value.display = some text) :
    (SpecialForm.evalPrint context eval [operand] frame).Runs s (.ok value) (texts ++ [text])
      s' := by
  refine h.ok_bind ?_
  rw [htext]
  refine runs_bind_pure.2 (.inr ⟨(), runs_emit.2 ⟨rfl, ?_, rfl⟩, rfl⟩)
  exact (Event.handed_print context.outlet value text).symm

/-- A value without a text is not printed. -/
lemma runs_printTooLong {value : Value}
    (h : (eval operand frame).Runs s (.ok value) texts s') (htext : value.display = none) :
    (SpecialForm.evalPrint context eval [operand] frame).Runs s (.error .integerTooLong) texts
      s' := by
  refine h.ok_bind_silent ?_
  rw [htext]
  exact Runs.fail _ _

/-- Distinct or not, names make parameters, and the closure takes the next identity. -/
lemma runs_lambda (names : List String) (body : Node) :
    (SpecialForm.evalLambda [.form (names.map .identifier), body] frame).Runs s
      (.ok (.closure s.identities names body frame)) [] s.next := by
  have hnames := (SpecialForm.parameterNames_map names).symm
  refine Runs.ok_bind_silent (runs_ofResult.2 ⟨hnames, rfl, rfl⟩) ?_
  exact runs_newClosure.2 ⟨rfl, rfl, rfl⟩

/-- The first parameter that is no name is reported. -/
lemma runs_parameterNotName (names : List String) {other : Node} (more : List Node) (body : Node)
    (h : ∀ name, other ≠ .identifier name) :
    (SpecialForm.evalLambda [.form (names.map .identifier ++ other :: more), body] frame).Runs s
      (.error (Error.naming other.inspect .parameterNotName)) [] s := by
  refine Runs.error_bind (runs_ofResult.2 ⟨?_, rfl, rfl⟩) _
  exact (SpecialForm.parameterNames_map_append names more h).symm

/-- Parameters that are no form are reported. -/
lemma runs_parametersNotList {other : Node} (body : Node) (h : ∀ params, other ≠ .form params) :
    (SpecialForm.evalLambda [other, body] frame).Runs s
      (.error (Error.naming other.inspect .parametersNotList)) [] s := by
  cases other with
  | form params => exact absurd rfl (h params)
  | _ => exact Runs.fail _ _

/-- Bindings that are no form are reported. -/
lemma runs_bindingsNotList {other : Node} (body : Node) (h : ∀ bindings, other ≠ .form bindings) :
    (SpecialForm.evalLet eval [other, body] frame).Runs s
      (.error (Error.naming other.inspect .bindingsNotList)) [] s := by
  cases other with
  | form bindings => exact absurd rfl (h bindings)
  | _ => exact Runs.fail _ _

/-- A value that is no code evaluates to itself. -/
lemma runs_evalOther {value : Value} (h : (eval operand frame).Runs s (.ok value) texts s')
    (hquoted : ∀ code, value ≠ .quoted code) (hlist : ∀ items, value ≠ .list items) :
    (SpecialForm.evalEval eval [operand] frame).Runs s (.ok value) texts s' := by
  refine h.ok_bind_silent ?_
  cases value with
  | quoted code => exact absurd rfl (hquoted code)
  | list items => exact absurd rfl (hlist items)
  | _ => exact Runs.pure _ _

end

/-! ## Derivations -/

section

variable {context : Context} {frame : FrameId} {s s' : Store} {texts : List String}
  {result : Except Error Value} {node : Node}

/-- A step that every large limit allows makes an evaluation that every large limit allows. -/
lemma eventually_evaluate
    (h : ∀ᶠ fuel in atTop, (evalStep context (evaluate context fuel) node frame).Runs s result
      texts s') :
    ∀ᶠ fuel in atTop, (evaluate context fuel node frame).Runs s result texts s' := by
  obtain ⟨least, hleast⟩ := eventually_atTop.1 h
  refine eventually_atTop.2 ⟨least + 1, fun fuel hfuel => ?_⟩
  obtain ⟨below, rfl⟩ : ∃ below, fuel = below + 1 := ⟨fuel - 1, by omega⟩
  exact hleast below (by omega)

/-- A special form that runs with every large limit is evaluated with every large limit. -/
lemma eventually_special {form : SpecialForm} {operands : List Node}
    (h : ∀ᶠ fuel in atTop, (form.run context (evaluate context fuel) operands frame).Runs s result
      texts s') :
    ∀ᶠ fuel in atTop,
      (evaluate context fuel (.special form operands) frame).Runs s result texts s' :=
  eventually_evaluate (h.mono fun _ hrun => runs_special hrun)

end

mutual

/-- What the rules derive for a tree, every large enough limit yields. -/
theorem Evaluates.eventually {context : Context} {s s' frame node result texts} :
    Evaluates context.host s frame node result texts s' →
      ∀ᶠ fuel in atTop, (evaluate context fuel node frame).Runs s result texts s'
  | .number | .string | .constant | .quoteMark | .emptyForm =>
    eventually_evaluate (.of_forall fun _ => Runs.pure _ _)
  | .identifier => eventually_evaluate (.of_forall fun _ => runs_lookup.2 ⟨rfl, rfl, rfl⟩)
  | .foreign => eventually_evaluate (.of_forall fun _ => Runs.fail _ _)
  | .operandCount h => eventually_special (.of_forall fun _ => runs_operandCount h)
  | .operandFails hform h =>
    eventually_special (h.eventually.mono fun _ hrun => runs_operandFails hform hrun)
  | .operandNotList hform h hvalue =>
    eventually_special (h.eventually.mono fun _ hrun => runs_operandNotList hform hrun hvalue)
  | .list h =>
    eventually_special (h.eventually.mono fun _ hrun => runs_bind_pure.2 (.inr ⟨_, hrun, rfl⟩))
  | .listFails h => eventually_special (h.eventually.mono fun _ hrun => hrun.error_bind _)
  | .first h => by
    refine eventually_special (h.eventually.mono fun fuel hrun => ?_)
    exact (runs_listOperand hrun).ok_bind_silent (Runs.pure _ _)
  | .firstOfEmpty h => by
    refine eventually_special (h.eventually.mono fun fuel hrun => ?_)
    exact (runs_listOperand hrun).ok_bind_silent (Runs.fail _ _)
  | .rest h => by
    refine eventually_special (h.eventually.mono fun fuel hrun => ?_)
    exact runs_bind_pure.2 (.inr ⟨_, runs_listOperand hrun, rfl⟩)
  | .print h htext => eventually_special (h.eventually.mono fun _ hrun => runs_print hrun htext)
  | .printTooLong h htext =>
    eventually_special (h.eventually.mono fun _ hrun => runs_printTooLong hrun htext)
  | .lambda => eventually_special (.of_forall fun _ => runs_lambda _ _)
  | .parameterNotName hother =>
    eventually_special (.of_forall fun _ => runs_parameterNotName _ _ _ hother)
  | .parametersNotList hother =>
    eventually_special (.of_forall fun _ => runs_parametersNotList _ hother)
  | .letIn h hnodup hbody => by
    apply eventually_special
    filter_upwards [h.eventually, hbody.eventually] with fuel hinitial hrun
    exact hinitial.ok_bind (runs_enter.2 (.inl ⟨hnodup, hrun⟩))
  | .letRepeats h hrepeats => by
    refine eventually_special (h.eventually.mono fun fuel hinitial => ?_)
    exact hinitial.ok_bind_silent (runs_enter.2 (.inr ⟨_, _, hrepeats, rfl, rfl, rfl⟩))
  | .letFails h => eventually_special (h.eventually.mono fun _ hrun => hrun.error_bind _)
  | .bindingsNotList hother =>
    eventually_special (.of_forall fun _ => runs_bindingsNotList _ hother)
  | .quote => eventually_special (.of_forall fun _ => Runs.pure _ _)
  | .evalQuoted h hcode => by
    apply eventually_special
    filter_upwards [h.eventually, hcode.eventually] with fuel hvalue hrun
    exact hvalue.ok_bind (runs_trace_bind.2 hrun)
  | .evalList h hcode => by
    apply eventually_special
    filter_upwards [h.eventually, hcode.eventually] with fuel hvalue hrun
    exact hvalue.ok_bind (runs_trace_bind.2 hrun)
  | .evalOther h hquoted hlist =>
    eventually_special (h.eventually.mono fun _ hrun => runs_evalOther hrun hquoted hlist)
  | .consequent h htrue hbranch => by
    apply eventually_special
    filter_upwards [h.eventually, hbranch.eventually] with fuel hvalue hrun
    refine hvalue.ok_bind ?_
    rwa [htrue]
  | .alternative h hfalse hbranch => by
    apply eventually_special
    filter_upwards [h.eventually, hbranch.eventually] with fuel hvalue hrun
    refine hvalue.ok_bind ?_
    rwa [if_pos hfalse]
  | .conditionFails h => eventually_special (h.eventually.mono fun _ hrun => hrun.error_bind _)
  | .operatorFails hhead h => by
    refine eventually_evaluate (h.eventually.mono fun fuel hrun => ?_)
    rw [evalStep_of_isOperator hhead]
    exact hrun.error_bind _
  | .operandsFail hhead h hoperands => by
    apply eventually_evaluate
    filter_upwards [h.eventually, hoperands.eventually] with fuel hfunction hrun
    rw [evalStep_of_isOperator hhead]
    exact hfunction.ok_bind (hrun.error_bind _)
  | .application hhead h hoperands happly => by
    apply eventually_evaluate
    filter_upwards [h.eventually, hoperands.eventually, happly.eventually] with
      fuel hfunction harguments hrun
    rw [evalStep_of_isOperator hhead]
    exact hfunction.ok_bind (harguments.ok_bind hrun)

/-- What the rules derive for a row of trees, every large enough limit yields. -/
theorem EvaluatesAll.eventually {context : Context} {s s' frame nodes result texts} :
    EvaluatesAll context.host s frame nodes result texts s' →
      ∀ᶠ fuel in atTop, (evalAll (evaluate context fuel) frame nodes).Runs s result texts s'
  | .nil => .of_forall fun _ => Runs.pure _ _
  | .cons h hrest => by
    filter_upwards [h.eventually, hrest.eventually] with fuel hvalue hvalues
    exact hvalue.ok_bind (runs_bind_pure.2 (.inr ⟨_, hvalues, rfl⟩))
  | .headFails h => h.eventually.mono fun _ hrun => hrun.error_bind _
  | .tailFails h hrest => by
    filter_upwards [h.eventually, hrest.eventually] with fuel hvalue hfail
    exact hvalue.ok_bind (hfail.error_bind _)

/-- What the rules derive for new bindings, every large enough limit yields. -/
theorem Initialises.eventually {context : Context} {s s' frame bindings result texts} :
    Initialises context.host s frame bindings result texts s' →
      ∀ᶠ fuel in atTop,
        (SpecialForm.initialValues (evaluate context fuel) frame bindings).Runs s result texts s'
  | .nil => .of_forall fun _ => Runs.pure _ _
  | .cons h hrest => by
    filter_upwards [h.eventually, hrest.eventually] with fuel hvalue hvalues
    exact hvalue.ok_bind (runs_bind_pure.2 (.inr ⟨_, hvalues, rfl⟩))
  | .headFails h => h.eventually.mono fun _ hrun => hrun.error_bind _
  | .tailFails h hrest => by
    filter_upwards [h.eventually, hrest.eventually] with fuel hvalue hfail
    exact hvalue.ok_bind (hfail.error_bind _)
  | .malformed hother => by
    refine .of_forall fun fuel => ?_
    rw [SpecialForm.initialValues_of_malformed _ hother]
    exact Runs.fail _ _

/-- What the rules derive for an application, every large enough limit yields. -/
theorem Applies.eventually {context : Context} {s s' head arguments result texts} :
    Applies context.host s head arguments result texts s' →
      ∀ᶠ fuel in atTop,
        (apply context (evaluate context fuel) head arguments).Runs s result texts s'
  | .closure hcount hnodup hbody => by
    refine hbody.eventually.mono fun fuel hrun => ?_
    rw [apply_closure_of_eq hcount]
    exact runs_enter.2 (.inl ⟨hnodup, runs_trace_bind.2 hrun⟩)
  | .repeats hcount hrepeats => by
    refine .of_forall fun fuel => ?_
    rw [apply_closure_of_eq hcount]
    exact runs_enter.2 (.inr ⟨_, _, hrepeats, rfl, rfl, rfl⟩)
  | .argumentCount hcount => by
    refine .of_forall fun fuel => ?_
    rw [apply_closure_of_ne hcount]
    exact Runs.fail _ _
  | .host => .of_forall fun _ => runs_callHost.2 ⟨rfl, rfl, rfl⟩
  | .degenerate hhead => by
    refine .of_forall fun fuel => ?_
    rw [apply_nil hhead]
    exact Runs.pure _ _
  | .notCallable hhead harguments => by
    refine .of_forall fun fuel => ?_
    obtain ⟨argument, more, rfl⟩ := List.exists_cons_of_ne_nil harguments
    rw [apply_cons hhead]
    exact Runs.fail _ _

end

/-- The rules derive at most one result. -/
lemma Evaluates.unique {host : Host} {s frame node result result' texts texts' s' s''}
    (h : Evaluates host s frame node result texts s')
    (h' : Evaluates host s frame node result' texts' s'') :
    result = result' ∧ texts = texts' ∧ s' = s'' := by
  -- Both results are yielded with one common limit, and an evaluation is a function.
  have hrun : ∀ᶠ fuel in atTop,
      (evaluate ⟨.discard, host⟩ fuel node frame).Runs s result texts s' := h.eventually
  have hrun' : ∀ᶠ fuel in atTop,
      (evaluate ⟨.discard, host⟩ fuel node frame).Runs s result' texts' s'' := h'.eventually
  obtain ⟨fuel, ⟨events, heq, rfl⟩, hrun⟩ := (hrun'.and hrun).exists
  obtain ⟨rfl, rfl, rfl⟩ := (runs_iff_of_eq heq).1 hrun
  exact ⟨rfl, rfl, rfl⟩

/-- The evaluator computes exactly what the rules say: some limit lets it end with a result, printed
texts and a store if and only if the rules derive them. Then every large enough limit does, and the
rules derive nothing else. -/
theorem evaluate_iff_evaluates (context : Context) (node : Node) (frame : FrameId)
    (before : Store) :
    (∀ result texts after,
      (∃ fuel events, evaluate context fuel node frame before = some ⟨result, after, events⟩ ∧
        Event.handed events = texts) ↔
      Evaluates context.host before frame node result texts after) ∧
    (∀ result texts after, Evaluates context.host before frame node result texts after →
      ∀ᶠ fuel in atTop, ∃ events,
        evaluate context fuel node frame before = some ⟨result, after, events⟩ ∧
          Event.handed events = texts) ∧
    ∀ result texts after result' texts' after',
      Evaluates context.host before frame node result texts after →
      Evaluates context.host before frame node result' texts' after' →
      result = result' ∧ texts = texts' ∧ after = after' := by
  refine ⟨fun result texts after => ⟨?_, ?_⟩, fun result texts after h => h.eventually, ?_⟩
  · rintro ⟨fuel, hrun⟩
    exact isSound_evaluate context fuel hrun
  · intro h
    exact h.eventually.exists
  · intro result texts after result' texts' after' h h'
    exact h.unique h'

/-- The form `((lambda (x) (print x)) "seven")`. -/
def appliedPrinter : Node :=
  .form [.special .lambda [.form [.identifier "x"], .special .print [.identifier "x"]],
    .string "seven"]

/-- The form prints its argument and yields it, leaves one new frame and one closure, and has no
other meaning. -/
theorem evaluates_appliedPrinter :
    Evaluates Stock.host (Store.empty.root []).2 ⟨0⟩ appliedPrinter (.ok (.text "seven")) ["seven"]
        ⟨#[⟨[], none⟩, ⟨[("x", .text "seven")], some ⟨0⟩⟩], 1⟩ ∧
      ∀ result texts after,
        Evaluates Stock.host (Store.empty.root []).2 ⟨0⟩ appliedPrinter result texts after →
        result = .ok (.text "seven") ∧ texts = ["seven"] ∧
          after = ⟨#[⟨[], none⟩, ⟨[("x", .text "seven")], some ⟨0⟩⟩], 1⟩ := by
  obtain ⟨hiff, -, hunique⟩ :=
    evaluate_iff_evaluates ⟨.capture, Stock.host⟩ appliedPrinter ⟨0⟩ (Store.empty.root []).2
  have hprints := (hiff _ _ _).1 ⟨4, _, rfl, rfl⟩
  refine ⟨hprints, ?_⟩
  intro result texts after h
  exact hunique _ _ _ _ _ _ h hprints

end Lisplet
