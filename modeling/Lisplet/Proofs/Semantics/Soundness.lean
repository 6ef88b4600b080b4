import Lisplet.Proofs.Semantics.Rules

/-!
# Evaluation follows the rules

What a limited evaluation yields is what the rules derive. The evaluator takes one step and leaves
the parts to an evaluator for them, so the argument is about one step: if the evaluator for the
parts follows the rules, so does the step. One lemma for each kind of form says so, and the
statement on whole evaluations is an induction on the limit.
-/

namespace Lisplet

/-! ## Rows and bindings -/

/-- An evaluator whose runs all follow the rules. -/
def Evaluator.IsSound (eval : Evaluator) (host : Host) : Prop :=
  ∀ {node frame s result texts s'}, (eval node frame).Runs s result texts s' →
    Evaluates host s frame node result texts s'

namespace Evaluator.IsSound

open Lisplet.Action

variable {eval : Evaluator} {context : Context} {host : Host} {frame : FrameId} {s s' : Store}
  {texts : List String} {operands : List Node}

/-- A row of trees is evaluated as the rules say. -/
lemma evaluatesAll (heval : eval.IsSound host) {nodes : List Node}
    {result : Except Error (List Value)}
    (h : (evalAll eval frame nodes).Runs s result texts s') :
    EvaluatesAll host s frame nodes result texts s' := by
  induction nodes generalizing s result texts with
  | nil =>
    obtain ⟨rfl, rfl, rfl⟩ := runs_pure.1 h
    exact .nil
  | cons node rest ih =>
    rcases runs_bind.1 h with ⟨error, hnode, rfl⟩ | ⟨value, first, s₁, more, hnode, hrest, rfl⟩
    · exact .headFails (heval hnode)
    · rcases runs_bind_pure.1 hrest with ⟨error, hfail, rfl⟩ | ⟨values, hvalues, rfl⟩
      · exact .tailFails (heval hnode) (ih hfail)
      · exact .cons (heval hnode) (ih hvalues)

/-- New bindings are evaluated as the rules say. -/
lemma initialises (heval : eval.IsSound host) {bindings : List Node}
    {result : Except Error Bindings}
    (h : (SpecialForm.initialValues eval frame bindings).Runs s result texts s') :
    Initialises host s frame bindings result texts s' := by
  induction bindings generalizing s result texts with
  | nil =>
    obtain ⟨rfl, rfl, rfl⟩ := runs_pure.1 h
    exact .nil
  | cons node rest ih =>
    by_cases hnode : ∃ name init, node = .form [.identifier name, init]
    · obtain ⟨name, init, rfl⟩ := hnode
      rcases runs_bind.1 h with ⟨error, hinit, rfl⟩ | ⟨value, first, s₁, more, hinit, hrest, rfl⟩
      · exact .headFails (heval hinit)
      · rcases runs_bind_pure.1 hrest with ⟨error, hfail, rfl⟩ | ⟨values, hvalues, rfl⟩
        · exact .tailFails (heval hinit) (ih hfail)
        · exact .cons (heval hinit) (ih hvalues)
    · have hnode : ∀ name init, node ≠ .form [.identifier name, init] :=
        fun name init heq => hnode ⟨name, init, heq⟩
      rw [SpecialForm.initialValues_of_malformed rest hnode] at h
      obtain ⟨rfl, rfl, rfl⟩ := runs_fail.1 h
      exact .malformed hnode

/-! ## Application -/

/-- A value is applied as the rules say. -/
lemma applies (heval : eval.IsSound context.host) {head : Value} {arguments : List Value}
    {result : Except Error Value} (h : (apply context eval head arguments).Runs s result texts s') :
    Applies context.host s head arguments result texts s' := by
  by_cases hhead : head.IsProcedure
  · cases head with
    | closure identity params body scope =>
      by_cases hcount : params.length = arguments.length
      · rw [apply_closure_of_eq hcount] at h
        rcases runs_enter.1 h with ⟨hnodup, hbody⟩ | ⟨kept, name, hrepeats, rfl, rfl, rfl⟩
        · exact .closure hcount hnodup (heval (runs_trace_bind.1 hbody))
        · exact .repeats hcount hrepeats
      · rw [apply_closure_of_ne hcount] at h
        obtain ⟨rfl, rfl, rfl⟩ := runs_fail.1 h
        exact .argumentCount hcount
    | host callable =>
      obtain ⟨rfl, rfl, rfl⟩ := runs_callHost.1 h
      exact .host
    | _ => exact hhead.elim
  · cases arguments with
    | nil =>
      rw [apply_nil hhead] at h
      obtain ⟨rfl, rfl, rfl⟩ := runs_pure.1 h
      exact .degenerate hhead
    | cons argument more =>
      rw [apply_cons hhead] at h
      obtain ⟨rfl, rfl, rfl⟩ := runs_fail.1 h
      exact .notCallable hhead (List.cons_ne_nil argument more)

/-! ## Special forms -/

/-- Operands that are not of the form of a single one are not one in number. -/
lemma length_ne_one (h : ∀ operand, operands = [operand] → False) : operands.length ≠ 1 := by
  intro hlength
  obtain ⟨operand, hoperand⟩ := List.length_eq_one_iff.1 hlength
  exact h operand hoperand

/-- Lists are made as the rules say. -/
lemma list (heval : eval.IsSound host) {result : Except Error Value}
    (h : (SpecialForm.evalList eval operands frame).Runs s result texts s') :
    Evaluates host s frame (.special .list operands) result texts s' := by
  rcases runs_bind_pure.1 h with ⟨error, hfail, rfl⟩ | ⟨values, hvalues, rfl⟩
  · exact .listFails (heval.evaluatesAll hfail)
  · exact .list (heval.evaluatesAll hvalues)

/-- An operand that hands over items is a list of them. -/
lemma listOperand_ok (heval : eval.IsSound host) {form : SpecialForm} {operand : Node}
    {items : List Value}
    (h : (SpecialForm.listOperand eval form operand frame).Runs s (.ok items) texts s') :
    Evaluates host s frame operand (.ok (.list items)) texts s' := by
  rcases runs_bind.1 h with ⟨error, -, herror⟩ | ⟨value, first, s₁, more, hvalue, hlist, rfl⟩
  · cases herror
  · cases value with
    | list found =>
      obtain ⟨hitems, rfl, rfl⟩ := runs_pure.1 hlist
      cases hitems
      rw [List.append_nil]
      exact heval hvalue
    | _ => cases (runs_fail.1 hlist).1

/-- An operand that hands over no items fails the special form as the rules say. -/
lemma listOperand_error (heval : eval.IsSound host) (form : SpecialForm) (hform : form.TakesList)
    {operand : Node} {error : Error}
    (h : (SpecialForm.listOperand eval form operand frame).Runs s (.error error) texts s') :
    Evaluates host s frame (.special form [operand]) (.error error) texts s' := by
  rcases runs_bind.1 h with ⟨_, hfail, herror⟩ | ⟨value, first, s₁, more, hvalue, hlist, rfl⟩
  · cases herror
    exact .operandFails hform.isStrict (heval hfail)
  · cases value with
    | list found => cases (runs_pure.1 hlist).1
    | _ =>
      obtain ⟨herror, rfl, rfl⟩ := runs_fail.1 hlist
      cases herror
      rw [List.append_nil]
      exact .operandNotList hform (heval hvalue) (by simp)

/-- First items are taken as the rules say. -/
lemma first (heval : eval.IsSound host) {result : Except Error Value}
    (h : (SpecialForm.evalFirst eval operands frame).Runs s result texts s') :
    Evaluates host s frame (.special .first operands) result texts s' := by
  unfold SpecialForm.evalFirst at h
  split at h
  · rcases runs_bind.1 h with ⟨error, hfail, rfl⟩ | ⟨items, texts, s₁, more, hitems, hitem, rfl⟩
    · exact heval.listOperand_error .first trivial hfail
    · have hlist := heval.listOperand_ok hitems
      cases items with
      | nil =>
        obtain ⟨rfl, rfl, rfl⟩ := runs_fail.1 hitem
        rw [List.append_nil]
        exact .firstOfEmpty hlist
      | cons item items =>
        obtain ⟨rfl, rfl, rfl⟩ := runs_pure.1 hitem
        rw [List.append_nil]
        exact .first hlist
  · rename_i hshape
    obtain ⟨rfl, rfl, rfl⟩ := runs_fail.1 h
    exact .operandCount (length_ne_one hshape)

/-- Remaining items are taken as the rules say. -/
lemma rest (heval : eval.IsSound host) {result : Except Error Value}
    (h : (SpecialForm.evalRest eval operands frame).Runs s result texts s') :
    Evaluates host s frame (.special .rest operands) result texts s' := by
  unfold SpecialForm.evalRest at h
  split at h
  · rcases runs_bind_pure.1 h with ⟨error, hfail, rfl⟩ | ⟨items, hitems, rfl⟩
    · exact heval.listOperand_error .rest trivial hfail
    · exact .rest (heval.listOperand_ok hitems)
  · rename_i hshape
    obtain ⟨rfl, rfl, rfl⟩ := runs_fail.1 h
    exact .operandCount (length_ne_one hshape)

/-- Values are printed as the rules say. -/
lemma print (heval : eval.IsSound host) {result : Except Error Value}
    (h : (SpecialForm.evalPrint context eval operands frame).Runs s result texts s') :
    Evaluates host s frame (.special .print operands) result texts s' := by
  unfold SpecialForm.evalPrint at h
  split at h
  · rcases runs_bind.1 h with ⟨error, hfail, rfl⟩ | ⟨value, texts, s₁, more, hvalue, hprint, rfl⟩
    · exact .operandFails trivial (heval hfail)
    · cases htext : value.display with
      | none =>
        rw [htext] at hprint
        obtain ⟨rfl, rfl, rfl⟩ := runs_fail.1 hprint
        rw [List.append_nil]
        exact .printTooLong (heval hvalue) htext
      | some text =>
        rw [htext] at hprint
        rcases runs_bind_pure.1 hprint with ⟨error, hemit, rfl⟩ | ⟨_, hemit, rfl⟩
        · obtain ⟨herror, -, -⟩ := runs_emit.1 hemit
          cases herror
        · obtain ⟨-, rfl, rfl⟩ := runs_emit.1 hemit
          rw [Event.handed_print]
          exact .print (heval hvalue) htext
  · rename_i hshape
    obtain ⟨rfl, rfl, rfl⟩ := runs_fail.1 h
    exact .operandCount (length_ne_one hshape)

/-- Closures are made as the rules say. -/
lemma lambda {result : Except Error Value}
    (h : (SpecialForm.evalLambda operands frame).Runs s result texts s') :
    Evaluates host s frame (.special .lambda operands) result texts s' := by
  unfold SpecialForm.evalLambda at h
  split at h
  · rename_i params body
    rcases SpecialForm.parameters_cases params with
      ⟨names, rfl⟩ | ⟨names, other, more, rfl, hother⟩
    · rw [SpecialForm.parameterNames_map] at h
      have hclosure : (newClosure names body frame).Runs s result texts s' := h
      obtain ⟨rfl, rfl, rfl⟩ := runs_newClosure.1 hclosure
      exact .lambda
    · rw [SpecialForm.parameterNames_map_append names more hother] at h
      have hfail : (fail (Error.naming other.inspect .parameterNotName)).Runs s result texts s' := h
      obtain ⟨rfl, rfl, rfl⟩ := runs_fail.1 hfail
      exact .parameterNotName hother
  · rename_i other body hother
    obtain ⟨rfl, rfl, rfl⟩ := runs_fail.1 h
    exact .parametersNotList hother
  · rename_i hshape
    obtain ⟨rfl, rfl, rfl⟩ := runs_fail.1 h
    refine .operandCount fun hcount => ?_
    obtain ⟨other, body, hoperands⟩ := List.length_eq_two.1 hcount
    exact hshape other body hoperands

/-- Bodies are evaluated with new bindings as the rules say. -/
lemma letIn (heval : eval.IsSound host) {result : Except Error Value}
    (h : (SpecialForm.evalLet eval operands frame).Runs s result texts s') :
    Evaluates host s frame (.special .letIn operands) result texts s' := by
  unfold SpecialForm.evalLet at h
  split at h
  · rcases runs_bind.1 h with
      ⟨error, hfail, rfl⟩ | ⟨initial, first, s₁, more, hinitial, hbody, rfl⟩
    · exact .letFails (heval.initialises hfail)
    · have hinitial := heval.initialises hinitial
      rcases runs_enter.1 hbody with ⟨hnodup, hbody⟩ | ⟨kept, name, hrepeats, rfl, rfl, rfl⟩
      · exact .letIn hinitial hnodup (heval hbody)
      · rw [List.append_nil]
        exact .letRepeats hinitial hrepeats
  · rename_i other body hother
    obtain ⟨rfl, rfl, rfl⟩ := runs_fail.1 h
    exact .bindingsNotList hother
  · rename_i hshape
    obtain ⟨rfl, rfl, rfl⟩ := runs_fail.1 h
    refine .operandCount fun hcount => ?_
    obtain ⟨other, body, hoperands⟩ := List.length_eq_two.1 hcount
    exact hshape other body hoperands

/-- Code is quoted as the rules say. -/
lemma quote {result : Except Error Value}
    (h : (SpecialForm.evalQuote operands).Runs s result texts s') :
    Evaluates host s frame (.special .quote operands) result texts s' := by
  unfold SpecialForm.evalQuote at h
  split at h
  · obtain ⟨rfl, rfl, rfl⟩ := runs_pure.1 h
    exact .quote
  · rename_i hshape
    obtain ⟨rfl, rfl, rfl⟩ := runs_fail.1 h
    exact .operandCount (length_ne_one hshape)

/-- Data is evaluated as code as the rules say. -/
lemma reenter (heval : eval.IsSound host) {result : Except Error Value}
    (h : (SpecialForm.evalEval eval operands frame).Runs s result texts s') :
    Evaluates host s frame (.special .eval operands) result texts s' := by
  unfold SpecialForm.evalEval at h
  split at h
  · rcases runs_bind.1 h with ⟨error, hfail, rfl⟩ | ⟨value, texts, s₁, more, hvalue, hagain, rfl⟩
    · exact .operandFails trivial (heval hfail)
    · have hvalue := heval hvalue
      cases value with
      | quoted code => exact .evalQuoted hvalue (heval (runs_trace_bind.1 hagain))
      | list items => exact .evalList hvalue (heval (runs_trace_bind.1 hagain))
      | _ =>
        obtain ⟨rfl, rfl, rfl⟩ := runs_pure.1 hagain
        rw [List.append_nil]
        exact .evalOther hvalue (by simp) (by simp)
  · rename_i hshape
    obtain ⟨rfl, rfl, rfl⟩ := runs_fail.1 h
    exact .operandCount (length_ne_one hshape)

/-- Branches are chosen as the rules say. -/
lemma choice (heval : eval.IsSound host) {result : Except Error Value}
    (h : (SpecialForm.evalChoice eval operands frame).Runs s result texts s') :
    Evaluates host s frame (.special .choice operands) result texts s' := by
  unfold SpecialForm.evalChoice at h
  split at h
  · rcases runs_bind.1 h with ⟨error, hfail, rfl⟩ | ⟨value, texts, s₁, more, hvalue, hbranch, rfl⟩
    · exact .conditionFails (heval hfail)
    · by_cases hfalse : value.isFalse
      · rw [if_pos hfalse] at hbranch
        exact .alternative (heval hvalue) hfalse (heval hbranch)
      · rw [if_neg hfalse] at hbranch
        exact .consequent (heval hvalue) (Bool.eq_false_iff.2 hfalse) (heval hbranch)
  · rename_i hshape
    obtain ⟨rfl, rfl, rfl⟩ := runs_fail.1 h
    refine .operandCount fun hcount => ?_
    obtain ⟨condition, consequent, alternative, hoperands⟩ := List.length_eq_three.1 hcount
    exact hshape condition consequent alternative hoperands

/-! ## Steps and evaluations -/

/-- Every special form follows the rules if the evaluator for the parts does. -/
lemma run (heval : eval.IsSound context.host) (form : SpecialForm) {result : Except Error Value}
    (h : (form.run context eval operands frame).Runs s result texts s') :
    Evaluates context.host s frame (.special form operands) result texts s' := by
  cases form with
  | list => exact heval.list h
  | first => exact heval.first h
  | rest => exact heval.rest h
  | print => exact heval.print h
  | lambda => exact lambda h
  | letIn => exact heval.letIn h
  | quote => exact quote h
  | eval => exact heval.reenter h
  | choice => exact heval.choice h

/-- A step follows the rules if the evaluator for the parts does. -/
lemma step (heval : eval.IsSound context.host) : IsSound (evalStep context eval) context.host := by
  intro node frame s result texts s' h
  unfold evalStep at h
  split at h
  · obtain ⟨rfl, rfl, rfl⟩ := runs_pure.1 h
    exact .number
  · obtain ⟨rfl, rfl, rfl⟩ := runs_pure.1 h
    exact .string
  · obtain ⟨rfl, rfl, rfl⟩ := runs_pure.1 h
    exact .constant
  · obtain ⟨rfl, rfl, rfl⟩ := runs_lookup.1 h
    exact .identifier
  · obtain ⟨rfl, rfl, rfl⟩ := runs_pure.1 h
    exact .quoteMark
  · obtain ⟨rfl, rfl, rfl⟩ := runs_pure.1 h
    exact .emptyForm
  · rename_i head operands
    split at h
    · rename_i form hform
      rw [Node.specialForm?_eq_some_iff.1 hform]
      exact heval.run form (runs_trace_bind.1 h)
    · rename_i hform
      have hhead := Node.specialForm?_eq_none_iff.1 hform
      rcases runs_bind.1 h with
        ⟨error, hfail, rfl⟩ | ⟨function, first, s₁, more, hfunction, hrest, rfl⟩
      · exact .operatorFails hhead (heval hfail)
      · rcases runs_bind.1 hrest with
          ⟨error, hfail, rfl⟩ | ⟨arguments, second, s₂, last, harguments, happly, rfl⟩
        · exact .operandsFail hhead (heval hfunction) (heval.evaluatesAll hfail)
        · exact .application hhead (heval hfunction) (heval.evaluatesAll harguments)
            (heval.applies happly)
  · obtain ⟨rfl, rfl, rfl⟩ := runs_fail.1 h
    exact .foreign

end Evaluator.IsSound

/-- What an evaluation yields, the rules derive. -/
theorem isSound_evaluate (context : Context) (fuel : Nat) :
    Evaluator.IsSound (evaluate context fuel) context.host := by
  induction fuel with
  | zero =>
    intro node frame s result texts s' h
    exact absurd h Action.not_runs_exhausted
  | succ fuel ih => exact ih.step

end Lisplet
