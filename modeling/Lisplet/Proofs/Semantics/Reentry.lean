import Lisplet.Proofs.Semantics.Adequacy

/-!
# Data as code

Quoting makes data of code and `eval` makes code of data. This module says how the two fit together.

The form `eval` evaluates twice: first its operand, and then the tree that the value of the operand
stands for, which is `Value.asCode`. Quoted code stands for itself and a list for the form that it
spells. Every other value stands for a constant, and a constant is its value. So there is one rule
for all values, `evaluates_eval_iff`, and the laws follow from it: a list of quoted trees is the
form of these trees, a list of other values is the application of the first to the others, and
towers of quotations and evaluations collapse.

Two trees are evaluated alike if the same results, printed texts and final stores come about with
both of them. Debug records are no part of it, and neither is the number of steps.
-/

namespace Lisplet

open Lisplet.Action Filter

/-- In a frame of a store, one tree ends with a result, printed texts and a store if and only if the
other one does. In particular, one of them ends if and only if the other one does. -/
def EvaluatedAlike (context : Context) (store : Store) (frame : FrameId) (first second : Node) :
    Prop :=
  ∀ result texts after,
    (∃ fuel, (evaluate context fuel first frame).Runs store result texts after) ↔
      ∃ fuel, (evaluate context fuel second frame).Runs store result texts after

/-! ## From rules to steps and back -/

section

variable {host : Host} {s s' : Store} {frame : FrameId} {node : Node} {texts : List String}
  {result : Except Error Value}

/-- Some limit is large enough for an evaluation exactly if the rules derive what it yields. -/
lemma exists_runs_iff {context : Context} :
    (∃ fuel, (evaluate context fuel node frame).Runs s result texts s') ↔
      Evaluates context.host s frame node result texts s' := by
  constructor
  · rintro ⟨fuel, hrun⟩
    exact isSound_evaluate context fuel hrun
  · intro h
    exact h.eventually.exists

/-- Some limit is large enough for a row exactly if the rules derive what it yields. -/
lemma exists_runs_row_iff {context : Context} {nodes : List Node}
    {row : Except Error (List Value)} :
    (∃ fuel, (evalAll (evaluate context fuel) frame nodes).Runs s row texts s') ↔
      EvaluatesAll context.host s frame nodes row texts s' := by
  constructor
  · rintro ⟨fuel, hrun⟩
    exact Evaluator.IsSound.evaluatesAll (isSound_evaluate context fuel) hrun
  · intro h
    exact h.eventually.exists

/-- Trees are evaluated alike if the rules derive the same for them. -/
lemma evaluatedAlike_iff {context : Context} {first second : Node} :
    EvaluatedAlike context s frame first second ↔ ∀ result texts s',
      Evaluates context.host s frame first result texts s' ↔
        Evaluates context.host s frame second result texts s' := by
  simp only [EvaluatedAlike, exists_runs_iff]

/-- What the rules derive, a step yields whose parts are evaluated by the rules. -/
lemma Evaluates.exists_step (context : Context)
    (h : Evaluates context.host s frame node result texts s') :
    ∃ eval : Evaluator, eval.IsSound context.host ∧
      (evalStep context eval node frame).Runs s result texts s' := by
  obtain ⟨fuel, hrun⟩ := exists_runs_iff.2 h
  cases fuel with
  | zero => exact absurd hrun not_runs_exhausted
  | succ fuel => exact ⟨evaluate context fuel, isSound_evaluate context fuel, hrun⟩

/-- What the rules derive is all that they derive. -/
lemma Evaluates.iff_eq (h : Evaluates host s frame node result texts s')
    {other : Except Error Value} {texts' : List String} {s'' : Store} :
    Evaluates host s frame node other texts' s'' ↔
      other = result ∧ texts' = texts ∧ s'' = s' := by
  constructor
  · intro h'
    exact h'.unique h
  · rintro ⟨rfl, rfl, rfl⟩
    exact h

/-- The rules derive at most one result for a row of trees. -/
lemma EvaluatesAll.unique {nodes : List Node} {row row' : Except Error (List Value)}
    {texts' : List String} {s'' : Store} (h : EvaluatesAll host s frame nodes row texts s')
    (h' : EvaluatesAll host s frame nodes row' texts' s'') :
    row = row' ∧ texts = texts' ∧ s' = s'' := by
  have hrun : ∀ᶠ fuel in atTop,
      (evalAll (evaluate ⟨.discard, host⟩ fuel) frame nodes).Runs s row texts s' := h.eventually
  have hrun' : ∀ᶠ fuel in atTop,
      (evalAll (evaluate ⟨.discard, host⟩ fuel) frame nodes).Runs s row' texts' s'' :=
    h'.eventually
  obtain ⟨fuel, ⟨events, heq, rfl⟩, hrun⟩ := (hrun'.and hrun).exists
  exact (runs_iff_of_eq heq).1 hrun

/-- A row of trees that yield values and do nothing else. -/
lemma evaluatesAll_map {α : Type} {tree : α → Node} {value : α → Value}
    (h : ∀ item, Evaluates host s frame (tree item) (.ok (value item)) [] s) (items : List α) :
    EvaluatesAll host s frame (items.map tree) (.ok (items.map value)) [] s := by
  induction items with
  | nil => exact .nil
  | cons item items ih => exact .cons (h item) ih

end

/-! ## The forms at hand -/

/-- The tree that is evaluated for a value. -/
def Value.asCode : Value → Node
  | .list items => Node.ofItems items
  | value => value.toNode

section

variable {host : Host} {s s' : Store} {frame : FrameId} {texts : List String}
  {result : Except Error Value}

/-- The operand is evaluated, and then its value is evaluated as code. -/
lemma evaluates_eval_iff {operand : Node} :
    Evaluates host s frame (.special .eval [operand]) result texts s' ↔
      (∃ error, Evaluates host s frame operand (.error error) texts s' ∧ result = .error error) ∨
      ∃ value first middle more, Evaluates host s frame operand (.ok value) first middle ∧
        Evaluates host middle frame value.asCode result more s' ∧ texts = first ++ more := by
  constructor
  · intro h
    obtain ⟨eval, heval, hrun⟩ := Evaluates.exists_step ⟨.discard, host⟩ h
    rw [evalStep_special] at hrun
    rcases runs_bind.1 (runs_trace_bind.1 hrun) with
      ⟨error, hfail, rfl⟩ | ⟨value, first, middle, more, hvalue, hagain, rfl⟩
    · exact .inl ⟨error, heval hfail, rfl⟩
    · refine .inr ⟨value, first, middle, more, heval hvalue, ?_, rfl⟩
      cases value with
      | quoted code => exact heval (runs_trace_bind.1 hagain)
      | list items => exact heval (runs_trace_bind.1 hagain)
      | _ =>
        obtain ⟨rfl, rfl, rfl⟩ := runs_pure.1 hagain
        exact .constant
  · rintro (⟨error, hfail, rfl⟩ | ⟨value, first, middle, more, hvalue, hagain, rfl⟩)
    · exact .operandFails trivial hfail
    · cases value with
      | quoted code => exact .evalQuoted hvalue hagain
      | list items => exact .evalList hvalue hagain
      | _ =>
        obtain ⟨rfl, rfl, rfl⟩ := Evaluates.constant.iff_eq.1 hagain
        rw [List.append_nil]
        exact .evalOther hvalue (by simp) (by simp)

/-- A list is the row of the values of its operands. -/
lemma evaluates_list_iff {operands : List Node} :
    Evaluates host s frame (.special .list operands) result texts s' ↔
      ∃ row, EvaluatesAll host s frame operands row texts s' ∧ result = row.map .list := by
  constructor
  · intro h
    obtain ⟨eval, heval, hrun⟩ := Evaluates.exists_step ⟨.discard, host⟩ h
    rw [evalStep_special] at hrun
    rcases runs_bind_pure.1 (runs_trace_bind.1 hrun) with
      ⟨error, hfail, rfl⟩ | ⟨values, hvalues, rfl⟩
    · exact ⟨.error error, heval.evaluatesAll hfail, rfl⟩
    · exact ⟨.ok values, heval.evaluatesAll hvalues, rfl⟩
  · rintro ⟨error | values, hrow, rfl⟩
    · exact .listFails hrow
    · exact .list hrow

/-- An application evaluates the row of its trees, and then applies the first value to the
others. -/
lemma evaluates_application_iff {head : Node} {operands : List Node} (hhead : head.IsOperator) :
    Evaluates host s frame (.form (head :: operands)) result texts s' ↔
      (∃ error, EvaluatesAll host s frame (head :: operands) (.error error) texts s' ∧
        result = .error error) ∨
      ∃ function arguments first middle more,
        EvaluatesAll host s frame (head :: operands) (.ok (function :: arguments)) first middle ∧
        Applies host middle function arguments result more s' ∧ texts = first ++ more := by
  constructor
  · intro h
    obtain ⟨eval, heval, hrun⟩ := Evaluates.exists_step ⟨.discard, host⟩ h
    rw [evalStep_of_isOperator hhead] at hrun
    rcases runs_bind.1 hrun with
      ⟨error, hfail, rfl⟩ | ⟨function, first, middle, more, hfunction, hrest, rfl⟩
    · exact .inl ⟨error, .headFails (heval hfail), rfl⟩
    · rcases runs_bind.1 hrest with
        ⟨error, hfail, rfl⟩ | ⟨arguments, second, later, last, harguments, happly, rfl⟩
      · exact .inl ⟨error, .tailFails (heval hfunction) (heval.evaluatesAll hfail), rfl⟩
      · refine .inr ⟨function, arguments, first ++ second, later, last, ?_, ?_, ?_⟩
        · exact .cons (heval hfunction) (heval.evaluatesAll harguments)
        · exact Evaluator.IsSound.applies heval happly
        · rw [List.append_assoc]
  · rintro (⟨error, hrow, rfl⟩ | ⟨function, arguments, first, middle, more, hrow, happly, rfl⟩)
    · cases hrow with
      | headFails hfail => exact .operatorFails hhead hfail
      | tailFails hfunction hfail => exact .operandsFail hhead hfunction hfail
    · cases hrow with
      | cons hfunction harguments =>
        rw [List.append_assoc]
        exact .application hhead hfunction harguments happly

end

/-! ## Lists that spell code -/

section

variable {host : Host} {s s' : Store} {frame : FrameId} {texts : List String}
  {result : Except Error Value}

/-- A list that is evaluated as code has its items evaluated once, as items of the list. Then the
form that they spell is evaluated. -/
lemma evaluates_eval_list_iff {operands : List Node} :
    Evaluates host s frame (.special .eval [.special .list operands]) result texts s' ↔
      (∃ error, EvaluatesAll host s frame operands (.error error) texts s' ∧
        result = .error error) ∨
      ∃ values first middle more, EvaluatesAll host s frame operands (.ok values) first middle ∧
        Evaluates host middle frame (Node.ofItems values) result more s' ∧
        texts = first ++ more := by
  rw [evaluates_eval_iff]
  simp only [evaluates_list_iff]
  constructor
  · rintro (⟨error, ⟨row, hrow, heq⟩, rfl⟩ | ⟨value, first, middle, more, ⟨row, hrow, heq⟩, h⟩)
    · cases row with
      | error cause =>
        obtain rfl : error = cause := Except.error.inj heq
        exact .inl ⟨error, hrow, rfl⟩
      | ok values => cases heq
    · cases row with
      | error cause => cases heq
      | ok values =>
        obtain rfl : value = .list values := Except.ok.inj heq
        exact .inr ⟨values, first, middle, more, hrow, h⟩
  · rintro (⟨error, hrow, rfl⟩ | ⟨values, first, middle, more, hrow, h⟩)
    · exact .inl ⟨error, ⟨.error error, hrow, rfl⟩, rfl⟩
    · exact .inr ⟨.list values, first, middle, more, ⟨.ok values, hrow, rfl⟩, h⟩

/-- A list of quoted trees spells the form of the trees. -/
lemma ofItems_map_quoted (nodes : List Node) : Node.ofItems (nodes.map .quoted) = .form nodes := by
  have hmap : (nodes.map Value.quoted).map Value.toNode = nodes := by
    rw [List.map_map]
    exact List.map_id nodes
  rw [Node.ofItems, hmap]

/-- A list without quoted code spells a form of constants. -/
lemma ofItems_of_forall_ne {values : List Value} (h : ∀ code, .quoted code ∉ values) :
    Node.ofItems values = .form (values.map .constant) := by
  have hmap : values.map Value.toNode = values.map .constant := by
    refine List.map_congr_left fun value hvalue => ?_
    cases value with
    | quoted code => exact absurd hvalue (h code)
    | _ => rfl
  rw [Node.ofItems, hmap]

/-- A form of constants applies the first of their values to the others. -/
lemma evaluates_constants_iff {function : Value} {arguments : List Value} :
    Evaluates host s frame (.form ((function :: arguments).map .constant)) result texts s' ↔
      Applies host s function arguments result texts s' := by
  have hrow : EvaluatesAll host s frame ((function :: arguments).map .constant)
      (.ok ((function :: arguments).map id)) [] s :=
    evaluatesAll_map (fun _ => .constant) _
  have hhead : (Node.constant function).IsOperator := fun _ => nofun
  rw [List.map_id] at hrow
  rw [List.map_cons] at hrow ⊢
  rw [evaluates_application_iff hhead]
  constructor
  · rintro (⟨error, hfail, rfl⟩ | ⟨other, others, first, middle, more, hother, happly, rfl⟩)
    · cases (hfail.unique hrow).1
    · obtain ⟨hvalues, rfl, rfl⟩ := hother.unique hrow
      obtain ⟨rfl, rfl⟩ := List.cons.inj (Except.ok.inj hvalues)
      exact happly
  · intro happly
    exact .inr ⟨function, arguments, [], s, texts, hrow, happly, rfl⟩

/-- Quoted trees in a list are evaluated as the form of the trees. -/
lemma evaluates_eval_quotes_iff (nodes : List Node) :
    Evaluates host s frame (.special .eval [.special .list (nodes.map .quote)]) result texts s' ↔
      Evaluates host s frame (.form nodes) result texts s' := by
  have hrow : EvaluatesAll host s frame (nodes.map .quote) (.ok (nodes.map .quoted)) [] s :=
    evaluatesAll_map (fun _ => .quoteMark) nodes
  rw [evaluates_eval_list_iff]
  constructor
  · rintro (⟨error, hfail, rfl⟩ | ⟨values, first, middle, more, hvalues, hagain, rfl⟩)
    · cases (hfail.unique hrow).1
    · obtain ⟨heq, rfl, rfl⟩ := hvalues.unique hrow
      obtain rfl := Except.ok.inj heq
      rwa [ofItems_map_quoted] at hagain
  · intro h
    rw [← ofItems_map_quoted] at h
    exact .inr ⟨nodes.map .quoted, [], s, texts, hrow, h, rfl⟩

/-- Values in a list that are no quoted code are applied as they are. -/
lemma evaluates_eval_values_iff {head : Node} {operands : List Node} (hhead : head.IsOperator)
    (hvalues : ∀ values first middle,
      EvaluatesAll host s frame (head :: operands) (.ok values) first middle →
        ∀ code, .quoted code ∉ values) :
    Evaluates host s frame (.special .eval [.special .list (head :: operands)]) result texts s' ↔
      Evaluates host s frame (.form (head :: operands)) result texts s' := by
  rw [evaluates_eval_list_iff, evaluates_application_iff hhead]
  refine or_congr_right ⟨?_, ?_⟩
  · rintro ⟨values, first, middle, more, hrow, hagain, rfl⟩
    rw [ofItems_of_forall_ne (hvalues values first middle hrow)] at hagain
    cases hrow with
    | cons hfunction harguments =>
      exact ⟨_, _, _, middle, more, .cons hfunction harguments,
        evaluates_constants_iff.1 hagain, rfl⟩
  · rintro ⟨function, arguments, first, middle, more, hrow, happly, rfl⟩
    refine ⟨function :: arguments, first, middle, more, hrow, ?_, rfl⟩
    rw [ofItems_of_forall_ne (hvalues _ first middle hrow)]
    exact evaluates_constants_iff.2 happly

end

/-- Evaluating a list as code is evaluating the form that it spells. A list of quoted trees is
evaluated like the form of these trees, whatever the trees are. A list of other trees, none of which
has quoted code as its value, is evaluated like the form of these trees if that is an application:
the values of the trees are not evaluated again. -/
theorem eval_list_evaluated_as_form (context : Context) (store : Store) (frame : FrameId) :
    (∀ nodes : List Node,
      EvaluatedAlike context store frame (.special .eval [.special .list (nodes.map .quote)])
        (.form nodes)) ∧
    ∀ (head : Node) (operands : List Node), head.IsOperator →
      (∀ fuel values texts after,
        (evalAll (evaluate context fuel) frame (head :: operands)).Runs store (.ok values) texts
          after → ∀ code, .quoted code ∉ values) →
      EvaluatedAlike context store frame (.special .eval [.special .list (head :: operands)])
        (.form (head :: operands)) := by
  constructor
  · intro nodes
    refine evaluatedAlike_iff.2 fun result texts after => ?_
    exact evaluates_eval_quotes_iff nodes
  · intro head operands hhead hvalues
    refine evaluatedAlike_iff.2 fun result texts after => ?_
    refine evaluates_eval_values_iff hhead fun values first middle hrow => ?_
    obtain ⟨fuel, hrun⟩ := exists_runs_row_iff.2 hrow
    exact hvalues fuel values first middle hrun

/-- The trees of `((lambda (x) x) (list 'print "a"))`. -/
def appliedToCode : List Node :=
  [.abstraction ["x"] (.identifier "x"),
    .special .list [.quote (.identifier "print"), .string "a"]]

/-- A list of the quoted trees of `(print "a")` prints when it is evaluated as code. Where a list
that looks like this code is an argument, it is not evaluated: it is what the closure is applied to,
and nothing is printed. -/
theorem eval_list_prints_or_applies :
    (∃ fuel, (evaluate ⟨.capture, Stock.host⟩ fuel
        (.special .eval [.special .list [.quote (.identifier "print"), .quote (.string "a")]])
        ⟨0⟩).Runs (Store.empty.root []).2 (.ok (.text "a")) ["a"] (Store.empty.root []).2) ∧
      ∃ fuel after, (evaluate ⟨.capture, Stock.host⟩ fuel
        (.special .eval [.special .list appliedToCode]) ⟨0⟩).Runs (Store.empty.root []).2
          (.ok (.list [.quoted (.identifier "print"), .text "a"])) [] after := by
  obtain ⟨hquotes, hvalues⟩ :=
    eval_list_evaluated_as_form ⟨.capture, Stock.host⟩ (Store.empty.root []).2 ⟨0⟩
  have hhead : (Node.abstraction ["x"] (.identifier "x")).IsOperator := fun _ => nofun
  have hprint : (evaluate ⟨.capture, Stock.host⟩ 2 (.special .print [.string "a"]) ⟨0⟩).Runs
      (Store.empty.root []).2 (.ok (.text "a")) ["a"] (Store.empty.root []).2 := ⟨_, rfl, rfl⟩
  have hrow : (evalAll (evaluate ⟨.capture, Stock.host⟩ 2) ⟨0⟩ appliedToCode).Runs
      (Store.empty.root []).2 (.ok [.closure 0 ["x"] (.identifier "x") ⟨0⟩,
        .list [.quoted (.identifier "print"), .text "a"]]) []
      { (Store.empty.root []).2 with identities := 1 } := ⟨_, rfl, rfl⟩
  have hplain : ∀ fuel values texts after,
      (evalAll (evaluate ⟨.capture, Stock.host⟩ fuel) ⟨0⟩ appliedToCode).Runs
        (Store.empty.root []).2 (.ok values) texts after → ∀ code, .quoted code ∉ values := by
    intro fuel values texts after hrun code
    have hfirst := exists_runs_row_iff.1 ⟨2, hrow⟩
    have hsecond := exists_runs_row_iff.1 ⟨fuel, hrun⟩
    obtain rfl := Except.ok.inj (hfirst.unique hsecond).1
    simp
  have happlied : (evaluate ⟨.capture, Stock.host⟩ 3 (.form appliedToCode) ⟨0⟩).Runs
      (Store.empty.root []).2 (.ok (.list [.quoted (.identifier "print"), .text "a"])) []
      ⟨#[⟨[], none⟩, ⟨[("x", .list [.quoted (.identifier "print"), .text "a"])], some ⟨0⟩⟩], 1⟩ :=
    ⟨_, rfl, rfl⟩
  refine ⟨(hquotes [.identifier "print", .string "a"] _ _ _).2 ⟨2, hprint⟩, ?_⟩
  obtain ⟨fuel, hrun⟩ := (hvalues _ _ hhead hplain _ _ _).2 ⟨3, happlied⟩
  exact ⟨fuel, _, hrun⟩

/-! ## Towers of quotations and evaluations -/

/-- The ways to quote a tree. -/
inductive Quotation where
  /-- With a quote mark. -/
  | mark
  /-- With the special form. -/
  | spelled
  /-- In any way, inside one more pair of parentheses. -/
  | parenthesised (inner : Quotation)

/-- A tree that is quoted in a given way. -/
def Quotation.of (node : Node) : Quotation → Node
  | mark => .quote node
  | spelled => .special .quote [node]
  | parenthesised inner => .form [inner.of node]

/-- A tower of layers on a tree, the uppermost first. Every layer quotes what is below it and
evaluates that again. -/
def Node.tower (node : Node) : List Quotation → Node
  | [] => node
  | layer :: layers => .special .eval [layer.of (node.tower layers)]

/-- A tree inside a number of evaluations. -/
def Node.reentered (node : Node) : Nat → Node
  | 0 => node
  | count + 1 => .special .eval [node.reentered count]

section

variable {host : Host} {s s' : Store} {frame : FrameId} {node : Node} {texts : List String}
  {result : Except Error Value}

/-- A quoted tree is never the name of a special form. -/
lemma Quotation.isOperator (quotation : Quotation) (node : Node) :
    (quotation.of node).IsOperator := by
  cases quotation <;> exact fun _ => nofun

/-- However a tree is quoted, the value is the tree as data, and nothing else happens. -/
lemma Quotation.evaluates (quotation : Quotation) (node : Node) :
    Evaluates host s frame (quotation.of node) (.ok (.quoted node)) [] s := by
  induction quotation with
  | mark => exact .quoteMark
  | spelled => exact .quote
  | parenthesised inner ih =>
    have hplain : ¬ (Value.quoted node).IsProcedure := id
    exact .application (inner.isOperator node) ih .nil (.degenerate hplain)

/-- One layer is evaluated like what is below it. -/
lemma evaluates_layer_iff (layer : Quotation) :
    Evaluates host s frame (.special .eval [layer.of node]) result texts s' ↔
      Evaluates host s frame node result texts s' := by
  have hquoted : Evaluates host s frame (layer.of node) (.ok (.quoted node)) [] s :=
    layer.evaluates node
  rw [evaluates_eval_iff]
  constructor
  · rintro (⟨error, hfail, -⟩ | ⟨value, first, middle, more, hvalue, hagain, rfl⟩)
    · cases (hquoted.iff_eq.1 hfail).1
    · obtain ⟨heq, rfl, rfl⟩ := hquoted.iff_eq.1 hvalue
      obtain rfl := Except.ok.inj heq
      exact hagain
  · intro h
    exact .inr ⟨.quoted node, [], s, texts, hquoted, h, rfl⟩

/-- A tower is evaluated like the tree at its bottom. -/
lemma evaluates_tower_iff (layers : List Quotation) :
    Evaluates host s frame (node.tower layers) result texts s' ↔
      Evaluates host s frame node result texts s' := by
  induction layers with
  | nil => exact Iff.rfl
  | cons layer layers ih => exact (evaluates_layer_iff layer).trans ih

/-- A value that is neither code nor a list is not changed by evaluations around its tree. -/
lemma Evaluates.reentered {value : Value} (h : Evaluates host s frame node (.ok value) texts s')
    (hquoted : ∀ code, value ≠ .quoted code) (hlist : ∀ items, value ≠ .list items)
    (count : Nat) : Evaluates host s frame (node.reentered count) (.ok value) texts s' := by
  induction count with
  | zero => exact h
  | succ count ih => exact .evalOther ih hquoted hlist

end

/-- Quotations and evaluations cancel. A tower of any height, in which every layer quotes in its own
way, is evaluated like the tree at its bottom. If a tree has a value that is neither code nor a
list, then inside any number of evaluations it has the same value, prints the same texts once, and
leaves the same store. -/
theorem towers_evaluated_as_bottom (context : Context) (store : Store) (frame : FrameId)
    (node : Node) :
    (∀ layers : List Quotation, EvaluatedAlike context store frame (node.tower layers) node) ∧
    ∀ value texts after,
      (∃ fuel, (evaluate context fuel node frame).Runs store (.ok value) texts after) →
      (∀ code, value ≠ .quoted code) → (∀ items, value ≠ .list items) →
      ∀ count result texts' after',
        (∃ fuel, (evaluate context fuel (node.reentered count) frame).Runs store result texts'
          after') ↔ result = .ok value ∧ texts' = texts ∧ after' = after := by
  constructor
  · intro layers
    refine evaluatedAlike_iff.2 fun result texts after => ?_
    exact evaluates_tower_iff layers
  · intro value texts after hends hquoted hlist count result texts' after'
    have hvalue : Evaluates context.host store frame node (.ok value) texts after :=
      exists_runs_iff.1 hends
    rw [exists_runs_iff]
    exact (hvalue.reentered hquoted hlist count).iff_eq

/-- The form `(eval (('(eval (quote (print "a"))))))` prints once and yields the text, and so does
`(eval (eval (eval (print "a"))))`. -/
theorem tower_prints_once :
    (∃ fuel, (evaluate ⟨.capture, Stock.host⟩ fuel
        (Node.tower (.special .print [.string "a"])
          [.parenthesised (.parenthesised .mark), .spelled]) ⟨0⟩).Runs
        (Store.empty.root []).2 (.ok (.text "a")) ["a"] (Store.empty.root []).2) ∧
      ∃ fuel, (evaluate ⟨.capture, Stock.host⟩ fuel
        (Node.reentered (.special .print [.string "a"]) 3) ⟨0⟩).Runs
        (Store.empty.root []).2 (.ok (.text "a")) ["a"] (Store.empty.root []).2 := by
  have hprint : ∃ fuel, (evaluate ⟨.capture, Stock.host⟩ fuel (.special .print [.string "a"])
      ⟨0⟩).Runs (Store.empty.root []).2 (.ok (.text "a")) ["a"] (Store.empty.root []).2 :=
    ⟨2, _, rfl, rfl⟩
  obtain ⟨htowers, hvalues⟩ := towers_evaluated_as_bottom ⟨.capture, Stock.host⟩
    (Store.empty.root []).2 ⟨0⟩ (.special .print [.string "a"])
  constructor
  · exact (htowers _ _ _ _).2 hprint
  · exact (hvalues _ _ _ hprint (by simp) (by simp) 3 _ _ _).2 ⟨rfl, rfl, rfl⟩

end Lisplet
