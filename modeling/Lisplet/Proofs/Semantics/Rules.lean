import Lisplet.Proofs.Semantics.Cases
import Lisplet.Proofs.Semantics.Runs

/-!
# The rules of the language

The meaning of a tree is given by rules, without steps and without a limit to them. Each rule says
how a tree of one shape, in a frame of a store, yields a result: a value or an error, together with
the row of texts that were printed and the store that is left.

Every rule that relies on the value of a part has companions for the part's failure. They say that
the failure is that of the whole, with the texts printed up to it and the store as it is left then.
So the order in which parts are evaluated can be read off the rules: a part is mentioned only where
all parts before it have values.

There are four relations, one for each thing that is evaluated: a tree, a row of trees, the new
bindings of a `let`, and the application of a value to values.
-/

namespace Lisplet

/-! ## The relations -/

mutual

/-- `Evaluates host s frame node result texts s'`: in the frame of the store `s`, the tree yields
the result, prints the texts, and leaves the store `s'`. -/
inductive Evaluates (host : Host) :
    Store → FrameId → Node → Except Error Value → List String → Store → Prop
  /- Leaves. -/
  | number {s frame n} : Evaluates host s frame (.number n) (.ok (.number n)) [] s
  | string {s frame text} : Evaluates host s frame (.string text) (.ok (.text text)) [] s
  | constant {s frame value} : Evaluates host s frame (.constant value) (.ok value) [] s
  | identifier {s frame name} :
      Evaluates host s frame (.identifier name) (.ok (s.lookup frame name)) [] s
  | quoteMark {s frame inner} : Evaluates host s frame (.quote inner) (.ok (.quoted inner)) [] s
  | emptyForm {s frame} : Evaluates host s frame (.form []) (.ok .empty) [] s
  | foreign {s frame} {value : Value} :
      Evaluates host s frame (.foreign value) (.error (Error.naming value.inspect .notCode)) [] s
  /- Special forms in general. -/
  | operandCount {s frame form operands} :
      ¬ SpecialForm.Takes form operands.length →
      Evaluates host s frame (.special form operands) (.error (.operandCount form)) [] s
  | operandFails {s s' frame form operand error texts} :
      SpecialForm.IsStrict form →
      Evaluates host s frame operand (.error error) texts s' →
      Evaluates host s frame (.special form [operand]) (.error error) texts s'
  | operandNotList {s s' frame form operand texts} {value : Value} :
      SpecialForm.TakesList form →
      Evaluates host s frame operand (.ok value) texts s' →
      (∀ items, value ≠ .list items) →
      Evaluates host s frame (.special form [operand])
        (.error (Error.naming value.inspect (.notList form))) texts s'
  /- Lists. -/
  | list {s s' frame operands values texts} :
      EvaluatesAll host s frame operands (.ok values) texts s' →
      Evaluates host s frame (.special .list operands) (.ok (.list values)) texts s'
  | listFails {s s' frame operands error texts} :
      EvaluatesAll host s frame operands (.error error) texts s' →
      Evaluates host s frame (.special .list operands) (.error error) texts s'
  | first {s s' frame operand item items texts} :
      Evaluates host s frame operand (.ok (.list (item :: items))) texts s' →
      Evaluates host s frame (.special .first [operand]) (.ok item) texts s'
  | firstOfEmpty {s s' frame operand texts} :
      Evaluates host s frame operand (.ok (.list [])) texts s' →
      Evaluates host s frame (.special .first [operand]) (.error .firstOfEmpty) texts s'
  | rest {s s' frame operand items texts} :
      Evaluates host s frame operand (.ok (.list items)) texts s' →
      Evaluates host s frame (.special .rest [operand]) (.ok (.list (items.drop 1))) texts s'
  /- Printing. -/
  | print {s s' frame operand text texts} {value : Value} :
      Evaluates host s frame operand (.ok value) texts s' →
      value.display = some text →
      Evaluates host s frame (.special .print [operand]) (.ok value) (texts ++ [text]) s'
  | printTooLong {s s' frame operand texts} {value : Value} :
      Evaluates host s frame operand (.ok value) texts s' →
      value.display = none →
      Evaluates host s frame (.special .print [operand]) (.error .integerTooLong) texts s'
  /- Closures. -/
  | lambda {s frame body} {names : List String} :
      Evaluates host s frame (.special .lambda [.form (names.map .identifier), body])
        (.ok (.closure s.identities names body frame)) [] s.next
  | parameterNotName {s frame more body} {other : Node} {names : List String} :
      (∀ name, other ≠ .identifier name) →
      Evaluates host s frame
        (.special .lambda [.form (names.map .identifier ++ other :: more), body])
        (.error (Error.naming other.inspect .parameterNotName)) [] s
  | parametersNotList {s frame body} {other : Node} :
      (∀ params, other ≠ .form params) →
      Evaluates host s frame (.special .lambda [other, body])
        (.error (Error.naming other.inspect .parametersNotList)) [] s
  /- New bindings. The initial trees are evaluated outside the new frame. -/
  | letIn {s s₁ s' frame bindings body result texts more} {initial : Bindings} :
      Initialises host s frame bindings (.ok initial) texts s₁ →
      initial.names.Nodup →
      Evaluates host (s₁.push ⟨initial, some frame⟩).2 (s₁.push ⟨initial, some frame⟩).1 body
        result more s' →
      Evaluates host s frame (.special .letIn [.form bindings, body]) result (texts ++ more) s'
  | letRepeats {s s₁ frame bindings kept name body texts} {initial : Bindings} :
      Initialises host s frame bindings (.ok initial) texts s₁ →
      initial.RepeatsAt kept name →
      Evaluates host s frame (.special .letIn [.form bindings, body])
        (.error (.duplicateName name)) texts (s₁.push ⟨kept, some frame⟩).2
  | letFails {s s' frame bindings body error texts} :
      Initialises host s frame bindings (.error error) texts s' →
      Evaluates host s frame (.special .letIn [.form bindings, body]) (.error error) texts s'
  | bindingsNotList {s frame body} {other : Node} :
      (∀ bindings, other ≠ .form bindings) →
      Evaluates host s frame (.special .letIn [other, body])
        (.error (Error.naming other.inspect .bindingsNotList)) [] s
  /- Code as data and data as code. -/
  | quote {s frame operand} :
      Evaluates host s frame (.special .quote [operand]) (.ok (.quoted operand)) [] s
  | evalQuoted {s s₁ s' frame operand code result texts more} :
      Evaluates host s frame operand (.ok (.quoted code)) texts s₁ →
      Evaluates host s₁ frame code result more s' →
      Evaluates host s frame (.special .eval [operand]) result (texts ++ more) s'
  | evalList {s s₁ s' frame operand items result texts more} :
      Evaluates host s frame operand (.ok (.list items)) texts s₁ →
      Evaluates host s₁ frame (Node.ofItems items) result more s' →
      Evaluates host s frame (.special .eval [operand]) result (texts ++ more) s'
  | evalOther {s s' frame operand value texts} :
      Evaluates host s frame operand (.ok value) texts s' →
      (∀ code, value ≠ .quoted code) → (∀ items, value ≠ .list items) →
      Evaluates host s frame (.special .eval [operand]) (.ok value) texts s'
  /- Choices. -/
  | consequent {s s₁ s' frame condition consequent alternative result texts more}
      {value : Value} :
      Evaluates host s frame condition (.ok value) texts s₁ →
      value.isFalse = false →
      Evaluates host s₁ frame consequent result more s' →
      Evaluates host s frame (.special .choice [condition, consequent, alternative]) result
        (texts ++ more) s'
  | alternative {s s₁ s' frame condition consequent alternative result texts more}
      {value : Value} :
      Evaluates host s frame condition (.ok value) texts s₁ →
      value.isFalse = true →
      Evaluates host s₁ frame alternative result more s' →
      Evaluates host s frame (.special .choice [condition, consequent, alternative]) result
        (texts ++ more) s'
  | conditionFails {s s' frame condition consequent alternative error texts} :
      Evaluates host s frame condition (.error error) texts s' →
      Evaluates host s frame (.special .choice [condition, consequent, alternative])
        (.error error) texts s'
  /- Application. The operator is evaluated first, then the operands. -/
  | operatorFails {s s' frame head operands error texts} :
      Node.IsOperator head →
      Evaluates host s frame head (.error error) texts s' →
      Evaluates host s frame (.form (head :: operands)) (.error error) texts s'
  | operandsFail {s s₁ s' frame head operands function error texts more} :
      Node.IsOperator head →
      Evaluates host s frame head (.ok function) texts s₁ →
      EvaluatesAll host s₁ frame operands (.error error) more s' →
      Evaluates host s frame (.form (head :: operands)) (.error error) (texts ++ more) s'
  | application {s s₁ s₂ s' frame head operands function arguments result texts more last} :
      Node.IsOperator head →
      Evaluates host s frame head (.ok function) texts s₁ →
      EvaluatesAll host s₁ frame operands (.ok arguments) more s₂ →
      Applies host s₂ function arguments result last s' →
      Evaluates host s frame (.form (head :: operands)) result (texts ++ (more ++ last)) s'

/-- The trees of a row are evaluated from left to right, up to the first that fails. -/
inductive EvaluatesAll (host : Host) :
    Store → FrameId → List Node → Except Error (List Value) → List String → Store → Prop
  | nil {s frame} : EvaluatesAll host s frame [] (.ok []) [] s
  | cons {s s₁ s' frame node rest value values texts more} :
      Evaluates host s frame node (.ok value) texts s₁ →
      EvaluatesAll host s₁ frame rest (.ok values) more s' →
      EvaluatesAll host s frame (node :: rest) (.ok (value :: values)) (texts ++ more) s'
  | headFails {s s' frame node rest error texts} :
      Evaluates host s frame node (.error error) texts s' →
      EvaluatesAll host s frame (node :: rest) (.error error) texts s'
  | tailFails {s s₁ s' frame node rest value error texts more} :
      Evaluates host s frame node (.ok value) texts s₁ →
      EvaluatesAll host s₁ frame rest (.error error) more s' →
      EvaluatesAll host s frame (node :: rest) (.error error) (texts ++ more) s'

/-- New bindings are taken from left to right, up to the first that is malformed or fails. -/
inductive Initialises (host : Host) :
    Store → FrameId → List Node → Except Error Bindings → List String → Store → Prop
  | nil {s frame} : Initialises host s frame [] (.ok []) [] s
  | cons {s s₁ s' frame name init rest value bindings texts more} :
      Evaluates host s frame init (.ok value) texts s₁ →
      Initialises host s₁ frame rest (.ok bindings) more s' →
      Initialises host s frame (.form [.identifier name, init] :: rest)
        (.ok ((name, value) :: bindings)) (texts ++ more) s'
  | headFails {s s' frame name init rest error texts} :
      Evaluates host s frame init (.error error) texts s' →
      Initialises host s frame (.form [.identifier name, init] :: rest) (.error error) texts s'
  | tailFails {s s₁ s' frame name init rest value error texts more} :
      Evaluates host s frame init (.ok value) texts s₁ →
      Initialises host s₁ frame rest (.error error) more s' →
      Initialises host s frame (.form [.identifier name, init] :: rest) (.error error)
        (texts ++ more) s'
  | malformed {s frame rest} {other : Node} :
      (∀ name init, other ≠ .form [.identifier name, init]) →
      Initialises host s frame (other :: rest)
        (.error (Error.naming other.inspect .malformedBinding)) [] s

/-- A value is applied to values. The number of arguments of a closure is looked at before its
parameters are bound. -/
inductive Applies (host : Host) :
    Store → Value → List Value → Except Error Value → List String → Store → Prop
  | closure {s s' identity body scope arguments result texts} {params : List String} :
      params.length = arguments.length →
      (Bindings.names (params.zip arguments)).Nodup →
      Evaluates host (s.push ⟨params.zip arguments, some scope⟩).2
        (s.push ⟨params.zip arguments, some scope⟩).1 body result texts s' →
      Applies host s (.closure identity params body scope) arguments result texts s'
  | repeats {s identity body scope arguments kept name} {params : List String} :
      params.length = arguments.length →
      Bindings.RepeatsAt (params.zip arguments) kept name →
      Applies host s (.closure identity params body scope) arguments
        (.error (.duplicateName name)) [] (s.push ⟨kept, some scope⟩).2
  | argumentCount {s identity scope arguments} {params : List String} {body : Node} :
      params.length ≠ arguments.length →
      Applies host s (.closure identity params body scope) arguments
        (.error (Error.naming ((body.render .surface).map (closureText params)) fun shown =>
          .argumentCount params.length shown arguments.length)) [] s
  | host {s arguments} {callable : Callable} :
      Applies host s (.host callable) arguments (callable.call host s.identities arguments) []
        s.next
  | degenerate {s head} :
      ¬ Value.IsProcedure head → Applies host s head [] (.ok head) [] s
  | notCallable {s head arguments} :
      ¬ Value.IsProcedure head → arguments ≠ [] →
      Applies host s head arguments (.error (notApplicable head arguments)) [] s

end

end Lisplet
