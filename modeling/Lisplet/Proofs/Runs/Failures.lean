import Lisplet.Host.Stock
import Lisplet.Proofs.Machine.Agreement
import Lisplet.Proofs.Machine.Discipline
import Lisplet.Proofs.Reader.RoundTrip

/-!
# How programs without host procedures fail

A program that is read from a source, and is given plain data only, cannot get at anything that has
no text, at a procedure of the host, or at code with a value in the place of a tree. It can quote
code, take lists apart and evaluate lists as code, but whatever it assembles in this way is made of
names, literals, data and closures. Therefore it fails in a few ways only, and the messages of its
failures, like its value, can be written down.

That nothing else ever occurs in a run is the discipline `Machine.Discipline.plain`.
-/

namespace Lisplet

/-! ## Plain data -/

mutual

/-- Numbers that have a text, texts, and lists of such data. -/
def Value.IsData : Value → Prop
  | .number (.int n) => n.natAbs < Nat.pow 10 Number.digitLimit
  | .number _ | .text _ => True
  | .list items => Value.AllData items
  | _ => False

/-- Lists of numbers that have a text, texts, and lists of such data. -/
def Value.AllData : List Value → Prop
  | [] => True
  | value :: rest => value.IsData ∧ Value.AllData rest

end

/-- All numbers have a text, and there are neither procedures of the host nor values in the place of
code. -/
def Criterion.plain : Criterion :=
  { any with number := fun n => n.text.isSome, callable := fun _ => False, foreign := False }

mutual

/-- Data is plain. -/
theorem Value.IsData.meets : ∀ {value : Value}, value.IsData → value.Meets .plain
  | .number (.int _), h => Number.isSome_text_int h
  | .number (.real _), _ | .number (.bool _), _ | .number (.undefined _ _), _ => rfl
  | .text _, _ => trivial
  | .list _, h => Value.AllData.meets h

/-- Lists of data are plain. -/
theorem Value.AllData.meets : ∀ {values : List Value},
    Value.AllData values → Value.AllMeet .plain values
  | [], _ => trivial
  | _ :: _, h => ⟨Value.IsData.meets h.1, Value.AllData.meets h.2⟩

end

/-- Everything that the reader makes is plain. -/
lemma Criterion.spelled_plain : spelled.Implies plain where
  number := And.left
  name := id
  identity := False.elim
  scope := False.elim
  callable := id
  foreign := id

/-! ## The discipline -/

/-- Only what is plain occurs, and programs fail on their own. -/
def Machine.Discipline.plain (host : Host) : Machine.Discipline host where
  allows _ := .plain
  error := Error.OfProgram
  mono _ := ⟨id, id, id, id, id, id⟩
  scope_of_lt _ := trivial
  identity_any _ _ := trivial
  call _ hcallable _ := hcallable.elim
  error_of_program h := h
  error_illegible h := absurd (fun _ hn => hn) h
  error_foreign h := h.elim

/-- The errors that a program makes on its own are of five kinds. -/
lemma Error.OfProgram.kind {error : Error} (h : error.OfProgram) :
    error.kind ∈ [Kind.arity, .notCallable, .sort, .emptyList, .duplicate] := by
  cases error with
  | operandCount | parametersNotList | parameterNotName | bindingsNotList | malformedBinding
  | notList | firstOfEmpty | argumentCount | notCallable | duplicateName => simp [Error.kind]
  | _ => exact h.elim

/-- A run that ends does so with a plain value, or fails on its own. -/
lemma plain_of_interpret {context : Context} {fuel : Nat} {node : Node} {bindings : Bindings}
    {outcome : Outcome Value} (hnode : node.Meets .plain)
    (hbindings : ∀ pair ∈ bindings, pair.2.IsData)
    (h : interpret context fuel Store.empty bindings node = some outcome) :
    (∃ value, outcome.result = .ok value ∧ value.Meets .plain) ∨
      ∃ error, outcome.result = .error error ∧ error.OfProgram := by
  have hbindings : bindings.Meets .plain := fun pair hpair => (hbindings pair hpair).meets
  have hinitial : (Machine.Discipline.plain context.host).Keeps (Machine.initial bindings node) :=
    Machine.Discipline.keeps_initial hbindings hnode
  obtain ⟨steps, hrun⟩ := Machine.reaches_of_evaluate h
  have hfinal := hinitial.run hrun
  obtain ⟨result, store, events⟩ := outcome
  cases result with
  | ok value => exact .inl ⟨value, rfl, hfinal.focus⟩
  | error error => exact .inr ⟨error, rfl, hfinal.focus⟩

/-- A program that is read from a source and given plain data yields a value that has a text in both
styles, or fails in one of five ways. It neither evaluates what is no code nor binds what is no
name. -/
theorem interpret_of_data (context : Context) (fuel : Nat) (source : String) (node : Node)
    (bindings : Bindings) (outcome : Outcome Value) (hparse : parse source = .ok node)
    (hbindings : ∀ pair ∈ bindings, pair.2.IsData)
    (h : interpret context fuel Store.empty bindings node = some outcome) :
    (∃ value shown inspected, outcome.result = .ok value ∧
      value.display = some shown ∧ value.inspect = some inspected) ∨
    (∃ error, outcome.result = .error error ∧
      error.kind ∈ [Error.Kind.arity, .notCallable, .sort, .emptyList, .duplicate] ∧
      (∀ shown, error ≠ .notCode shown) ∧ ∀ shown, error ≠ .nameNotText shown) := by
  have hnode := (meets_spelled_of_parse hparse).mono Criterion.spelled_plain
  rcases plain_of_interpret hnode hbindings h with
    ⟨value, hvalue, hplain⟩ | ⟨error, herror, hprogram⟩
  · have hlegible : Criterion.plain.Legible := fun _ hn => hn
    obtain ⟨shown, hshown⟩ := Option.isSome_iff_exists.1 (hplain.isSome_render hlegible .surface)
    obtain ⟨inspected, hinspected⟩ :=
      Option.isSome_iff_exists.1 (hplain.isSome_render hlegible .structural)
    exact .inl ⟨value, shown, inspected, hvalue, hshown, hinspected⟩
  · refine .inr ⟨error, herror, hprogram.kind, ?_, ?_⟩
    · rintro shown rfl
      exact hprogram
    · rintro shown rfl
      exact hprogram

/-- The form `(first (eval (list 'rest x)))`. -/
def firstOfAssembled : Node :=
  .special .first [.special .eval [.special .list [.quote (.identifier "rest"), .identifier "x"]]]

/-- The code that the form assembles drops the only item of a list, which leaves nothing to take. -/
theorem interpret_firstOfAssembled :
    ∃ outcome, parse "(first (eval (list 'rest x)))" = .ok firstOfAssembled ∧
      interpret ⟨.capture, Stock.host⟩ 6 Store.empty [("x", .list [.text "a"])] firstOfAssembled =
        some outcome ∧
      ∃ error, outcome.result = .error error ∧
        error.kind ∈ [Error.Kind.arity, .notCallable, .sort, .emptyList, .duplicate] ∧
        (∀ shown, error ≠ .notCode shown) ∧ ∀ shown, error ≠ .nameNotText shown := by
  have hparse : parse "(first (eval (list 'rest x)))" = .ok firstOfAssembled := rfl
  have hbindings : ∀ pair ∈ [("x", Value.list [.text "a"])], pair.2.IsData := by
    intro pair hpair
    obtain rfl := List.mem_singleton.1 hpair
    exact ⟨trivial, trivial⟩
  obtain ⟨outcome, houtcome, hresult⟩ : ∃ outcome,
      interpret ⟨.capture, Stock.host⟩ 6 Store.empty [("x", .list [.text "a"])] firstOfAssembled =
        some outcome ∧ outcome.result = .error .firstOfEmpty := ⟨_, rfl, rfl⟩
  refine ⟨outcome, hparse, houtcome, ?_⟩
  rcases interpret_of_data _ _ _ _ _ _ hparse hbindings houtcome with
    ⟨value, shown, inspected, hvalue, -, -⟩ | herror
  · rw [hresult] at hvalue
    cases hvalue
  · exact herror

end Lisplet
