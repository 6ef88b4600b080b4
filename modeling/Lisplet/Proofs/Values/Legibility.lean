import Lisplet.Proofs.Reader.Literals
import Lisplet.Proofs.Semantics.Adequacy

/-!
# Values that have a text

The two styles of text differ in almost everything that they write, and they go over to each other
at different places: a closure shows its body in the surface style in both of them, and a value that
stands where code is expected is shown structurally in both of them. What they have in common is
which integers they come to write. These are collected here, without a style. A value has no text,
in either style, exactly if one of these integers has more than 4300 digits.

The frame that a closure was made in is not shown, so the integers that it binds do not matter.
-/

namespace Lisplet

/-! ## The integers that are written -/

/-- An integer that is too long to be written. -/
def IsOverlong (n : Int) : Prop :=
  4300 < (Nat.toDigits 10 n.natAbs).length

/-- The integer that the text of a number shows, if it is an integer. -/
def Number.integers : Number → List Int
  | .int n => [n]
  | .real _ | .bool _ | .undefined _ _ => []

mutual

/-- The integers that the text of a value shows, in order. -/
def Value.integers : Value → List Int
  | .number n => n.integers
  | .text _ | .empty | .absent | .nothing | .host _ => []
  | .list items => Value.integersOfAll items
  | .quoted node => node.integers
  | .closure _ _ body _ => body.integers

/-- The integers that the texts of values show, in order. -/
def Value.integersOfAll : List Value → List Int
  | [] => []
  | value :: rest => value.integers ++ Value.integersOfAll rest

/-- The integers that the text of a tree shows, in order. -/
def Node.integers : Node → List Int
  | .identifier _ | .string _ => []
  | .number n => n.integers
  | .form children => Node.integersOfAll children
  | .quote inner => inner.integers
  | .constant value | .foreign value => value.integers

/-- The integers that the texts of trees show, in order. -/
def Node.integersOfAll : List Node → List Int
  | [] => []
  | node :: rest => node.integers ++ Node.integersOfAll rest

end

/-! ## Texts that do not exist -/

/-- An integer has no text if and only if it has more than 4300 digits. -/
lemma Number.text_int_eq_none_iff (n : Int) : (Number.int n).text = none ↔ IsOverlong n := by
  rw [IsOverlong, ← not_le, length_toDigits_le_limit_iff, Number.text]
  exact ite_eq_right_iff.trans (by simp only [reduceCtorEq, imp_false])

/-- A number has no text if and only if it is an integer that is too long. -/
lemma Number.text_eq_none_iff (n : Number) : n.text = none ↔ ∃ m ∈ n.integers, IsOverlong m := by
  cases n with
  | int m =>
    rw [Number.text_int_eq_none_iff, Number.integers]
    simp only [List.mem_singleton, exists_eq_left]
  | real | bool | undefined => simp [Number.text, Number.integers]

/-- A row of texts is missing if one of them is. -/
private lemma bind_cons_eq_none_iff (first : Option String) (others : Option (List String)) :
    (do let text ← first; let texts ← others; return text :: texts) = none ↔
      first = none ∨ others = none := by
  cases first <;> cases others <;> simp

mutual

/-- A value has no text if and only if one of the integers to be written is too long, whatever the
style is. -/
theorem Value.render_eq_none_iff (style : Style) :
    ∀ value : Value, value.render style = none ↔ ∃ n ∈ value.integers, IsOverlong n
  | .number n => n.text_eq_none_iff
  | .text _ | .empty | .absent | .nothing | .host _ => by simp [Value.render, Value.integers]
  | .list items => by
    rw [Value.render, Value.integers, Option.map_eq_none_iff]
    exact Value.renderAll_eq_none_iff style items
  | .quoted node => by
    rw [Value.render, Value.integers, Option.map_eq_none_iff]
    exact Node.render_eq_none_iff style node
  | .closure _ _ body _ => by
    rw [Value.render, Value.integers, Option.map_eq_none_iff]
    exact Node.render_eq_none_iff .surface body

/-- One of the values has no text if and only if one of the integers to be written is too long. -/
theorem Value.renderAll_eq_none_iff (style : Style) : ∀ values : List Value,
    Value.renderAll style values = none ↔ ∃ n ∈ Value.integersOfAll values, IsOverlong n
  | [] => by simp [Value.renderAll, Value.integersOfAll]
  | value :: rest => by
    have hvalue := Value.render_eq_none_iff style value
    have hrest := Value.renderAll_eq_none_iff style rest
    rw [Value.renderAll, Value.integersOfAll, bind_cons_eq_none_iff, hvalue, hrest]
    simp only [List.mem_append, or_and_right, exists_or]

/-- A tree has no text if and only if one of the integers to be written is too long, whatever the
style is. -/
theorem Node.render_eq_none_iff (style : Style) :
    ∀ node : Node, node.render style = none ↔ ∃ n ∈ node.integers, IsOverlong n
  | .identifier _ | .string _ => by simp [Node.render, Node.integers]
  | .number n => by
    rw [Node.render, Node.integers, Option.map_eq_none_iff]
    exact n.text_eq_none_iff
  | .form children => by
    rw [Node.render, Node.integers, Option.map_eq_none_iff]
    exact Node.renderAll_eq_none_iff style children
  | .quote inner => by
    rw [Node.render, Node.integers, Option.map_eq_none_iff]
    exact Node.render_eq_none_iff style inner
  | .constant value => by
    rw [Node.render, Node.integers, Option.map_eq_none_iff]
    exact Value.render_eq_none_iff style value
  | .foreign value => Value.render_eq_none_iff .structural value

/-- One of the trees has no text if and only if one of the integers to be written is too long. -/
theorem Node.renderAll_eq_none_iff (style : Style) : ∀ nodes : List Node,
    Node.renderAll style nodes = none ↔ ∃ n ∈ Node.integersOfAll nodes, IsOverlong n
  | [] => by simp [Node.renderAll, Node.integersOfAll]
  | node :: rest => by
    have hnode := Node.render_eq_none_iff style node
    have hrest := Node.renderAll_eq_none_iff style rest
    rw [Node.renderAll, Node.integersOfAll, bind_cons_eq_none_iff, hnode, hrest]
    simp only [List.mem_append, or_and_right, exists_or]

end

/-! ## Where a text is wanted -/

/-- Printing a value fails for want of a text exactly if it has none. -/
lemma runs_print_constant_iff (context : Context) (fuel : Nat) (frame : FrameId) (store : Store)
    (value : Value) :
    (evaluate context (fuel + 2) (.special .print [.constant value]) frame).Runs store
      (.error .integerTooLong) [] store ↔ value.display = none := by
  have hvalue : (evaluate context (fuel + 1) (.constant value) frame).Runs store (.ok value) []
      store := Action.Runs.pure value store
  constructor
  · rintro ⟨events, hfails, -⟩
    by_contra hdisplay
    obtain ⟨text, htext⟩ := Option.ne_none_iff_exists'.1 hdisplay
    have hprints : (evaluate context (fuel + 2) (.special .print [.constant value]) frame).Runs
        store (.ok value) ([] ++ [text]) store := runs_special (runs_print hvalue htext)
    obtain ⟨events', hends, -⟩ := hprints
    cases hfails.symm.trans hends
  · intro hdisplay
    exact runs_special (runs_printTooLong hvalue hdisplay)

/-- Naming a value in an error fails for want of a text exactly if it has none. -/
lemma runs_foreign_iff (context : Context) (fuel : Nat) (frame : FrameId) (store : Store)
    (value : Value) :
    (evaluate context (fuel + 1) (.foreign value) frame).Runs store (.error .integerTooLong) []
      store ↔ value.inspect = none := by
  have hfails : (evaluate context (fuel + 1) (.foreign value) frame).Runs store
      (.error .integerTooLong) [] store ↔
        Error.naming value.inspect .notCode = .integerTooLong := by
    refine Action.runs_fail.trans ?_
    simp only [Except.error.injEq, and_true]
    exact eq_comm
  rw [hfails]
  cases value.inspect <;> simp [Error.naming]

/-- Both styles of text fail on the same values: those in which an integer of more than 4300 digits
is to be written. Where the text is wanted, by a print or in the wording of an error, that integer
is then reported, as a value that the host refuses. -/
theorem text_missing_iff_overlong (value : Value) :
    (value.display = none ↔ value.inspect = none) ∧
    (value.display = none ↔ ∃ n ∈ value.integers, IsOverlong n) ∧
    (value.inspect = none ↔ ∃ n ∈ value.integers, IsOverlong n) ∧
    (∀ (context : Context) (fuel : Nat) (frame : FrameId) (store : Store),
      ((evaluate context (fuel + 2) (.special .print [.constant value]) frame).Runs store
        (.error .integerTooLong) [] store ↔ ∃ n ∈ value.integers, IsOverlong n) ∧
      ((evaluate context (fuel + 1) (.foreign value) frame).Runs store
        (.error .integerTooLong) [] store ↔ ∃ n ∈ value.integers, IsOverlong n)) ∧
    Error.integerTooLong.kind = .hostValue := by
  have hdisplay : value.display = none ↔ ∃ n ∈ value.integers, IsOverlong n :=
    value.render_eq_none_iff .surface
  have hinspect : value.inspect = none ↔ ∃ n ∈ value.integers, IsOverlong n :=
    value.render_eq_none_iff .structural
  refine ⟨hdisplay.trans hinspect.symm, hdisplay, hinspect, ?_, rfl⟩
  intro context fuel frame store
  exact ⟨(runs_print_constant_iff context fuel frame store value).trans hdisplay,
    (runs_foreign_iff context fuel frame store value).trans hinspect⟩

end Lisplet
