import Lisplet.Primitive
import Mathlib.Data.List.Chain
import Mathlib.Tactic.Common

/-!
# Equality of values is an equivalence

Values are alike by rules: numbers of any two kinds if they have the same place on the line or are
one and the same, texts and names if they are the same, lists and code item by item, closures and
host procedures by identity. Every rule relates two values that are built in the same way, so the
laws of an equivalence go from rule to rule.

Equal values are those that are alike and definite, where a value is definite unless it is a double
that is no number. Only what a value is at its top counts here: a list that holds such a double is
definite, and is equal to itself.

The primitive for equality looks at neighbours only. By the laws above this is as good as looking at
all pairs, so the order of the arguments does not matter.
-/

namespace Lisplet

/-! ## Numbers -/

/-- A number that has a place on the line. -/
def Number.Definite (n : Number) : Prop :=
  n.extent ≠ .nowhere

/-- Places are the same if they are equal and are places at all. -/
lemma Real.Extent.same_iff {a b : Real.Extent} : a.same b = true ↔ a ≠ .nowhere ∧ a = b := by
  cases a <;> simp [Real.Extent.same]

/-- Numbers are equal if they have the same place on the line. -/
lemma Number.same_iff {a b : Number} : a.same b = true ↔ a.Definite ∧ a.extent = b.extent :=
  Real.Extent.same_iff

/-- Numbers are alike if they have the same place on the line or are one and the same. -/
lemma Number.alike_iff {a b : Number} :
    a.alike b = true ↔ (a.Definite ∧ a.extent = b.extent) ∨ a = b := by
  rw [Number.alike, Bool.or_eq_true, Number.same_iff, beq_iff_eq]

/-- Every number is like itself, also where it is not equal to itself. -/
lemma Number.alike_self (a : Number) : a.alike a = true :=
  Number.alike_iff.2 (.inr rfl)

/-- A number that is like one with a place on the line has a place too. -/
lemma Number.Definite.of_alike {a b : Number} (ha : a.Definite) (h : a.alike b = true) :
    b.Definite := by
  rcases Number.alike_iff.1 h with ⟨-, hextent⟩ | rfl
  · exact fun hnowhere => ha (hextent.trans hnowhere)
  · exact ha

/-- Numbers are alike in both directions. -/
lemma Number.alike_symm {a b : Number} (h : a.alike b = true) : b.alike a = true := by
  rcases Number.alike_iff.1 h with ⟨hdefinite, hextent⟩ | rfl
  · exact Number.alike_iff.2 (.inl ⟨hdefinite.of_alike h, hextent.symm⟩)
  · exact h

/-- What is like the second of two numbers that are alike is like the first. -/
lemma Number.alike_trans {a b c : Number} (h : a.alike b = true) (h' : b.alike c = true) :
    a.alike c = true := by
  rcases Number.alike_iff.1 h with ⟨hdefinite, hextent⟩ | rfl
  · rcases Number.alike_iff.1 h' with ⟨-, hextent'⟩ | rfl
    · exact Number.alike_iff.2 (.inl ⟨hdefinite, hextent.trans hextent'⟩)
    · exact h
  · exact h'

/-- Numbers are equal if they are alike and have a place on the line at all. -/
lemma Number.same_iff_alike {a b : Number} :
    a.same b = true ↔ a.Definite ∧ a.alike b = true := by
  rw [Number.same_iff, Number.alike_iff]
  constructor
  · rintro ⟨hdefinite, hextent⟩
    exact ⟨hdefinite, .inl ⟨hdefinite, hextent⟩⟩
  · rintro ⟨hdefinite, ⟨-, hextent⟩ | rfl⟩
    · exact ⟨hdefinite, hextent⟩
    · exact ⟨hdefinite, rfl⟩

/-! ## The rules -/

mutual

/-- Two values are alike. -/
inductive Value.Alike : Value → Value → Prop
  | number {a b : Number} : a.alike b = true → Value.Alike (.number a) (.number b)
  | text {s} : Value.Alike (.text s) (.text s)
  | list {as bs} : Value.AlikeAll as bs → Value.Alike (.list as) (.list bs)
  | empty : Value.Alike .empty .empty
  | absent : Value.Alike .absent .absent
  | nothing : Value.Alike .nothing .nothing
  | quoted {a b} : Node.Alike a b → Value.Alike (.quoted a) (.quoted b)
  | closure {i params params' body body' scope scope'} :
      Value.Alike (.closure i params body scope) (.closure i params' body' scope')
  | host {callable} : Value.Alike (.host callable) (.host callable)

/-- Two lists of values are alike item by item. -/
inductive Value.AlikeAll : List Value → List Value → Prop
  | nil : Value.AlikeAll [] []
  | cons {a b as bs} : Value.Alike a b → Value.AlikeAll as bs → Value.AlikeAll (a :: as) (b :: bs)

/-- Two trees are alike. -/
inductive Node.Alike : Node → Node → Prop
  | identifier {name} : Node.Alike (.identifier name) (.identifier name)
  | number {a b : Number} : a.alike b = true → Node.Alike (.number a) (.number b)
  | string {s} : Node.Alike (.string s) (.string s)
  | form {as bs} : Node.AlikeAll as bs → Node.Alike (.form as) (.form bs)
  | quote {a b} : Node.Alike a b → Node.Alike (.quote a) (.quote b)
  | constant {a b} : Value.Alike a b → Node.Alike (.constant a) (.constant b)
  | foreign {a b} : Value.Alike a b → Node.Alike (.foreign a) (.foreign b)

/-- Two rows of trees are alike one by one. -/
inductive Node.AlikeAll : List Node → List Node → Prop
  | nil : Node.AlikeAll [] []
  | cons {a b as bs} : Node.Alike a b → Node.AlikeAll as bs → Node.AlikeAll (a :: as) (b :: bs)

end

/-! ### What the rules say is computed -/

mutual

/-- Values that are alike by the rules are computed to be alike. -/
theorem Value.Alike.eq_true {a b : Value} : Value.Alike a b → a.alike b = true
  | .number h => by rwa [Value.alike]
  | .list h => by rw [Value.alike, h.eq_true]
  | .quoted h => by rw [Value.alike, h.eq_true]
  | .text | .empty | .absent | .nothing | .closure | .host => by simp [Value.alike]

/-- Lists that are alike by the rules are computed to be alike. -/
theorem Value.AlikeAll.eq_true {as bs : List Value} :
    Value.AlikeAll as bs → Value.alikeAll as bs = true
  | .nil => by rw [Value.alikeAll]
  | .cons h hrest => by rw [Value.alikeAll, h.eq_true, hrest.eq_true, Bool.and_self]

/-- Trees that are alike by the rules are computed to be alike. -/
theorem Node.Alike.eq_true {a b : Node} : Node.Alike a b → a.alike b = true
  | .number h => by rwa [Node.alike]
  | .form h => by rw [Node.alike, h.eq_true]
  | .quote h => by rw [Node.alike, h.eq_true]
  | .constant h => by rw [Node.alike, h.eq_true]
  | .foreign h => by rw [Node.alike, h.eq_true]
  | .identifier | .string => by simp [Node.alike]

/-- Rows of trees that are alike by the rules are computed to be alike. -/
theorem Node.AlikeAll.eq_true {as bs : List Node} : Node.AlikeAll as bs → Node.alikeAll as bs = true
  | .nil => by rw [Node.alikeAll]
  | .cons h hrest => by rw [Node.alikeAll, h.eq_true, hrest.eq_true, Bool.and_self]

end

/-! ### What is computed follows the rules

This is the only place where values that are built in different ways are compared. -/

mutual

/-- Values that are computed to be alike are alike by the rules. -/
theorem Value.Alike.of_eq_true : ∀ {a b : Value}, a.alike b = true → Value.Alike a b
  | .number a, b, h => by
    cases b with
    | number b => exact .number (by rwa [Value.alike] at h)
    | _ => simp only [Value.alike, Bool.false_eq_true] at h
  | .text s, b, h => by
    cases b with
    | text t =>
      obtain rfl : s = t := by simpa [Value.alike] using h
      exact .text
    | _ => simp only [Value.alike, Bool.false_eq_true] at h
  | .list as, b, h => by
    cases b with
    | list bs => exact .list (Value.AlikeAll.of_eq_true (by rwa [Value.alike] at h))
    | _ => simp only [Value.alike, Bool.false_eq_true] at h
  | .empty, b, h => by
    cases b with
    | empty => exact .empty
    | _ => simp only [Value.alike, Bool.false_eq_true] at h
  | .absent, b, h => by
    cases b with
    | absent => exact .absent
    | _ => simp only [Value.alike, Bool.false_eq_true] at h
  | .nothing, b, h => by
    cases b with
    | nothing => exact .nothing
    | _ => simp only [Value.alike, Bool.false_eq_true] at h
  | .quoted a, b, h => by
    cases b with
    | quoted b => exact .quoted (Node.Alike.of_eq_true (by rwa [Value.alike] at h))
    | _ => simp only [Value.alike, Bool.false_eq_true] at h
  | .closure i _ _ _, b, h => by
    cases b with
    | closure j _ _ _ =>
      obtain rfl : i = j := by simpa [Value.alike] using h
      exact .closure
    | _ => simp only [Value.alike, Bool.false_eq_true] at h
  | .host callable, b, h => by
    cases b with
    | host other =>
      obtain rfl : callable = other := by simpa [Value.alike] using h
      exact .host
    | _ => simp only [Value.alike, Bool.false_eq_true] at h

/-- Lists that are computed to be alike are alike by the rules. -/
theorem Value.AlikeAll.of_eq_true :
    ∀ {as bs : List Value}, Value.alikeAll as bs = true → Value.AlikeAll as bs
  | [], [], _ => .nil
  | [], _ :: _, h | _ :: _, [], h => by simp [Value.alikeAll] at h
  | a :: as, b :: bs, h => by
    rw [Value.alikeAll, Bool.and_eq_true] at h
    exact .cons (Value.Alike.of_eq_true h.1) (Value.AlikeAll.of_eq_true h.2)

/-- Trees that are computed to be alike are alike by the rules. -/
theorem Node.Alike.of_eq_true : ∀ {a b : Node}, a.alike b = true → Node.Alike a b
  | .identifier name, b, h => by
    cases b with
    | identifier other =>
      obtain rfl : name = other := by simpa [Node.alike] using h
      exact .identifier
    | _ => simp only [Node.alike, Bool.false_eq_true] at h
  | .number a, b, h => by
    cases b with
    | number b => exact .number (by rwa [Node.alike] at h)
    | _ => simp only [Node.alike, Bool.false_eq_true] at h
  | .string s, b, h => by
    cases b with
    | string t =>
      obtain rfl : s = t := by simpa [Node.alike] using h
      exact .string
    | _ => simp only [Node.alike, Bool.false_eq_true] at h
  | .form as, b, h => by
    cases b with
    | form bs => exact .form (Node.AlikeAll.of_eq_true (by rwa [Node.alike] at h))
    | _ => simp only [Node.alike, Bool.false_eq_true] at h
  | .quote a, b, h => by
    cases b with
    | quote b => exact .quote (Node.Alike.of_eq_true (by rwa [Node.alike] at h))
    | _ => simp only [Node.alike, Bool.false_eq_true] at h
  | .constant a, b, h => by
    cases b with
    | constant b => exact .constant (Value.Alike.of_eq_true (by rwa [Node.alike] at h))
    | _ => simp only [Node.alike, Bool.false_eq_true] at h
  | .foreign a, b, h => by
    cases b with
    | foreign b => exact .foreign (Value.Alike.of_eq_true (by rwa [Node.alike] at h))
    | _ => simp only [Node.alike, Bool.false_eq_true] at h

/-- Rows of trees that are computed to be alike are alike by the rules. -/
theorem Node.AlikeAll.of_eq_true :
    ∀ {as bs : List Node}, Node.alikeAll as bs = true → Node.AlikeAll as bs
  | [], [], _ => .nil
  | [], _ :: _, h | _ :: _, [], h => by simp [Node.alikeAll] at h
  | a :: as, b :: bs, h => by
    rw [Node.alikeAll, Bool.and_eq_true] at h
    exact .cons (Node.Alike.of_eq_true h.1) (Node.AlikeAll.of_eq_true h.2)

end

/-- The rules say which values are computed to be alike. -/
lemma Value.alike_iff {a b : Value} : a.alike b = true ↔ Value.Alike a b :=
  ⟨Value.Alike.of_eq_true, Value.Alike.eq_true⟩

/-! ## Symmetry and transitivity -/

mutual

/-- Values are alike in both directions. -/
theorem Value.Alike.symm {a b : Value} : Value.Alike a b → Value.Alike b a
  | .number h => .number (Number.alike_symm h)
  | .list h => .list h.symm
  | .quoted h => .quoted h.symm
  | .text => .text
  | .empty => .empty
  | .absent => .absent
  | .nothing => .nothing
  | .closure => .closure
  | .host => .host

/-- Lists are alike in both directions. -/
theorem Value.AlikeAll.symm {as bs : List Value} : Value.AlikeAll as bs → Value.AlikeAll bs as
  | .nil => .nil
  | .cons h hrest => .cons h.symm hrest.symm

/-- Trees are alike in both directions. -/
theorem Node.Alike.symm {a b : Node} : Node.Alike a b → Node.Alike b a
  | .identifier => .identifier
  | .number h => .number (Number.alike_symm h)
  | .string => .string
  | .form h => .form h.symm
  | .quote h => .quote h.symm
  | .constant h => .constant h.symm
  | .foreign h => .foreign h.symm

/-- Rows of trees are alike in both directions. -/
theorem Node.AlikeAll.symm {as bs : List Node} : Node.AlikeAll as bs → Node.AlikeAll bs as
  | .nil => .nil
  | .cons h hrest => .cons h.symm hrest.symm

end

mutual

/-- What is like the second of two values that are alike is like the first. -/
theorem Value.Alike.trans {a b c : Value} : Value.Alike a b → Value.Alike b c → Value.Alike a c
  | .number h, .number h' => .number (Number.alike_trans h h')
  | .list h, .list h' => .list (h.trans h')
  | .quoted h, .quoted h' => .quoted (h.trans h')
  | .text, .text => .text
  | .empty, .empty => .empty
  | .absent, .absent => .absent
  | .nothing, .nothing => .nothing
  | .closure, .closure => .closure
  | .host, .host => .host

/-- What is like the second of two lists that are alike is like the first. -/
theorem Value.AlikeAll.trans {as bs cs : List Value} :
    Value.AlikeAll as bs → Value.AlikeAll bs cs → Value.AlikeAll as cs
  | .nil, .nil => .nil
  | .cons h hrest, .cons h' hrest' => .cons (h.trans h') (hrest.trans hrest')

/-- What is like the second of two trees that are alike is like the first. -/
theorem Node.Alike.trans {a b c : Node} : Node.Alike a b → Node.Alike b c → Node.Alike a c
  | .identifier, .identifier => .identifier
  | .number h, .number h' => .number (Number.alike_trans h h')
  | .string, .string => .string
  | .form h, .form h' => .form (h.trans h')
  | .quote h, .quote h' => .quote (h.trans h')
  | .constant h, .constant h' => .constant (h.trans h')
  | .foreign h, .foreign h' => .foreign (h.trans h')

/-- What is like the second of two rows that are alike is like the first. -/
theorem Node.AlikeAll.trans {as bs cs : List Node} :
    Node.AlikeAll as bs → Node.AlikeAll bs cs → Node.AlikeAll as cs
  | .nil, .nil => .nil
  | .cons h hrest, .cons h' hrest' => .cons (h.trans h') (hrest.trans hrest')

end

/-! ## Reflexivity -/

mutual

/-- Every value is like itself. -/
theorem Value.Alike.refl : ∀ value : Value, Value.Alike value value
  | .number n => .number (Number.alike_self n)
  | .list items => .list (Value.AlikeAll.refl items)
  | .quoted node => .quoted (Node.Alike.refl node)
  | .text _ => .text
  | .empty => .empty
  | .absent => .absent
  | .nothing => .nothing
  | .closure _ _ _ _ => .closure
  | .host _ => .host

/-- Every list of values is like itself. -/
theorem Value.AlikeAll.refl : ∀ values : List Value, Value.AlikeAll values values
  | [] => .nil
  | value :: rest => .cons (Value.Alike.refl value) (Value.AlikeAll.refl rest)

/-- Every tree is like itself. -/
theorem Node.Alike.refl : ∀ node : Node, Node.Alike node node
  | .identifier _ => .identifier
  | .number n => .number (Number.alike_self n)
  | .string _ => .string
  | .form children => .form (Node.AlikeAll.refl children)
  | .quote inner => .quote (Node.Alike.refl inner)
  | .constant value => .constant (Value.Alike.refl value)
  | .foreign value => .foreign (Value.Alike.refl value)

/-- Every row of trees is like itself. -/
theorem Node.AlikeAll.refl : ∀ nodes : List Node, Node.AlikeAll nodes nodes
  | [] => .nil
  | node :: rest => .cons (Node.Alike.refl node) (Node.AlikeAll.refl rest)

end

/-! ## Equality -/

namespace Value

/-- A value that is not a double that is no number. -/
def Definite : Value → Prop
  | .number n => n.Definite
  | _ => True

/-- What is like a definite value is definite. -/
theorem Alike.definite {a b : Value} : Value.Alike a b → a.Definite → b.Definite
  | .number h, ha => Number.Definite.of_alike ha h
  | .text, _ | .list _, _ | .empty, _ | .absent, _ | .nothing, _ | .quoted _, _ | .closure, _
  | .host, _ => trivial

/-- Values are equal if they are alike and definite. -/
lemma same_iff {a b : Value} : a.same b = true ↔ a.Definite ∧ Value.Alike a b := by
  cases a with
  | number m =>
    cases b with
    | number n =>
      rw [Value.same, Number.same_iff_alike, ← alike_iff, Value.alike]
      rfl
    | _ => simp [Value.same, ← alike_iff, Value.alike]
  | _ => exact ⟨fun h => ⟨trivial, .of_eq_true h⟩, fun h => h.2.eq_true⟩

/-- A value is equal to itself exactly if it is definite. -/
lemma same_self_iff {a : Value} : a.same a = true ↔ a.Definite := by
  rw [same_iff]
  exact and_iff_left (Alike.refl a)

/-- Values are equal in both directions. -/
lemma same_symm {a b : Value} (h : a.same b = true) : b.same a = true := by
  obtain ⟨hdefinite, halike⟩ := same_iff.1 h
  exact same_iff.2 ⟨halike.definite hdefinite, halike.symm⟩

/-- What is equal to the second of two equal values is equal to the first. -/
lemma same_trans {a b c : Value} (h : a.same b = true) (h' : b.same c = true) :
    a.same c = true := by
  obtain ⟨hdefinite, halike⟩ := same_iff.1 h
  obtain ⟨-, halike'⟩ := same_iff.1 h'
  exact same_iff.2 ⟨hdefinite, halike.trans halike'⟩

end Value

/-! ## Chained equality -/

namespace Primitive

/-- Relating all neighbours makes the list a chain. -/
lemma neighbours_eq_true_iff {α : Type} {related : α → α → Bool} {items : List α} :
    neighbours related items = true ↔ items.IsChain fun a b => related a b = true := by
  induction items with
  | nil => simp [neighbours]
  | cons a rest ih =>
    cases rest with
    | nil => simp [neighbours]
    | cons b rest => rw [neighbours, Bool.and_eq_true, ih, List.isChain_cons_cons]

instance : Trans (fun a b : Value => a.same b = true) (fun a b : Value => a.same b = true)
    (fun a b : Value => a.same b = true) := ⟨Value.same_trans⟩

/-- Neighbours among at least two values are equal only if all of the values are equal. -/
lemma neighbours_same_iff {arguments : List Value} (h : 2 ≤ arguments.length) :
    neighbours Value.same arguments = true ↔
      ∀ a ∈ arguments, ∀ b ∈ arguments, a.same b = true := by
  rw [neighbours_eq_true_iff, List.isChain_iff_pairwise]
  constructor
  · intro hpairs
    match arguments, h with
    | first :: second :: rest, _ =>
      obtain ⟨hothers, -⟩ := List.pairwise_cons.1 hpairs
      -- the first value is equal to the second one, and by way of that one to itself
      have hsecond : first.same second = true := hothers second List.mem_cons_self
      have hfirst : ∀ a ∈ first :: second :: rest, first.same a = true :=
        List.forall_mem_cons.2 ⟨Value.same_trans hsecond (Value.same_symm hsecond), hothers⟩
      intro a ha b hb
      exact Value.same_trans (Value.same_symm (hfirst a ha)) (hfirst b hb)
  · intro hall
    exact List.pairwise_of_forall_mem_list hall

/-- What a comparison answers to at least two arguments. -/
lemma compare_of_two_le {α : Type} (primitive : Primitive) (related : α → α → Bool)
    {arguments : List α} (h : 2 ≤ arguments.length) :
    compare primitive related arguments =
      .ok (.int (if neighbours related arguments then 1 else 0)) := by
  have hcount : ¬ arguments.length < 2 := by omega
  simp only [compare, hcount, ↓reduceIte]

/-- What the primitive for equality answers to at least two arguments. -/
lemma run_equals_of_two_le {arguments : List Value} (h : 2 ≤ arguments.length) :
    equals.run arguments = .ok (.int (if neighbours Value.same arguments then 1 else 0)) :=
  compare_of_two_le equals Value.same h

end Primitive

/-- Equality is reflexive but for doubles that are no numbers, symmetric, and transitive. So the
primitive for equality, which compares neighbours, answers one to at least two arguments exactly if
every two of them are equal, and zero otherwise, and their order does not matter. -/
theorem equals_compares_all_arguments :
    (∀ a : Value, a.same a = true ↔ a.Definite) ∧
    (∀ a b : Value, a.same b = true → b.same a = true) ∧
    (∀ a b c : Value, a.same b = true → b.same c = true → a.same c = true) ∧
    ∀ arguments : List Value, 2 ≤ arguments.length →
      (Primitive.equals.run arguments = .ok (.int 1) ↔
        ∀ a ∈ arguments, ∀ b ∈ arguments, a.same b = true) ∧
      (Primitive.equals.run arguments = .ok (.int 0) ↔
        ¬ ∀ a ∈ arguments, ∀ b ∈ arguments, a.same b = true) ∧
      ∀ permuted : List Value, permuted.Perm arguments →
        Primitive.equals.run permuted = Primitive.equals.run arguments := by
  refine ⟨fun a => Value.same_self_iff, fun a b => Value.same_symm,
    fun a b c => Value.same_trans, ?_⟩
  intro arguments hcount
  have hiff := Primitive.neighbours_same_iff hcount
  refine ⟨?_, ?_, ?_⟩
  · rw [Primitive.run_equals_of_two_le hcount, ← hiff]
    cases Primitive.neighbours Value.same arguments <;> simp [Value.int]
  · rw [Primitive.run_equals_of_two_le hcount, ← hiff]
    cases Primitive.neighbours Value.same arguments <;> simp [Value.int]
  · intro permuted hperm
    have hcount' : 2 ≤ permuted.length := by rw [hperm.length_eq]; exact hcount
    have hall : Primitive.neighbours Value.same permuted =
        Primitive.neighbours Value.same arguments := by
      rw [Bool.eq_iff_iff, Primitive.neighbours_same_iff hcount', hiff]
      simp only [hperm.mem_iff]
    rw [Primitive.run_equals_of_two_le hcount', Primitive.run_equals_of_two_le hcount, hall]

/-- A list that holds a number, once by itself and once in assembled code. -/
def heldTwice (n : Number) : Value :=
  .list [.number n, .quoted (.form [.identifier "x", .constant (.number n)])]

/-- One is equal to itself as an integer, a double and a truth value, inside lists and code, also
where it is not compared with its neighbour. A double that is no number is equal to itself inside
lists and code only. -/
theorem heldTwice_all_equal :
    (heldTwice (.real 1.0)).Definite ∧
    (heldTwice (.real 1.0)).same (heldTwice (.real 1.0)) = true ∧
    Primitive.equals.run [heldTwice (.int 1), heldTwice (.real 1.0), heldTwice (.bool true)] =
      .ok (.int 1) ∧
    (heldTwice (.bool true)).same (heldTwice (.int 1)) = true ∧
    Primitive.equals.run [heldTwice (.real 1.0), heldTwice (.bool true), heldTwice (.int 1)] =
      .ok (.int 1) ∧
    (heldTwice (.undefined none 0)).same (heldTwice (.undefined none 0)) = true ∧
    ¬ (Value.number (.undefined none 0)).same (.number (.undefined none 0)) = true := by
  obtain ⟨hself, -, -, hequals⟩ := equals_compares_all_arguments
  have hneighbours : Primitive.neighbours Value.same
      [heldTwice (.int 1), heldTwice (.real 1.0), heldTwice (.bool true)] = true := by
    decide +kernel
  have hrun : Primitive.equals.run
      [heldTwice (.int 1), heldTwice (.real 1.0), heldTwice (.bool true)] = .ok (.int 1) := by
    rw [Primitive.run_equals_of_two_le (by decide), hneighbours]
    rfl
  obtain ⟨hone, -, hpermuted⟩ := hequals
    [heldTwice (.int 1), heldTwice (.real 1.0), heldTwice (.bool true)] (by decide)
  have hrotated : ([heldTwice (.real 1.0), heldTwice (.bool true)] ++ [heldTwice (.int 1)]).Perm
      ([heldTwice (.int 1)] ++ [heldTwice (.real 1.0), heldTwice (.bool true)]) :=
    List.perm_append_comm
  have hdefinite : ∀ n, (heldTwice n).Definite := fun _ => trivial
  have hundefined : ¬ (Value.number (.undefined none 0)).Definite := fun h => h rfl
  exact ⟨hdefinite _, (hself _).2 (hdefinite _), hrun, hone.1 hrun _ (by simp) _ (by simp),
    (hpermuted _ hrotated).trans hrun, (hself _).2 (hdefinite _),
    fun h => hundefined ((hself _).1 h)⟩

end Lisplet
