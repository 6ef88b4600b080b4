import Lisplet.Proofs.Values.Sameness
import Mathlib.Algebra.BigOperators.Group.List.Basic
import Mathlib.Algebra.Ring.Int.Defs

/-!
# Arithmetic on integers, and the check before it

All primitives but equality go over their arguments once before they do anything else, and stop at
the leftmost one that is no number. What they do afterwards is done with numbers, and fails only if
there are too few of them or they cannot be combined. So an argument of a wrong sort is reported
however many arguments there are, and whatever arithmetic would have made of the others.

On integers the primitives add, subtract and multiply from left to right and compare neighbours.
Nothing is rounded, so the laws of the integers hold for the primitives: sums and products depend
neither on the order nor on the grouping of their arguments, subtracting a sum is subtracting its
terms in turn, and neighbours in ascending order are enough for the whole row to ascend.
-/

namespace Lisplet

/-! ## The check of the arguments -/

/-- Whether arithmetic can take a value: a number, but not a truth value. -/
def Value.isOperand : Value → Bool
  | .number (.bool _) => false
  | .number _ => true
  | _ => false

namespace Primitive

/-- The leftmost argument that arithmetic cannot take. -/
def misfit? (arguments : List Value) : Option Value :=
  arguments.find? fun argument => !argument.isOperand

/-- A first argument that is a number contributes one. -/
lemma numbers_cons_of_isOperand (primitive : Primitive) {argument : Value}
    (h : argument.isOperand = true) (rest : List Value) :
    ∃ n, primitive.numbers (argument :: rest) = (primitive.numbers rest).map (n :: ·) := by
  match argument, h with
  | .number (.int n), _ => exact ⟨.int n, rfl⟩
  | .number (.real x), _ => exact ⟨.real x, rfl⟩
  | .number (.undefined _ _), _ => exact ⟨.real Real.nan, rfl⟩

/-- A first argument that is no number is named in an error. -/
lemma numbers_cons_of_not_isOperand (primitive : Primitive) {argument : Value}
    (h : argument.isOperand = false) (rest : List Value) :
    primitive.numbers (argument :: rest) =
      .error (Error.naming argument.inspect (.notNumber primitive)) := by
  cases argument with
  | number n =>
    cases n with
    | bool b => rfl
    | _ => cases h
  | _ => rfl

/-- Either all arguments are numbers, or the leftmost one that is none is named in an error. -/
lemma numbers_cases (primitive : Primitive) (arguments : List Value) :
    (misfit? arguments = none ∧ ∃ operands, primitive.numbers arguments = .ok operands) ∨
      ∃ misfit, misfit? arguments = some misfit ∧ primitive.numbers arguments =
        .error (Error.naming misfit.inspect (.notNumber primitive)) := by
  induction arguments with
  | nil => exact .inl ⟨rfl, [], rfl⟩
  | cons argument rest ih =>
    cases hoperand : argument.isOperand with
    | true =>
      obtain ⟨n, hnumbers⟩ := numbers_cons_of_isOperand primitive hoperand rest
      have hmisfit : misfit? (argument :: rest) = misfit? rest := by simp [misfit?, hoperand]
      rw [hnumbers, hmisfit]
      rcases ih with ⟨hnone, operands, hoperands⟩ | ⟨misfit, hsome, hfails⟩
      · exact .inl ⟨hnone, n :: operands, by rw [hoperands]; rfl⟩
      · exact .inr ⟨misfit, hsome, by rw [hfails]; rfl⟩
    | false =>
      have hmisfit : misfit? (argument :: rest) = some argument := by simp [misfit?, hoperand]
      exact .inr ⟨argument, hmisfit, numbers_cons_of_not_isOperand primitive hoperand rest⟩

end Primitive

/-! ## Failures after the check -/

/-- The errors that numbers can cause: there are too few of them, or they cannot be combined. -/
def Error.OfNumbers : Error → Prop
  | .tooFewArguments _ | .arithmetic _ => True
  | _ => False

/-- Errors that numbers cause are not errors of sort. -/
lemma Error.OfNumbers.kind_ne_sort {error : Error} (h : error.OfNumbers) : error.kind ≠ .sort := by
  cases error with
  | tooFewArguments primitive => exact nofun
  | arithmetic fault => cases fault <;> exact nofun
  | _ => exact h.elim

/-- A result that is an error only if numbers can cause it. -/
def FailsByNumbers {α : Type} : Except Error α → Prop
  | .ok _ => True
  | .error error => error.OfNumbers

/-- A sequence fails by numbers only if its parts do. -/
lemma FailsByNumbers.bind {α β : Type} {result : Except Error α} {next : α → Except Error β}
    (h : FailsByNumbers result) (hnext : ∀ value, FailsByNumbers (next value)) :
    FailsByNumbers (result >>= next) := by
  cases result with
  | ok value => exact hnext value
  | error error => exact h

namespace Primitive

/-- Combining numbers in turn fails by numbers only. -/
lemma failsByNumbers_fold (combine : Number → Number → Except Number.Fault Number) (start : Number)
    (operands : List Number) : FailsByNumbers (fold combine start operands) := by
  induction operands generalizing start with
  | nil => trivial
  | cons n rest ih =>
    rw [fold]
    cases combine start n with
    | ok next => exact ih next
    | error fault => trivial

/-- Differences fail by numbers only. -/
lemma failsByNumbers_difference (operands : List Number) :
    FailsByNumbers (difference operands) := by
  match operands with
  | [] | [_] => trivial
  | n :: m :: rest =>
    exact (failsByNumbers_fold _ _ (m :: rest)).bind fun total => failsByNumbers_fold _ n [total]

/-- Quotients fail by numbers only. -/
lemma failsByNumbers_quotient (operands : List Number) : FailsByNumbers (quotient operands) := by
  match operands with
  | [] | [_] => trivial
  | n :: m :: rest => exact failsByNumbers_fold _ n (m :: rest)

/-- Comparisons fail by numbers only. -/
lemma failsByNumbers_compare {α : Type} (primitive : Primitive) (related : α → α → Bool)
    (operands : List α) : FailsByNumbers (compare primitive related operands) := by
  unfold compare
  split <;> trivial

/-- All primitives but equality check their arguments first, and go on with numbers. -/
lemma exists_run_eq_bind {primitive : Primitive} (h : primitive ≠ equals) :
    ∃ compute : List Number → Except Error Value,
      (∀ arguments, primitive.run arguments = primitive.numbers arguments >>= compute) ∧
        ∀ operands, FailsByNumbers (compute operands) := by
  have hnumber : ∀ n : Number, FailsByNumbers (pure (Value.number n)) := fun _ => trivial
  cases primitive with
  | add => exact ⟨_, fun _ => rfl, fun found => (failsByNumbers_fold _ _ found).bind hnumber⟩
  | sub => exact ⟨_, fun _ => rfl, fun found => (failsByNumbers_difference found).bind hnumber⟩
  | mul => exact ⟨_, fun _ => rfl, fun found => (failsByNumbers_fold _ _ found).bind hnumber⟩
  | div => exact ⟨_, fun _ => rfl, fun found => (failsByNumbers_quotient found).bind hnumber⟩
  | less => exact ⟨_, fun _ => rfl, failsByNumbers_compare less _⟩
  | greater => exact ⟨_, fun _ => rfl, failsByNumbers_compare greater _⟩
  | equals => exact (h rfl).elim

/-- An error that numbers cannot cause is the one that names the leftmost misfit. -/
lemma run_eq_error_iff {primitive : Primitive} (h : primitive ≠ equals) (arguments : List Value)
    {error : Error} (herror : ¬ error.OfNumbers) :
    primitive.run arguments = .error error ↔ ∃ misfit, misfit? arguments = some misfit ∧
      Error.naming misfit.inspect (.notNumber primitive) = error := by
  obtain ⟨compute, hrun, hcompute⟩ := exists_run_eq_bind h
  rw [hrun]
  rcases numbers_cases primitive arguments with ⟨hnone, operands, hnumbers⟩ |
    ⟨misfit, hsome, hnumbers⟩
  -- Without a misfit there are numbers only, and these cause other errors.
  · have hfails : ∀ failure, compute operands = .error failure → failure.OfNumbers := by
      intro failure hfailure
      simpa only [hfailure, FailsByNumbers] using hcompute operands
    rw [hnumbers, hnone]
    exact ⟨fun hfailure => (herror (hfails error hfailure)).elim, nofun⟩
  · rw [hnumbers, hsome]
    simp [bind, Except.bind]

/-- A misfit that has a text is reported by its text. -/
lemma run_eq_notNumber_iff {primitive : Primitive} (h : primitive ≠ equals)
    (arguments : List Value) (shown : String) :
    primitive.run arguments = .error (.notNumber primitive shown) ↔
      ∃ misfit, misfit? arguments = some misfit ∧ misfit.inspect = some shown := by
  have hnaming : ∀ text : Option String,
      Error.naming text (.notNumber primitive) = .notNumber primitive shown ↔
        text = some shown := by
    intro text
    cases text <;> simp [Error.naming]
  have hmisfit : ¬ (Error.notNumber primitive shown).OfNumbers := id
  rw [run_eq_error_iff h arguments hmisfit]
  simp only [hnaming]

/-- A misfit that has no text is reported for want of one. -/
lemma run_eq_integerTooLong_iff {primitive : Primitive} (h : primitive ≠ equals)
    (arguments : List Value) :
    primitive.run arguments = .error .integerTooLong ↔
      ∃ misfit, misfit? arguments = some misfit ∧ misfit.inspect = none := by
  have hnaming : ∀ text : Option String,
      Error.naming text (.notNumber primitive) = .integerTooLong ↔ text = none := by
    intro text
    cases text <;> simp [Error.naming]
  have hmisfit : ¬ Error.integerTooLong.OfNumbers := id
  rw [run_eq_error_iff h arguments hmisfit]
  simp only [hnaming]

/-- Nothing but a misfit that has a text is of a wrong sort. -/
lemma exists_run_eq_sort_iff {primitive : Primitive} (h : primitive ≠ equals)
    (arguments : List Value) :
    (∃ error, primitive.run arguments = .error error ∧ error.kind = .sort) ↔
      ∃ misfit, misfit? arguments = some misfit ∧ misfit.inspect ≠ none := by
  constructor
  · rintro ⟨error, hrun, hkind⟩
    have hmisfit : ¬ error.OfNumbers := fun hnumbers => hnumbers.kind_ne_sort hkind
    obtain ⟨misfit, hsome, rfl⟩ := (run_eq_error_iff h arguments hmisfit).1 hrun
    refine ⟨misfit, hsome, fun hnone => ?_⟩
    rw [hnone] at hkind
    cases hkind
  · rintro ⟨misfit, hsome, htext⟩
    obtain ⟨shown, hshown⟩ := Option.ne_none_iff_exists'.1 htext
    exact ⟨_, (run_eq_notNumber_iff h arguments shown).2 ⟨misfit, hsome, hshown⟩, rfl⟩

/-! ## Integers -/

/-- Integers pass the check. -/
lemma numbers_int (primitive : Primitive) (ns : List Int) :
    primitive.numbers (ns.map Value.int) = .ok (ns.map Number.int) := by
  induction ns with
  | nil => rfl
  | cons n rest ih =>
    rw [List.map_cons, Value.int, numbers, ih]
    rfl

/-- An operation that is exact on integers is exact on rows of them. -/
lemma fold_int {combine : Number → Number → Except Number.Fault Number} {exact : Int → Int → Int}
    (h : ∀ m n, combine (.int m) (.int n) = .ok (.int (exact m n))) (start : Int) (ns : List Int) :
    fold combine (.int start) (ns.map Number.int) = .ok (.int (ns.foldl exact start)) := by
  induction ns generalizing start with
  | nil => rfl
  | cons n rest ih =>
    rw [List.map_cons, fold, h]
    exact ih (exact start n)

/-- Sums of integers are exact. -/
lemma sum_int (ns : List Int) : sum (ns.map Number.int) = .ok (.int ns.sum) := by
  rw [List.sum_eq_foldl]
  exact fold_int (fun _ _ => rfl) 0 ns

/-- Products of integers are exact. -/
lemma product_int (ns : List Int) : product (ns.map Number.int) = .ok (.int ns.prod) := by
  rw [List.prod_eq_foldl]
  exact fold_int (fun _ _ => rfl) 1 ns

/-- Subtracting integers in turn is subtracting their sum. -/
lemma foldl_sub_eq (first : Int) (ns : List Int) : ns.foldl (· - ·) first = first - ns.sum := by
  induction ns generalizing first with
  | nil => simp
  | cons n rest ih =>
    rw [List.foldl_cons, ih, List.sum_cons]
    omega

/-- Differences of integers are taken in turn, without rounding. -/
lemma difference_int (first : Int) {ns : List Int} (h : ns ≠ []) :
    difference ((first :: ns).map Number.int) = .ok (.int (ns.foldl (· - ·) first)) := by
  obtain ⟨n, rest, rfl⟩ := List.exists_cons_of_ne_nil h
  -- The sum of all that is subtracted comes first, and is then subtracted at once.
  have htotal : sum (.int n :: rest.map Number.int) = .ok (.int (n :: rest).sum) :=
    sum_int (n :: rest)
  have hlast : fold Number.sub (.int first) [.int (n :: rest).sum] =
      .ok (.int (first - (n :: rest).sum)) := fold_int (fun _ _ => rfl) first [(n :: rest).sum]
  rw [List.map_cons, List.map_cons, difference, htotal, foldl_sub_eq]
  · exact hlast
  · exact nofun

/-- Integers pass the check, so that arguments that are integers yield what the numbers yield. -/
lemma numbers_bind_int (primitive : Primitive) {compute : List Number → Except Error Number}
    {ns : List Int} {n : Int} (h : compute (ns.map Number.int) = .ok (.int n)) :
    (primitive.numbers (ns.map Value.int) >>= fun operands =>
      compute operands >>= fun result => pure (Value.number result)) = .ok (.int n) := by
  rw [numbers_int]
  change (compute (ns.map Number.int) >>= fun result => pure (Value.number result)) = _
  rw [h]
  rfl

/-- The primitive for sums adds integers exactly. -/
lemma run_add_int (ns : List Int) : add.run (ns.map Value.int) = .ok (.int ns.sum) :=
  numbers_bind_int add (sum_int ns)

/-- The primitive for products multiplies integers exactly. -/
lemma run_mul_int (ns : List Int) : mul.run (ns.map Value.int) = .ok (.int ns.prod) :=
  numbers_bind_int mul (product_int ns)

/-- The primitive for differences subtracts integers in turn. -/
lemma run_sub_int (first : Int) {ns : List Int} (h : ns ≠ []) :
    sub.run ((first :: ns).map Value.int) = .ok (.int (ns.foldl (· - ·) first)) :=
  numbers_bind_int sub (difference_int first h)

/-- Integers can be put into two groups if the exact totals of rows can. -/
lemma run_append_int {primitive : Primitive} {total : List Int → Int}
    (hrun : ∀ ns, primitive.run (ns.map Value.int) = .ok (.int (total ns)))
    (htotal : ∀ ms ns, total (ms ++ ns) = total [total ms, total ns]) (ms ns : List Int) :
    ∃ first second, primitive.run (ms.map Value.int) = .ok first ∧
      primitive.run (ns.map Value.int) = .ok second ∧
      primitive.run (ms.map Value.int ++ ns.map Value.int) = primitive.run [first, second] := by
  have hpair : primitive.run [Value.int (total ms), Value.int (total ns)] =
      .ok (.int (total [total ms, total ns])) := hrun [total ms, total ns]
  refine ⟨_, _, hrun ms, hrun ns, ?_⟩
  rw [← List.map_append, hrun, htotal, hpair]

/-- The primitive for differences, used once for each integer that is subtracted. -/
lemma foldlM_run_sub_int (first : Int) (ns : List Int) :
    (ns.map Value.int).foldlM (fun difference n => sub.run [difference, n]) (Value.int first) =
      .ok (.int (ns.foldl (· - ·) first)) := by
  induction ns generalizing first with
  | nil => rfl
  | cons n rest ih =>
    have hstep : sub.run [Value.int first, Value.int n] = .ok (.int (first - n)) :=
      run_sub_int first (List.cons_ne_nil n [])
    rw [List.map_cons, List.foldlM_cons, hstep]
    exact ih (first - n)

end Primitive

/-! ## The order of integers -/

/-- Integers are compared exactly, in units that are smaller than one. -/
lemma Number.less_int (m n : Int) : (Number.int m).less (.int n) = true ↔ m < n := by
  have hunits : ∀ exponent, 0 < Int.ofNat (Nat.pow 2 exponent) :=
    fun exponent => Int.natCast_pos.2 (Nat.two_pow_pos exponent)
  exact decide_eq_true_iff.trans (Int.mul_lt_mul_right (hunits 1074))

namespace Primitive

/-- Neighbouring integers ascend if each is less than all later ones. -/
lemma neighbours_less_int (ns : List Int) :
    neighbours Number.less (ns.map Number.int) = true ↔ ns.Pairwise (· < ·) := by
  rw [neighbours_eq_true_iff, List.isChain_map]
  simp only [Number.less_int]
  exact List.isChain_iff_pairwise

/-- Reading a row from right to left turns the relation between neighbours round. -/
lemma neighbours_reverse {α : Type} (related : α → α → Bool) (items : List α) :
    neighbours related items.reverse = neighbours (fun a b => related b a) items := by
  rw [Bool.eq_iff_iff, neighbours_eq_true_iff, neighbours_eq_true_iff, List.isChain_reverse]

/-- The primitive for ascending order compares integers as they are. -/
lemma run_less_int (ns : List Int) :
    less.run (ns.map Value.int) = compare less Number.less (ns.map Number.int) := by
  rw [run, numbers_int]
  rfl

/-- The primitive for descending order compares integers as they are. -/
lemma run_greater_int (ns : List Int) :
    greater.run (ns.map Value.int) =
      compare greater (fun a b => b.less a) (ns.map Number.int) := by
  rw [run, numbers_int]
  rfl

/-- The primitive for ascending order answers one to at least two integers if every one of them is
less than all later ones, and otherwise zero. -/
lemma run_less_int_iff {ns : List Int} (h : 2 ≤ ns.length) :
    (less.run (ns.map Value.int) = .ok (.int 1) ↔ ns.Pairwise (· < ·)) ∧
      (less.run (ns.map Value.int) = .ok (.int 0) ↔ ¬ ns.Pairwise (· < ·)) := by
  have hcount : 2 ≤ (ns.map Number.int).length := by rwa [List.length_map]
  rw [run_less_int, compare_of_two_le less Number.less hcount, ← neighbours_less_int]
  cases neighbours Number.less (ns.map Number.int) <;> simp [Value.int]

/-- Integers descend if they ascend from right to left. -/
lemma run_greater_int_of_two_le {ns : List Int} (h : 2 ≤ ns.length) :
    greater.run (ns.map Value.int) = less.run (ns.reverse.map Value.int) := by
  have hcount : 2 ≤ (ns.map Number.int).length := by rwa [List.length_map]
  have hcount' : 2 ≤ (ns.map Number.int).reverse.length := by rwa [List.length_reverse]
  rw [run_greater_int, run_less_int, List.map_reverse, compare_of_two_le _ _ hcount,
    compare_of_two_le _ _ hcount', neighbours_reverse]

/-- A comparison of fewer than two arguments is refused in the name of its primitive. -/
lemma compare_of_lt_two {α : Type} (primitive : Primitive) (related : α → α → Bool)
    {arguments : List α} (h : arguments.length < 2) :
    compare primitive related arguments = .error (.tooFewArguments primitive) :=
  if_pos h

/-! ## The primitives as a whole -/

/-- All primitives but equality report the leftmost argument that is no number, by its text if it
has one, and fail in this way on no other occasion. On integers, sums and products are exact and
depend neither on order nor on grouping, differences are taken in turn, at least two integers ascend
if every one is less than all later ones, and they descend if they ascend from right to left. -/
theorem run_checks_then_computes :
    (∀ primitive : Primitive, primitive ≠ equals → ∀ arguments : List Value,
      (∀ shown, primitive.run arguments = .error (.notNumber primitive shown) ↔
        ∃ misfit, misfit? arguments = some misfit ∧ misfit.inspect = some shown) ∧
      ((∃ error, primitive.run arguments = .error error ∧ error.kind = .sort) ↔
        ∃ misfit, misfit? arguments = some misfit ∧ misfit.inspect ≠ none) ∧
      (primitive.run arguments = .error .integerTooLong ↔
        ∃ misfit, misfit? arguments = some misfit ∧ misfit.inspect = none)) ∧
    (∀ (primitive : Primitive) (shown : String),
      (Error.notNumber primitive shown).kind = .sort ∧
      (Error.notNumber primitive shown).message =
        primitive.symbol ++ " expects numbers, got " ++ shown) ∧
    (∀ ns : List Int,
      add.run (ns.map Value.int) = .ok (.int ns.sum) ∧
      mul.run (ns.map Value.int) = .ok (.int ns.prod)) ∧
    (∀ primitive ∈ [add, mul], ∀ ms ns : List Int,
      (ms.Perm ns → primitive.run (ms.map Value.int) = primitive.run (ns.map Value.int)) ∧
      ∃ first second, primitive.run (ms.map Value.int) = .ok first ∧
        primitive.run (ns.map Value.int) = .ok second ∧
        primitive.run (ms.map Value.int ++ ns.map Value.int) = primitive.run [first, second]) ∧
    (∀ (first : Int) (ns : List Int), ns ≠ [] →
      sub.run ((first :: ns).map Value.int) = .ok (.int (ns.foldl (· - ·) first)) ∧
      sub.run ((first :: ns).map Value.int) =
        (ns.map Value.int).foldlM (fun difference n => sub.run [difference, n])
          (Value.int first)) ∧
    (∀ ns : List Int, 2 ≤ ns.length →
      (less.run (ns.map Value.int) = .ok (.int 1) ↔ ns.Pairwise (· < ·)) ∧
      (less.run (ns.map Value.int) = .ok (.int 0) ↔ ¬ ns.Pairwise (· < ·)) ∧
      greater.run (ns.map Value.int) = less.run (ns.map Value.int).reverse) ∧
    ∀ ns : List Int, ns.length < 2 →
      greater.run (ns.map Value.int) = .error (.tooFewArguments greater) ∧
      less.run (ns.map Value.int).reverse = .error (.tooFewArguments less) := by
  refine ⟨fun primitive hchecks arguments => ⟨run_eq_notNumber_iff hchecks arguments,
    exists_run_eq_sort_iff hchecks arguments, run_eq_integerTooLong_iff hchecks arguments⟩,
    fun _ _ => ⟨rfl, rfl⟩, fun ns => ⟨run_add_int ns, run_mul_int ns⟩, ?_, ?_, ?_, ?_⟩
  · intro primitive hprimitive ms ns
    obtain rfl | rfl : primitive = add ∨ primitive = mul := by simpa using hprimitive
    · refine ⟨fun hperm => ?_, run_append_int run_add_int (by simp) ms ns⟩
      rw [run_add_int, run_add_int, hperm.sum_eq]
    · refine ⟨fun hperm => ?_, run_append_int run_mul_int (by simp) ms ns⟩
      rw [run_mul_int, run_mul_int, hperm.prod_eq]
  · intro first ns hns
    exact ⟨run_sub_int first hns, (run_sub_int first hns).trans (foldlM_run_sub_int first ns).symm⟩
  · intro ns hcount
    obtain ⟨hone, hzero⟩ := run_less_int_iff hcount
    rw [← List.map_reverse]
    exact ⟨hone, hzero, run_greater_int_of_two_le hcount⟩
  · intro ns hcount
    rw [← List.map_reverse, run_greater_int, run_less_int]
    exact ⟨compare_of_lt_two greater _ (by rwa [List.length_map]),
      compare_of_lt_two less _ (by rwa [List.length_map, List.length_reverse])⟩

/-- A misfit is reported although one is to be divided by zero before it, and a truth value although
a comparison takes more than one argument. Integers are added in any order, subtracted in turn, and
compared with all later ones. -/
theorem run_of_misfits_and_integers :
    div.run [.int 1, .int 0, .empty, .nothing] = .error (.notNumber div "()") ∧
    less.run [.number (.bool true)] = .error (.notNumber less "True") ∧
    add.run [.int 3, .int 1, .int 2] = add.run [.int 1, .int 2, .int 3] ∧
    sub.run [.int 10, .int 3, .int 2] = .ok (.int 5) ∧
    less.run [.int 1, .int 3, .int 2] = .ok (.int 0) ∧
    greater.run [.int 3, .int 2, .int 1] = .ok (.int 1) ∧
    greater.run [.int 7] = .error (.tooFewArguments greater) := by
  obtain ⟨hchecks, -, -, hgroups, hturns, horder, hshort⟩ := run_checks_then_computes
  have hascends : less.run [.int 1, .int 2, .int 3] = .ok (.int 1) :=
    (horder [1, 2, 3] (by decide)).1.2 (by decide)
  refine ⟨((hchecks div nofun _).1 "()").2 ⟨.empty, rfl, rfl⟩,
    ((hchecks less nofun _).1 "True").2 ⟨.number (.bool true), rfl, rfl⟩, ?_,
    (hturns 10 [3, 2] nofun).1, (horder [1, 3, 2] (by decide)).2.1.2 (by decide), ?_,
    (hshort [7] (by decide)).1⟩
  · exact (hgroups add (by decide) [3, 1, 2] [1, 2, 3]).1 (by decide)
  · exact (horder [3, 2, 1] (by decide)).2.2.trans hascends

end Primitive

end Lisplet
