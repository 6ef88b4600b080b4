import Lisplet.Host.Stock
import Lisplet.Proofs.Renaming.Basic

/-!
# Results under renaming

A computation that is given renamed values yields the renamed value, or fails in the same way. An
error may hold the text of a value, so that renamed errors need not be equal. But their kinds are,
and if names are kept the errors themselves are.

Calls of the primitives are computations of this sort. Procedures of the host are free to do what
they like with their arguments, so that the same is a condition on a host.
-/

namespace Lisplet

namespace Renaming

variable {α β γ δ : Type} {ρ : Renaming}

/-- Two errors that differ at most in the names that they mention. -/
structure Alike (ρ : Renaming) (error renamed : Error) : Prop where
  /-- The errors are of one kind. -/
  kind : renamed.kind = error.kind
  /-- Without a change of names there is no difference. -/
  eq : ρ.KeepsNames → renamed = error

/-- Two results of which the second is the first after a renaming, given what the renaming does to
values. -/
inductive Matches (ρ : Renaming) (f : α → β) : Except Error α → Except Error β → Prop
  | ok (value : α) : Matches ρ f (.ok value) (.ok (f value))
  | error {error renamed : Error} (h : ρ.Alike error renamed) :
      Matches ρ f (.error error) (.error renamed)

/-- Every error is like itself. -/
lemma Alike.refl (error : Error) : ρ.Alike error error :=
  ⟨rfl, fun _ => rfl⟩

/-- Errors that name a value by its text are alike if the texts exist in the same cases. -/
lemma alike_naming {shown renamed : Option String} (hsome : renamed.isSome = shown.isSome)
    (heq : ρ.KeepsNames → renamed = shown) {cause : String → Error}
    (hkind : ∀ first second, (cause first).kind = (cause second).kind) :
    ρ.Alike (Error.naming shown cause) (Error.naming renamed cause) := by
  constructor
  · cases shown <;> cases renamed
    · rfl
    · cases hsome
    · cases hsome
    · exact hkind _ _
  · intro hkeeps
    rw [heq hkeeps]

/-- Errors that name a value before and after a renaming are alike. -/
lemma alike_naming_value (value : Value) {cause : String → Error}
    (hkind : ∀ first second, (cause first).kind = (cause second).kind) :
    ρ.Alike (Error.naming value.inspect cause) (Error.naming (value.rename ρ).inspect cause) :=
  alike_naming (Value.isSome_render_rename .structural value)
    (fun hkeeps => Value.render_rename hkeeps .structural value) hkind

/-- Errors that name a tree before and after a renaming are alike. -/
lemma alike_naming_node (node : Node) {cause : String → Error}
    (hkind : ∀ first second, (cause first).kind = (cause second).kind) :
    ρ.Alike (Error.naming node.inspect cause) (Error.naming (node.rename ρ).inspect cause) :=
  alike_naming (Node.isSome_render_rename .structural node)
    (fun hkeeps => Node.render_rename hkeeps .structural node) hkind

/-- Errors about a repeated name before and after a renaming are alike. -/
lemma alike_duplicateName (name : String) :
    ρ.Alike (.duplicateName name) (.duplicateName (ρ.name name)) :=
  ⟨rfl, fun hkeeps => congrArg Error.duplicateName (hkeeps name)⟩

/-- Errors about a value that cannot be applied are alike before and after a renaming. -/
lemma alike_notApplicable (head : Value) (arguments : List Value) :
    ρ.Alike (notApplicable head arguments)
      (notApplicable (head.rename ρ) (arguments.map (Value.rename ρ))) := by
  rw [notApplicable, notApplicable, ← Value.rename_list]
  constructor
  · have hhead : (head.rename ρ).inspect.isSome = head.inspect.isSome :=
      Value.isSome_render_rename .structural head
    have hlist : ((Value.list arguments).rename ρ).inspect.isSome =
        (Value.list arguments).inspect.isSome :=
      Value.isSome_render_rename .structural (.list arguments)
    revert hhead hlist
    generalize (head.rename ρ).inspect = renamed, head.inspect = shown,
      ((Value.list arguments).rename ρ).inspect = renamedList,
      (Value.list arguments).inspect = shownList
    intro hhead hlist
    cases renamed <;> cases shown <;> cases renamedList <;> cases shownList <;>
      simp_all [Error.kind]
  · intro hkeeps
    unfold Value.inspect
    rw [Value.render_rename hkeeps, Value.render_rename hkeeps]

/-! ## Sequences of results -/

/-- What a renaming does not change matches itself. -/
lemma matches_refl (result : Except Error α) : ρ.Matches id result result := by
  cases result with
  | ok value => exact .ok value
  | error error => exact .error (.refl error)

/-- Sequences match part by part. -/
lemma Matches.bind {f : α → β} {g : γ → δ} {result : Except Error α} {renamed : Except Error β}
    (h : ρ.Matches f result renamed) {next : α → Except Error γ} {next' : β → Except Error δ}
    (hnext : ∀ value, ρ.Matches g (next value) (next' (f value))) :
    ρ.Matches g (result >>= next) (renamed >>= next') := by
  cases h with
  | ok value => exact hnext value
  | error h => exact .error h

/-! ## Primitives -/

/-- A renaming does not change the numbers that arithmetic works with. -/
lemma matches_numbers (primitive : Primitive) (arguments : List Value) :
    ρ.Matches id (primitive.numbers arguments)
      (primitive.numbers (arguments.map (Value.rename ρ))) := by
  induction arguments with
  | nil => exact .ok []
  | cons argument rest ih =>
    cases argument with
    | number n =>
      cases n with
      | int n => exact ih.bind fun numbers => .ok (.int n :: numbers)
      | real x => exact ih.bind fun numbers => .ok (.real x :: numbers)
      | undefined origin index => exact ih.bind fun numbers => .ok (.real Real.nan :: numbers)
      | bool b => exact .error (alike_naming_value (.number (.bool b)) fun _ _ => rfl)
    | _ => exact .error (alike_naming_value _ fun _ _ => rfl)

/-- Neighbours are related as before if the relation is kept. -/
lemma neighbours_map {α β : Type} {f : α → β} {related : α → α → Bool} {related' : β → β → Bool}
    (h : ∀ a b, related' (f a) (f b) = related a b) (items : List α) :
    Primitive.neighbours related' (items.map f) = Primitive.neighbours related items := by
  fun_induction Primitive.neighbours related items with
  | case1 a b rest ih =>
    rw [List.map_cons, List.map_cons, Primitive.neighbours, h]
    rw [List.map_cons] at ih
    rw [ih]
  | case2 items hitems =>
    rcases items with _ | ⟨a, _ | ⟨b, rest⟩⟩
    · rfl
    · rfl
    · exact (hitems a b rest rfl).elim

/-- A comparison answers as before if the relation is kept. -/
lemma matches_compare {α β : Type} (primitive : Primitive) {f : α → β} {related : α → α → Bool}
    {related' : β → β → Bool} (h : ∀ a b, related' (f a) (f b) = related a b) (items : List α) :
    ρ.Matches id (primitive.compare related items)
      (primitive.compare related' (items.map f)) := by
  unfold Primitive.compare
  rw [List.length_map, neighbours_map h]
  split
  · exact .error (.refl _)
  · exact .ok (Value.int _)

/-- Primitives compute the same number before and after a renaming. -/
lemma matches_run (primitive : Primitive) (arguments : List Value) :
    ρ.Matches id (primitive.run arguments) (primitive.run (arguments.map (Value.rename ρ))) := by
  -- All but equality work with numbers only, which a renaming does not change.
  have hnumbers : ∀ compute : List Number → Except Error Value,
      ρ.Matches id (primitive.numbers arguments >>= compute)
        (primitive.numbers (arguments.map (Value.rename ρ)) >>= compute) := fun compute =>
    (matches_numbers primitive arguments).bind fun numbers => matches_refl (compute numbers)
  cases primitive with
  | add | sub | mul | div | less | greater => exact hnumbers _
  | equals => exact matches_compare .equals Value.same_rename arguments

/-- The value of a corresponding call of a primitive is the renamed value. -/
lemma matches_primitive (primitive : Primitive) (call : Nat) (arguments : List Value) :
    ρ.Matches (Value.rename ρ) ((primitive.run arguments).map (Value.madeBy call))
      ((primitive.run (arguments.map (Value.rename ρ))).map (Value.madeBy (ρ.identity call))) := by
  have hrun := matches_run (ρ := ρ) primitive arguments
  generalize hresult : primitive.run arguments = result,
    primitive.run (arguments.map (Value.rename ρ)) = renamed at hrun ⊢
  cases hrun with
  | ok value =>
    obtain ⟨n, rfl⟩ := Primitive.exists_number_of_run hresult
    have hmade : ((Value.number n).madeBy call).rename ρ =
        (Value.number n).madeBy (ρ.identity call) := congrArg Value.number (n.rename_madeBy call)
    have hok := Matches.ok (ρ := ρ) (f := Value.rename ρ) ((Value.number n).madeBy call)
    rwa [hmade] at hok
  | error h => exact .error h

/-! ## Procedures of the host -/

/-- A host whose procedures do not notice a renaming. -/
def Respects (ρ : Renaming) (host : Host) : Prop :=
  ∀ procedure call arguments, ρ.Matches (Value.rename ρ) (host procedure call arguments)
    (host procedure (ρ.identity call) (arguments.map (Value.rename ρ)))

/-- Corresponding calls match if the host does not notice the renaming. -/
lemma matches_call {host : Host} (h : ρ.Respects host) (callable : Callable) (call : Nat)
    (arguments : List Value) :
    ρ.Matches (Value.rename ρ) (callable.call host call arguments)
      (callable.call host (ρ.identity call) (arguments.map (Value.rename ρ))) := by
  cases callable with
  | primitive primitive => exact matches_primitive primitive call arguments
  | function procedure => exact h procedure call arguments
  | object procedure => exact h procedure call arguments

/-- If names are kept, results match only if the second is the first after the renaming. -/
lemma matches_iff_of_keepsNames (hkeeps : ρ.KeepsNames) {f : α → β} {result : Except Error α}
    {renamed : Except Error β} : ρ.Matches f result renamed ↔ renamed = result.map f := by
  constructor
  · intro h
    cases h with
    | ok value => rfl
    | error h => exact congrArg Except.error (h.eq hkeeps)
  · rintro rfl
    cases result with
    | ok value => exact .ok value
    | error error => exact .error (.refl error)

end Renaming

/-- A host whose procedures do not depend on the frames that closures were made in. Closures and
doubles that are no numbers can be told apart, and passed on, but nothing else can be learned from
their identities or from those of calls. -/
def Host.IsUniform (host : Host) : Prop :=
  ∀ ρ : Renaming, ρ.KeepsNames → ∀ procedure call arguments,
    host procedure (ρ.identity call) (arguments.map (Value.rename ρ)) =
      (host procedure call arguments).map (Value.rename ρ)

/-- A uniform host does not notice renamings that keep names. -/
lemma Host.IsUniform.respects {host : Host} (h : host.IsUniform) {ρ : Renaming}
    (hkeeps : ρ.KeepsNames) : ρ.Respects host := by
  intro procedure call arguments
  rw [Renaming.matches_iff_of_keepsNames hkeeps]
  exact h ρ hkeeps procedure call arguments

/-! ## The stock of host procedures -/

/-- Sums do not depend on which doubles are added that are no numbers. -/
lemma Number.add_rename {ρ : Renaming} (a b : Number) :
    (a.rename ρ).add (b.rename ρ) = a.add b := by
  have hwhole : ∀ n : Number, (n.rename ρ).whole? = n.whole? := by rintro (_ | _ | _ | _) <;> rfl
  have hreal : ∀ n : Number, (n.rename ρ).toReal = n.toReal := by rintro (_ | _ | _ | _) <;> rfl
  simp only [Number.add, Number.combine, hwhole, hreal]

/-- Corresponding calls yield corresponding sums. -/
lemma Stock.matches_plus {ρ : Renaming} (call : Nat) (first second : Value) :
    ρ.Matches (Value.rename ρ) ((Stock.plus first second).map (Value.madeBy call))
      ((Stock.plus (first.rename ρ) (second.rename ρ)).map
        (Value.madeBy (ρ.identity call))) := by
  cases first with
  | number a =>
    cases second with
    | number b =>
      simp only [Value.rename, Stock.plus, Number.add_rename]
      cases a.add b with
      | ok n =>
        have hok := Renaming.Matches.ok (ρ := ρ) (f := Value.rename ρ)
          ((Value.number n).madeBy call)
        rwa [Value.madeBy, Value.rename, n.rename_madeBy] at hok
      | error fault => exact .error (.refl _)
    | _ => cases a <;> exact .error (.refl _)
  | text a =>
    cases second with
    | text b => exact .ok (Value.text (a ++ b))
    | number b => cases b <;> exact .error (.refl _)
    | _ => exact .error (.refl _)
  | list as =>
    cases second with
    | list bs =>
      have hok : ρ.Matches (Value.rename ρ) (.ok (.list (as ++ bs)))
          (.ok ((Value.list (as ++ bs)).rename ρ)) := .ok _
      rw [Value.rename_list, List.map_append] at hok
      rw [Value.rename_list, Value.rename_list]
      exact hok
    | number b => cases b <;> exact .error (.refl _)
    | _ => exact .error (.refl _)
  | _ =>
    cases second with
    | number b => cases b <;> exact .error (.refl _)
    | _ => exact .error (.refl _)

/-- Corresponding calls yield corresponding sums, or refuse a wrong number of arguments. -/
lemma Stock.matches_plusAll {ρ : Renaming} (call : Nat) (arguments : List Value) :
    ρ.Matches (Value.rename ρ) ((Stock.plusAll arguments).map (Value.madeBy call))
      ((Stock.plusAll (arguments.map (Value.rename ρ))).map (Value.madeBy (ρ.identity call))) := by
  rcases arguments with _ | ⟨first, _ | ⟨second, _ | ⟨third, more⟩⟩⟩
  · exact .error (.refl _)
  · exact .error (.refl _)
  · exact Stock.matches_plus call first second
  · change ρ.Matches _
      (.error (.surplusArguments "plus" 2 (first :: second :: third :: more).length))
      (.error (.surplusArguments "plus" 2
        ((first :: second :: third :: more).map (Value.rename ρ)).length))
    rw [List.length_map]
    exact .error (.refl _)

/-- A constant is kept if the renaming does not change its value. -/
lemma Stock.matches_constant {ρ : Renaming} (name : String) {value : Value}
    (hvalue : value.rename ρ = value) (arguments : List Value) :
    ρ.Matches (Value.rename ρ) (Stock.constant name value arguments)
      (Stock.constant name value (arguments.map (Value.rename ρ))) := by
  unfold Stock.constant
  rw [List.isEmpty_map, List.length_map]
  split
  · have hok : ρ.Matches (Value.rename ρ) (.ok value) (.ok (value.rename ρ)) := .ok value
    rwa [hvalue] at hok
  · exact .error (.refl _)

/-- The stock of host procedures does not notice any renaming. -/
theorem Stock.respects_host (ρ : Renaming) : ρ.Respects Stock.host := by
  intro procedure call arguments
  unfold Stock.host
  split
  · exact Stock.matches_constant "answer" rfl arguments
  · exact Stock.matches_constant "shout" rfl arguments
  · exact Stock.matches_plusAll call arguments
  · rw [← Value.rename_list]
    exact .ok (Value.list arguments)
  · exact .ok (Value.number (.bool true))
  · exact .ok (Value.number (.bool false))
  · exact .ok Value.nothing
  · have hcode : (Value.quoted (.form (.identifier "list" :: arguments.map .constant))).rename ρ =
        .quoted (.form (.identifier "list" ::
          (arguments.map (Value.rename ρ)).map .constant)) := by
      rw [Value.rename, Node.rename_form, List.map_cons, List.map_map, List.map_map, Node.rename,
        show ρ.name "list" = "list" from ρ.name_special .list]
      rfl
    rw [← hcode]
    exact .ok _
  · rw [List.length_map]
    exact .ok (Value.int _)
  · exact .error (.refl _)

/-- The stock of host procedures is uniform. -/
lemma Stock.isUniform_host : Host.IsUniform Stock.host := by
  intro ρ hkeeps procedure call arguments
  exact (Renaming.matches_iff_of_keepsNames hkeeps).1
    (Stock.respects_host ρ procedure call arguments)

end Lisplet
