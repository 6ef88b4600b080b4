import Lisplet.Error
import Lisplet.Value

/-!
# Equality of values and trees

Numbers are equal by exact value, texts and lists item by item, code by structure. Closures and
host procedures are equal only to themselves. Equality within a tree is that of values where the
tree holds values.

Inside lists and trees it is enough that two values are one and the same. This matters for doubles
that are no numbers only: all else is equal to itself anyway. Values are alike if they are equal in
this wider sense, and the equality of two values is the narrower one at their top.
-/

namespace Lisplet

mutual

/-- Whether values are equal or one and the same. -/
def Value.alike : Value → Value → Bool
  | .number a, .number b => a.alike b
  | .text a, .text b => a == b
  | .list as, .list bs => Value.alikeAll as bs
  | .empty, .empty => true
  | .absent, .absent => true
  | .nothing, .nothing => true
  | .quoted a, .quoted b => a.alike b
  | .closure i _ _ _, .closure j _ _ _ => i == j
  | .host a, .host b => a == b
  | _, _ => false

/-- Whether lists of values are alike item by item. -/
def Value.alikeAll : List Value → List Value → Bool
  | [], [] => true
  | a :: as, b :: bs => a.alike b && Value.alikeAll as bs
  | _, _ => false

/-- Whether trees are equal or one and the same. -/
def Node.alike : Node → Node → Bool
  | .identifier a, .identifier b => a == b
  | .number a, .number b => a.alike b
  | .string a, .string b => a == b
  | .form as, .form bs => Node.alikeAll as bs
  | .quote a, .quote b => a.alike b
  | .constant a, .constant b => a.alike b
  | .foreign a, .foreign b => a.alike b
  | _, _ => false

/-- Whether rows of trees are alike one by one. -/
def Node.alikeAll : List Node → List Node → Bool
  | [], [] => true
  | a :: as, b :: bs => a.alike b && Node.alikeAll as bs
  | _, _ => false

end

/-- Equality of values. -/
def Value.same : Value → Value → Bool
  | .number a, .number b => a.same b
  | a, b => a.alike b

mutual

/-- Whether a value can be a member of a set. Lists cannot, nor can code that holds one. -/
def Value.isHashable : Value → Bool
  | .list _ => false
  | .quoted node => node.isHashable
  | _ => true

/-- Whether a tree can be a member of a set. -/
def Node.isHashable : Node → Bool
  | .form children => Node.allHashable children
  | .quote inner => inner.isHashable
  | .constant value | .foreign value => value.isHashable
  | _ => true

/-- Whether every tree of a row can be a member of a set. -/
def Node.allHashable : List Node → Bool
  | [] => true
  | node :: rest => node.isHashable && Node.allHashable rest

end

/-- The values with later repetitions left out. All of them have to be fit for a set. -/
def Value.distinct (values : List Value) : Except Error (List Value) :=
  if values.all Value.isHashable then
    .ok (values.foldl (fun seen value =>
      if seen.any (·.alike value) then seen else seen ++ [value]) [])
  else .error .unhashable

end Lisplet
