import Lisplet.Primitive

/-!
# A stock of host procedures

Small procedures for trying out how programs and their host work together: constants, a sum of two
values, procedures that gather, count or wrap their arguments, and one that always fails.
-/

namespace Lisplet.Stock

/-- The result of a procedure that takes no arguments. -/
def constant (name : String) (value : Value) (arguments : List Value) : Except Error Value :=
  if arguments.isEmpty then .ok value
  else .error (.surplusArguments name 0 arguments.length)

/-- The name of the sort of a value, as it stands in messages. -/
def sortName : Value → String
  | .number (.int _) => "int"
  | .number (.real _) => "float"
  | .number (.bool _) => "bool"
  | .number (.undefined _ _) => "float"
  | .text _ => "str"
  | .list _ => "list"
  | .empty => "EmptyType"
  | .absent => "AbsentType"
  | .nothing => "NoneType"
  | .quoted _ => "QuotedForm"
  | .closure _ _ _ _ => "Closure"
  | .host (.object procedure) => procedure.name
  | .host _ => "function"

/-- The sum of two numbers, or two texts or lists joined. -/
def plus : Value → Value → Except Error Value
  | .number a, .number b =>
    match a.add b with
    | .ok n => .ok (.number n)
    | .error fault => .error (.arithmetic fault)
  | .text a, .text b => .ok (.text (a ++ b))
  | .list as, .list bs => .ok (.list (as ++ bs))
  | .text _, other =>
    .error (.hostMismatch ("can only concatenate str (not \"" ++ sortName other ++ "\") to str"))
  | .list _, other =>
    .error (.hostMismatch ("can only concatenate list (not \"" ++ sortName other ++ "\") to list"))
  | a, b =>
    .error (.hostMismatch ("unsupported operand type(s) for +: '" ++ sortName a ++ "' and '" ++
      sortName b ++ "'"))

/-- The sum of exactly two arguments. -/
def plusAll : List Value → Except Error Value
  | [] => .error (.missingArguments "plus" ["a", "b"])
  | [_] => .error (.missingArguments "plus" ["b"])
  | [a, b] => plus a b
  | arguments => .error (.surplusArguments "plus" 2 arguments.length)

/-- What the procedures of the stock do, which are told apart by their names. -/
def host (procedure : Procedure) (call : Nat) (arguments : List Value) : Except Error Value :=
  match procedure.name with
  | "answer" => constant "answer" (.int 42) arguments
  | "shout" => constant "shout" (.text "!") arguments
  | "plus" => (plusAll arguments).map (Value.madeBy call)
  | "echo" => .ok (.list arguments)
  | "truth" => .ok (.number (.bool true))
  | "falsity" => .ok (.number (.bool false))
  | "nil" => .ok .nothing
  | "code" => .ok (.quoted (.form (.identifier "list" :: arguments.map Node.constant)))
  | "Thing" => .ok (.int (Int.ofNat arguments.length))
  | _ => .error (.hostFailure "host failure")

/-- The procedure of the stock with a given name. -/
def procedure (name : String) : Procedure :=
  ⟨0, name⟩

/-- The host procedure with a given name. -/
def callable (name : String) : Callable :=
  match Primitive.all.find? fun primitive => primitive.name == name with
  | some primitive => .primitive primitive
  | none => if name = "Thing" then .object (procedure name) else .function (procedure name)

end Lisplet.Stock
