/-!
# Special forms

A form that starts with one of nine names has an evaluation rule of its own. The names are
recognised in the text of the form alone: a binding of the same name changes nothing.
-/

namespace Lisplet

/-- The forms with a rule of their own. -/
inductive SpecialForm where
  /-- A list of the values of all operands. -/
  | list
  /-- The first item of a list. -/
  | first
  /-- A list without its first item. -/
  | rest
  /-- A value, after its text went to the outlet. -/
  | print
  /-- A closure. -/
  | lambda
  /-- A body in a frame of new bindings. -/
  | letIn
  /-- An operand as data. -/
  | quote
  /-- Data as code. -/
  | eval
  /-- A choice between two operands. -/
  | choice
deriving DecidableEq, Repr

namespace SpecialForm

/-- The name that starts a form of each kind. -/
def name : SpecialForm → String
  | list => "list"
  | first => "first"
  | rest => "rest"
  | print => "print"
  | lambda => "lambda"
  | letIn => "let"
  | quote => "quote"
  | eval => "eval"
  | choice => "if"

/-- All special forms. -/
def all : List SpecialForm :=
  [list, first, rest, print, lambda, letIn, quote, eval, choice]

/-- The special form with a given name. -/
def ofName? (name : String) : Option SpecialForm :=
  all.find? fun form => form.name == name

/-- What is wrong with a form of the wrong number of operands. -/
def countMessage : SpecialForm → String
  | lambda => "lambda requires a parameter list and a single body"
  | letIn => "let requires a binding list and a single body"
  | choice => "if expects (if condition then else)"
  | form => form.name ++ " expects exactly one argument"

end SpecialForm

end Lisplet
