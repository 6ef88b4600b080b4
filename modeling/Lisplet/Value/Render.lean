import Lisplet.Text
import Lisplet.Value

/-!
# Texts of values and trees

There are two styles. The surface style is the one programs print and are written in. The
structural style shows how a value is built and serves diagnostics. Closures look alike in both,
and a value that stands where code is expected is always shown structurally.

A text exists unless an integer of more than 4300 digits would have to be written. That does not
depend on the style.
-/

namespace Lisplet

/-- The two styles of text. -/
inductive Style where
  /-- As programs are written. -/
  | surface
  /-- As values are built. -/
  | structural
deriving DecidableEq, Repr

namespace Style

/-- The text of a text. -/
def ofText : Style → String → String
  | surface, s => s
  | structural, s => Text.quoted s

/-- The text of a list, given those of its items. -/
def ofList : Style → List String → String
  | surface, items => "(" ++ Text.joined " " items ++ ")"
  | structural, items => "[" ++ Text.joined ", " items ++ "]"

/-- The text of quoted code, given that of the code. -/
def ofQuoted : Style → String → String
  | surface, code => "'" ++ code
  | structural, code => "QuotedForm(node=" ++ code ++ ")"

/-- The text of a host procedure. -/
def ofCallable : Style → Callable → String
  | surface, callable => "<host " ++ callable.name ++ ">"
  | structural, .object procedure => "<" ++ procedure.name ++ " object>"
  | structural, callable => "<function " ++ callable.name ++ ">"

/-- The text of a name in code. -/
def ofIdentifier : Style → String → String
  | surface, name => name
  | structural, name => "Identifier(name=" ++ Text.quoted name ++ ")"

/-- The text of a numeric literal, given that of the number. -/
def ofNumber : Style → String → String
  | surface, number => number
  | structural, number => "Number(value=" ++ number ++ ")"

/-- The text of a text literal. -/
def ofString : Style → String → String
  | surface, s => "\"" ++ s ++ "\""
  | structural, s => "String(value=" ++ Text.quoted s ++ ")"

/-- The text of a form, given those of its children. A row of one is written with a comma. -/
def ofForm : Style → List String → String
  | surface, children => "(" ++ Text.joined " " children ++ ")"
  | structural, [child] => "Form(children=(" ++ child ++ ",))"
  | structural, children => "Form(children=(" ++ Text.joined ", " children ++ "))"

/-- The text of a quote, given that of the quoted tree. -/
def ofQuote : Style → String → String
  | surface, inner => "'" ++ inner
  | structural, inner => "Quote(inner=" ++ inner ++ ")"

/-- The text of a constant, given that of its value. -/
def ofConstant : Style → String → String
  | surface, value => value
  | structural, value => "Constant(value=" ++ value ++ ")"

end Style

/-- The text of a closure, given that of its body. -/
def closureText (params : List String) (body : String) : String :=
  "(lambda (" ++ Text.joined " " params ++ ") " ++ body ++ ")"

mutual

/-- The text of a value. -/
def Value.render (style : Style) : Value → Option String
  | .number n => n.text
  | .text s => some (style.ofText s)
  | .list items => (Value.renderAll style items).map style.ofList
  | .empty => some "()"
  | .absent => some "absent"
  | .nothing => some "None"
  | .quoted node => (node.render style).map style.ofQuoted
  | .closure _ params body _ => (body.render .surface).map (closureText params)
  | .host callable => some (style.ofCallable callable)

/-- The texts of a list of values. -/
def Value.renderAll (style : Style) : List Value → Option (List String)
  | [] => some []
  | value :: rest => do
    let text ← value.render style
    let texts ← Value.renderAll style rest
    return text :: texts

/-- The text of a tree. -/
def Node.render (style : Style) : Node → Option String
  | .identifier name => some (style.ofIdentifier name)
  | .number n => n.text.map style.ofNumber
  | .string s => some (style.ofString s)
  | .form children => (Node.renderAll style children).map style.ofForm
  | .quote inner => (inner.render style).map style.ofQuote
  | .constant value => (value.render style).map style.ofConstant
  | .foreign value => value.render .structural

/-- The texts of a row of trees. -/
def Node.renderAll (style : Style) : List Node → Option (List String)
  | [] => some []
  | node :: rest => do
    let text ← node.render style
    let texts ← Node.renderAll style rest
    return text :: texts

end

/-- What a program prints for a value. -/
def Value.display (value : Value) : Option String :=
  value.render .surface

/-- How diagnostics show a value. -/
def Value.inspect (value : Value) : Option String :=
  value.render .structural

/-- A text as it is, and every other value as diagnostics show it. -/
def Value.summary : Value → Option String
  | .text s => some s
  | value => value.inspect

/-- The source text of a tree. -/
def Node.source (node : Node) : Option String :=
  node.render .surface

/-- How diagnostics show a tree. -/
def Node.inspect (node : Node) : Option String :=
  node.render .structural

end Lisplet
