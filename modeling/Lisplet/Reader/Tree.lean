import Lisplet.Literal
import Lisplet.Token
import Lisplet.Value.Render

/-!
# Trees from tokens, and data from trees

Reading a tree goes from token to token and keeps the constructs that are still open, the
innermost first. A token opens a construct or completes a tree. A completed tree completes the
quotes around it and then joins the innermost open form, or is the result when nothing is open.

When the tokens run out, the innermost open construct is what is incomplete.

Flattening forgets what a tree says beyond its nesting: forms become lists, quotes vanish, names
become texts, and literals and constants become their values.
-/

namespace Lisplet

/-- A construct that waits for more tokens. -/
inductive Construct where
  /-- A form that was opened at a position, with its children in reverse. -/
  | form (pos : Int) (reversed : List Node)
  /-- A quote mark at a position. -/
  | quote (pos : Int)

/-- What the tokens so far amount to: a tree, or constructs that are still open. -/
abbrev Progress := Node ⊕ List Construct

/-- A completed tree inside the constructs that are open around it. -/
def complete (node : Node) : List Construct → Progress
  | [] => .inl node
  | .quote _ :: outer => complete (.quote node) outer
  | .form pos reversed :: outer => .inr (.form pos (node :: reversed) :: outer)

/-- The text of a text literal, which is the token without its first and last character. -/
def literalText (text : String) : String :=
  String.ofList (text.toList.drop 1).dropLast

/-- What one more token makes of the open constructs. -/
def consume (pending : List Construct) (token : Token) : Except Error Progress :=
  match token.kind with
  | .atom => (Node.ofAtom token.text).map (complete · pending)
  | .string => .ok (complete (.string (literalText token.text)) pending)
  | .quoteMark => .ok (.inr (.quote token.pos :: pending))
  | .opening => .ok (.inr (.form token.pos [] :: pending))
  | .closing =>
    match pending with
    | .form _ reversed :: outer => .ok (complete (.form reversed.reverse) outer)
    | _ => .error (.unmatchedClose token.pos)
  | .other kind => .error (.unknownToken kind token.text)

/-- How reading one tree can end. -/
inductive Reading where
  /-- With a tree and the tokens after it. -/
  | tree (node : Node) (rest : List Token)
  /-- With an error at a token and the tokens after that one. -/
  | fault (error : Error) (rest : List Token)
  /-- At the end of the tokens, with constructs still open. -/
  | cut (pending : List Construct)

/-- Reads one tree, given the constructs that are open already. -/
def readTree (pending : List Construct) : List Token → Reading
  | [] => .cut pending
  | token :: rest =>
    match consume pending token with
    | .error error => .fault error rest
    | .ok (.inl node) => .tree node rest
    | .ok (.inr pending) => readTree pending rest

/-- What is incomplete when the tokens run out. -/
def incomplete : List Construct → Error
  | [] => .endOfInput
  | .form pos _ :: _ => .unmatchedOpen pos
  | .quote pos :: _ => .nothingToQuote pos

/-! ## Flattening -/

mutual

/-- The bare data of a tree. -/
def Node.flatten : Node → Except Error Value
  | .identifier name => .ok (.text name)
  | .number n => .ok (.number n)
  | .string s => .ok (.text s)
  | .form children => (Node.flattenAll children).map Value.list
  | .quote inner => inner.flatten
  | .constant value => .ok value
  | .foreign value => .error (Error.naming value.inspect .notFlattenable)

/-- The bare data of a row of trees. -/
def Node.flattenAll : List Node → Except Error (List Value)
  | [] => .ok []
  | node :: rest => do
    let value ← node.flatten
    let values ← Node.flattenAll rest
    return value :: values

end

end Lisplet
