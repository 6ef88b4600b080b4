import Lisplet.Callable
import Lisplet.Number
import Lisplet.SpecialForm
import Lisplet.Text

/-!
# Errors

An error is a cause. Where a cause names a value or a tree, it holds the text that the value had
when the error arose. `Error.kind` sorts the causes, and `Error.message` words them.

Wording an error can fail as well: the value to be named may hold an integer that is too long to
be written. `Error.naming` is the one place where that is decided.
-/

namespace Lisplet

/-- The causes of failure. -/
inductive Error where
  /-- A text literal that starts at an offset and never ends. -/
  | unterminatedString (offset : Nat)
  /-- No token where a tree is wanted. -/
  | emptyInput
  /-- The tokens ended where a tree must start. -/
  | endOfInput
  /-- A quote mark with nothing after it. -/
  | nothingToQuote (pos : Int)
  /-- A form that is not closed. -/
  | unmatchedOpen (pos : Int)
  /-- A closing parenthesis without a form. -/
  | unmatchedClose (pos : Int)
  /-- A token of no known kind. -/
  | unknownToken (kind text : String)
  /-- A token after the end of the tree. -/
  | trailingToken (text : String) (pos : Int)
  /-- An integer literal with too many digits. -/
  | literalTooLong (digits : Nat)
  /-- An integer too long to be written. -/
  | integerTooLong
  /-- A special form with a wrong number of operands. -/
  | operandCount (form : SpecialForm)
  /-- The parameters of a closure are not in a form. -/
  | parametersNotList (shown : String)
  /-- A parameter of a closure that is no name. -/
  | parameterNotName (shown : String)
  /-- New bindings that are not in a form. -/
  | bindingsNotList (shown : String)
  /-- A new binding that is no pair of a name and a tree. -/
  | malformedBinding (shown : String)
  /-- An operand that is no list. -/
  | notList (form : SpecialForm) (shown : String)
  /-- The first item of an empty list is wanted. -/
  | firstOfEmpty
  /-- A value that stands where code is evaluated. -/
  | notCode (shown : String)
  /-- A closure applied to a wrong number of arguments. -/
  | argumentCount (expected : Nat) (closure : String) (given : Nat)
  /-- Arguments for a value that takes none. -/
  | notCallable (head arguments : String)
  /-- A name that is bound twice in one frame. -/
  | duplicateName (name : String)
  /-- A value used as a name. -/
  | nameNotText (shown : String)
  /-- A primitive with too few arguments. -/
  | tooFewArguments (primitive : Primitive)
  /-- An argument of a primitive that is no number. -/
  | notNumber (primitive : Primitive) (shown : String)
  /-- A fault of arithmetic. -/
  | arithmetic (fault : Number.Fault)
  /-- A tree to be flattened that is no code. -/
  | notFlattenable (shown : String)
  /-- A list as a member of a set. -/
  | unhashable
  /-- A failure of a host procedure. -/
  | hostFailure (message : String)
  /-- Too many arguments for a host procedure. -/
  | surplusArguments (name : String) (expected given : Nat)
  /-- Too few arguments for a host procedure. -/
  | missingArguments (name : String) (missing : List String)
  /-- Arguments that a host procedure cannot combine. -/
  | hostMismatch (message : String)
deriving DecidableEq, Repr

namespace Error

/-- The kinds of error. -/
inductive Kind where
  /-- The text cannot be split into tokens. -/
  | lexical
  /-- The tokens are not exactly one tree. -/
  | grammar
  /-- A wrong number of operands or arguments. -/
  | arity
  /-- Arguments for something that takes none. -/
  | notCallable
  /-- A value of a wrong sort in the program. -/
  | sort
  /-- An empty list where an item is wanted. -/
  | emptyList
  /-- A repeated name. -/
  | duplicate
  /-- A value of a wrong sort on the side of the host. -/
  | hostSort
  /-- A value that the host refuses. -/
  | hostValue
  /-- A division by zero. -/
  | zeroDivision
  /-- A number beyond the range of doubles. -/
  | overflow
deriving DecidableEq, Repr

/-- The kind of an error. -/
def kind : Error → Kind
  | unterminatedString _ => .lexical
  | emptyInput | endOfInput | nothingToQuote _ | unmatchedOpen _ | unmatchedClose _
  | unknownToken _ _ | trailingToken _ _ => .grammar
  | literalTooLong _ | integerTooLong | hostFailure _ => .hostValue
  | operandCount _ | argumentCount _ _ _ | tooFewArguments _ => .arity
  | parametersNotList _ | parameterNotName _ | bindingsNotList _ | malformedBinding _
  | notList _ _ | notCode _ | nameNotText _ | notNumber _ _ => .sort
  | firstOfEmpty => .emptyList
  | notCallable _ _ => .notCallable
  | duplicateName _ => .duplicate
  | arithmetic .divisionByZero | arithmetic .realDivisionByZero => .zeroDivision
  | arithmetic .integerTooLarge | arithmetic .quotientTooLarge => .overflow
  | notFlattenable _ | unhashable | surplusArguments _ _ _ | missingArguments _ _
  | hostMismatch _ => .hostSort

/-- A count of arguments in words. -/
def countPhrase (count : Nat) : String :=
  toString count ++ " positional argument" ++ if count = 1 then "" else "s"

/-- The names of missing arguments in words. -/
def missingPhrase (names : List String) : String :=
  match names.map Text.quoted with
  | [] => ""
  | [name] => name
  | [first, second] => first ++ " and " ++ second
  | quotedNames => Text.joined ", " quotedNames.dropLast ++ ", and " ++ quotedNames.getLastD ""

/-- The wording of a fault of arithmetic. -/
def faultMessage : Number.Fault → String
  | .divisionByZero => "division by zero"
  | .realDivisionByZero => "float division by zero"
  | .integerTooLarge => "int too large to convert to float"
  | .quotientTooLarge => "integer division result too large for a float"

/-- The wording of an error. -/
def message : Error → String
  | unterminatedString offset => "Unterminated string starting at " ++ toString offset
  | emptyInput => "Empty input"
  | endOfInput => "Unexpected end of input"
  | nothingToQuote pos => "Nothing to quote after ' at " ++ toString pos
  | unmatchedOpen pos => "Unmatched '(' at " ++ toString pos
  | unmatchedClose pos => "Unmatched ')' at " ++ toString pos
  | unknownToken kind text => "Unknown token: " ++ kind ++ " " ++ Text.quoted text
  | trailingToken text pos =>
    "Unexpected trailing token " ++ Text.quoted text ++ " at " ++ toString pos
  | literalTooLong digits =>
    "Exceeds the limit (4300 digits) for integer string conversion: value has " ++
      toString digits ++ " digits; use sys.set_int_max_str_digits() to increase the limit"
  | integerTooLong =>
    "Exceeds the limit (4300 digits) for integer string conversion; " ++
      "use sys.set_int_max_str_digits() to increase the limit"
  | operandCount form => form.countMessage
  | parametersNotList shown => "lambda parameters must be a list, got " ++ shown
  | parameterNotName shown => "lambda parameter must be an identifier, got " ++ shown
  | bindingsNotList shown => "let bindings must be a list, got " ++ shown
  | malformedBinding shown => "Malformed let binding " ++ shown
  | notList form shown => form.name ++ " expects a list, got " ++ shown
  | firstOfEmpty => "first of an empty list"
  | notCode shown => "Cannot evaluate " ++ shown ++ ": not a syntax node"
  | argumentCount expected closure given =>
    "Expected " ++ toString expected ++ " argument(s) for " ++ closure ++ ", got " ++
      toString given
  | notCallable head arguments =>
    "Cannot apply non-function " ++ head ++ " to " ++ arguments
  | duplicateName name => name ++ " is already bound in this frame"
  | nameNotText shown => "Cannot bind " ++ shown ++ ": names must be strings"
  | tooFewArguments primitive =>
    primitive.symbol ++ " expects at least " ++
      (if primitive = .sub then "one argument" else "two arguments")
  | notNumber primitive shown => primitive.symbol ++ " expects numbers, got " ++ shown
  | arithmetic fault => faultMessage fault
  | notFlattenable shown => "Not a syntax node: " ++ shown
  | unhashable => "unhashable type: 'list'"
  | hostFailure message => message
  | surplusArguments name expected given =>
    name ++ "() takes " ++ countPhrase expected ++ " but " ++ toString given ++
      (if given = 1 then " was given" else " were given")
  | missingArguments name missing =>
    name ++ "() missing " ++ toString missing.length ++ " required positional argument" ++
      (if missing.length = 1 then ": " else "s: ") ++ missingPhrase missing
  | hostMismatch message => message

/-- An error that names something by its text. Without a text there is nothing to name, and the
integer that cannot be written is the error. -/
def naming (shown : Option String) (cause : String → Error) : Error :=
  match shown with
  | some text => cause text
  | none => integerTooLong

end Error

end Lisplet
