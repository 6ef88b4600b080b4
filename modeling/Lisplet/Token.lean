import Lisplet.Text

/-!
# Tokens

A token is a piece of a source text with its kind and its position, counted in characters. The
reader also takes tokens from elsewhere, which may have kinds it does not know and positions of
any sign.
-/

namespace Lisplet

/-- The kinds of token. -/
inductive Token.Kind where
  /-- An opening parenthesis. -/
  | opening
  /-- A closing parenthesis. -/
  | closing
  /-- A quote mark before a tree. -/
  | quoteMark
  /-- A text between double quotes. -/
  | string
  /-- A name or a number. -/
  | atom
  /-- A kind that the reader does not know. -/
  | other (name : String)
deriving DecidableEq, Repr

/-- A piece of source text. -/
structure Token where
  /-- The kind of the piece. -/
  kind : Token.Kind
  /-- The piece as it stands in the source, quotes included. -/
  text : String
  /-- The number of characters before it. -/
  pos : Int
deriving DecidableEq, Repr

/-!
## Splitting a source text

The scanner reads one character at a time and keeps the piece it is inside of. Parentheses and
quote marks are tokens by themselves. A double quote opens a text that runs to the next double
quote, whatever stands between them. Every other run of characters is an atom, ended by a blank or
by any of the characters above.

The only failure is a text that never ends. It is found when the source is used up, and the tokens
before that text stand.
-/

/-- Whether a character may stand in an atom. -/
def isAtomChar (c : Char) : Bool :=
  !Text.isBlank c && c != '(' && c != ')' && c != '\'' && c != '"'

/-- The piece that the scanner is inside of, with its characters in reverse. -/
inductive Piece where
  /-- Between tokens. -/
  | between
  /-- In an atom that started at an offset. -/
  | atom (start : Nat) (reversed : List Char)
  /-- In a text that started at an offset. -/
  | string (start : Nat) (reversed : List Char)
deriving DecidableEq, Repr

namespace Piece

/-- The token that ends where the piece ends, if the piece is an atom. -/
def finished : Piece → List Token
  | atom start reversed => [⟨.atom, String.ofList reversed.reverse, start⟩]
  | _ => []

/-- The piece with one more character of an atom, which may be the first one. -/
def extend (pos : Nat) (c : Char) : Piece → Piece
  | atom start reversed => atom start (c :: reversed)
  | _ => atom pos [c]

/-- What a character outside atoms amounts to: a token by itself, the start of a text, or, for a
blank, nothing. -/
def delimit (pos : Nat) (c : Char) : List Token × Piece :=
  if c = '(' then ([⟨.opening, "(", pos⟩], between)
  else if c = ')' then ([⟨.closing, ")", pos⟩], between)
  else if c = '\'' then ([⟨.quoteMark, "'", pos⟩], between)
  else if c = '"' then ([], string pos [c])
  else ([], between)

/-- The tokens that a character completes, and the piece that the scanner is in afterwards. -/
def advance (pos : Nat) (c : Char) : Piece → List Token × Piece
  | string start reversed =>
    if c = '"' then ([⟨.string, String.ofList (c :: reversed).reverse, start⟩], between)
    else ([], string start (c :: reversed))
  | piece =>
    if isAtomChar c then ([], piece.extend pos c)
    else
      let (tokens, next) := delimit pos c
      (piece.finished ++ tokens, next)

end Piece

/-- The scanner after some characters. -/
structure Scanner where
  /-- The number of characters read. -/
  pos : Nat
  /-- The piece being read. -/
  piece : Piece
  /-- The finished tokens. -/
  tokens : Array Token

namespace Scanner

/-- The scanner before the first character. -/
def start : Scanner := ⟨0, .between, #[]⟩

/-- The scanner after one more character. -/
def step (scanner : Scanner) (c : Char) : Scanner :=
  let (finished, piece) := scanner.piece.advance scanner.pos c
  ⟨scanner.pos + 1, piece, finished.foldl Array.push scanner.tokens⟩

end Scanner

/-- What a source text splits into: its tokens up to the first failure, and the offset of the text
that never ends, if there is one. -/
structure Scan where
  /-- The tokens in order. -/
  tokens : List Token
  /-- Where the text starts that never ends. -/
  unterminated : Option Nat
deriving DecidableEq, Repr

/-- What the scanner found when the source is used up. -/
def Scanner.finish (scanner : Scanner) : Scan :=
  match scanner.piece with
  | .string start _ => ⟨scanner.tokens.toList, some start⟩
  | piece => ⟨scanner.tokens.toList ++ piece.finished, none⟩

/-- The tokens of a source text. -/
def scan (source : String) : Scan :=
  (source.toList.foldl Scanner.step Scanner.start).finish

end Lisplet
