import Lisplet.Reader.Tree

/-!
# Token streams

A stream hands out the tokens of a source one at a time and can look one token ahead. A text that
never ends is reported by the first read that comes to it, and after that the stream is at its
end. Reading a tree takes exactly the tokens of that tree: what comes after it is not looked at, and
so cannot fail.
-/

namespace Lisplet

/-- A stream of tokens. -/
structure Stream where
  /-- The tokens that were looked at but not taken. -/
  buffer : List Token
  /-- The tokens that were not looked at. -/
  unread : List Token
  /-- The failure at the end of the tokens, until it is reported. -/
  unterminated : Option Nat
deriving DecidableEq, Repr

namespace Stream

/-- The stream of a scanned source. -/
def ofScan (scan : Scan) : Stream :=
  ⟨[], scan.tokens, scan.unterminated⟩

/-- The stream of given tokens. -/
def ofTokens (tokens : List Token) : Stream :=
  ⟨[], tokens, none⟩

/-- The tokens that the stream still holds. -/
def tokens (stream : Stream) : List Token :=
  stream.buffer ++ stream.unread

/-- What the end of the tokens yields: the failure of the source once, otherwise a given
result. -/
def atEnd {α : Type} (stream : Stream) (result : Except Error α) : Except Error α × Stream :=
  match stream.unterminated with
  | some offset => (.error (.unterminatedString offset), ⟨[], [], none⟩)
  | none => (result, ⟨[], [], none⟩)

/-- Takes the next token, `none` at the end. -/
def advance (stream : Stream) : Except Error (Option Token) × Stream :=
  match stream.buffer, stream.unread with
  | token :: rest, unread => (.ok (some token), ⟨rest, unread, stream.unterminated⟩)
  | [], token :: unread => (.ok (some token), ⟨[], unread, stream.unterminated⟩)
  | [], [] => stream.atEnd (.ok none)

/-- Looks at the next token, `none` at the end. -/
def peek (stream : Stream) : Except Error (Option Token) × Stream :=
  match stream.buffer, stream.unread with
  | token :: _, _ => (.ok (some token), stream)
  | [], token :: unread => (.ok (some token), ⟨[token], unread, stream.unterminated⟩)
  | [], [] => stream.atEnd (.ok none)

/-- Takes the tokens of one tree. -/
def tree (stream : Stream) : Except Error Node × Stream :=
  match readTree [] stream.tokens with
  | .tree node rest => (.ok node, ⟨[], rest, stream.unterminated⟩)
  | .fault error rest => (.error error, ⟨[], rest, stream.unterminated⟩)
  | .cut pending => stream.atEnd (.error (incomplete pending))

/-- Why a token may not follow a complete tree. -/
def trailing (token : Token) : Error :=
  match token.kind with
  | .closing => .unmatchedClose token.pos
  | _ => .trailingToken token.text token.pos

/-- Takes the tokens of one tree and looks that nothing follows it. A token that follows is left
in the stream. -/
def onlyTree (stream : Stream) : Except Error Node × Stream :=
  match stream.peek with
  | (.error error, stream) => (.error error, stream)
  | (.ok none, stream) => (.error .emptyInput, stream)
  | (.ok (some _), stream) =>
    match stream.tree with
    | (.error error, stream) => (.error error, stream)
    | (.ok node, stream) =>
      match stream.peek with
      | (.error error, stream) => (.error error, stream)
      | (.ok (some token), stream) => (.error (trailing token), stream)
      | (.ok none, stream) => (.ok node, stream)

end Stream

/-- The one tree that a list of tokens spells. -/
def parseTokens (tokens : List Token) : Except Error Node :=
  (Stream.ofTokens tokens).onlyTree.1

/-- The one tree that a source text spells. -/
def parse (source : String) : Except Error Node :=
  (Stream.ofScan (scan source)).onlyTree.1

end Lisplet
