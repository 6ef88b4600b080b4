import Mathlib.Tactic.Common
import Lisplet.Reader.Stream

/-!
# What the reader accepts

Reading a tree goes on, token by token, from a progress: a completed tree, or constructs that are
still open. `resume` names that continuation, and with it one token is one equation. A source or a
row of tokens is accepted exactly when reading one tree uses up all tokens and the source has no
text that never ends.
-/

namespace Lisplet

/-- Reading on from a progress: a completed tree is the result, open constructs need more tokens. -/
def resume (rest : List Token) : Progress → Reading
  | .inl node => .tree node rest
  | .inr pending => readTree pending rest

/-- Reading one token. -/
lemma readTree_cons (pending : List Construct) (token : Token) (rest : List Token) :
    readTree pending (token :: rest) =
      match consume pending token with
      | .error error => .fault error rest
      | .ok progress => resume rest progress := by
  rw [readTree]
  rcases consume pending token with error | (node | pending') <;> rfl

/-- An atom completes a tree, if it is no literal that is too long. -/
lemma consume_atom (pending : List Construct) (text : String) (pos : Int) :
    consume pending ⟨.atom, text, pos⟩ = (Node.ofAtom text).map (complete · pending) := rfl

/-- A delimited text completes a tree. -/
lemma consume_string (pending : List Construct) (text : String) (pos : Int) :
    consume pending ⟨.string, text, pos⟩ =
      .ok (complete (.string (literalText text)) pending) := rfl

/-- Reading one token that the open constructs have a use for. -/
lemma readTree_cons_of_ok {pending : List Construct} {token : Token} {progress : Progress}
    (rest : List Token) (h : consume pending token = .ok progress) :
    readTree pending (token :: rest) = resume rest progress := by
  rw [readTree_cons, h]

namespace Stream

/-- A stream that has not been looked at yields its only tree exactly when reading one tree takes
all its tokens and nothing is wrong at their end. -/
lemma onlyTree_eq_ok_iff {tokens : List Token} {unterminated : Option Nat} {node : Node} :
    (Stream.onlyTree ⟨[], tokens, unterminated⟩).1 = .ok node ↔
      unterminated = none ∧ readTree [] tokens = .tree node [] := by
  cases tokens with
  | nil => cases unterminated <;> simp [onlyTree, peek, atEnd, readTree]
  | cons token rest =>
    have hpeek : peek ⟨[], token :: rest, unterminated⟩ =
        (.ok (some token), ⟨[token], rest, unterminated⟩) := by
      simp [peek]
    have htokens : Stream.tokens ⟨[token], rest, unterminated⟩ = token :: rest := by
      simp [Stream.tokens]
    rw [onlyTree, hpeek]
    simp only [tree, htokens]
    cases readTree [] (token :: rest) with
    | fault error left => simp
    | cut pending => cases unterminated <;> simp [atEnd]
    | tree found left =>
      cases left with
      | cons next left => simp [peek]
      | nil => cases unterminated <;> simp [peek, atEnd]

end Stream

/-- A row of tokens is accepted exactly when reading one tree takes all of it. -/
theorem parseTokens_eq_ok_iff {tokens : List Token} {node : Node} :
    parseTokens tokens = .ok node ↔ readTree [] tokens = .tree node [] := by
  rw [parseTokens, Stream.ofTokens, Stream.onlyTree_eq_ok_iff]
  simp

/-- A source is accepted exactly when it can be split into tokens to its end, and reading one tree
takes all of them. -/
theorem parse_eq_ok_iff {source : String} {node : Node} :
    parse source = .ok node ↔
      (scan source).unterminated = none ∧ readTree [] (scan source).tokens = .tree node [] := by
  rw [parse, Stream.ofScan, Stream.onlyTree_eq_ok_iff]

end Lisplet
