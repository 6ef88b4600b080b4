import Lisplet.Proofs.Reader.Faults

/-!
# Watching a stream

A stream is asked for tokens and trees in any order, and goes on after requests that fail. What it
has handed out is not part of its state, so it is watched by a tap, which writes down every token
that is taken. The tap reads trees the way they are read at the lowest level: it takes tokens one at
a time, and wherever a construct is open it looks at a token before taking it.

A stream keeps the tokens that were looked at but not taken. There is never more than one of them,
which is shown first (`Stream.IsShort`), and all that follows is about streams of that kind.

Watching changes nothing, and what was taken, together with what the stream still holds, is the same
before and after every request. Both are in `Tap.Mirrors`, which is shown for the single reads and
handed on by sequences.
-/

namespace Lisplet

/-! ## Requests -/

/-- What a stream can be asked for. -/
inductive Request where
  /-- To show the next token. -/
  | peek
  /-- To hand out the next token. -/
  | advance
  /-- To hand out the tokens of a tree. -/
  | tree
  /-- To hand out the tokens of a tree that nothing follows. -/
  | onlyTree
deriving DecidableEq, Repr

/-- What a stream answers. -/
inductive Answer where
  /-- A token, or `none` at the end. -/
  | token (result : Except Error (Option Token))
  /-- A tree. -/
  | tree (result : Except Error Node)

/-- The offset of the text that never ends, if a result reports one. -/
def reported? {α : Type} : Except Error α → Option Nat
  | .error (.unterminatedString offset) => some offset
  | _ => none

/-- The offset of the text that never ends, if an answer reports one. -/
def Answer.failure? : Answer → Option Nat
  | .token result => reported? result
  | .tree result => reported? result

/-- The answer of a stream that is at its end and has nothing to report. -/
def Request.atEnd : Request → Answer
  | peek | advance => .token (.ok none)
  | tree => .tree (.error .endOfInput)
  | onlyTree => .tree (.error .emptyInput)

/-- The answer to one request. -/
def Stream.serve : Request → Stream → Answer × Stream
  | .peek, stream => (.token stream.peek.1, stream.peek.2)
  | .advance, stream => (.token stream.advance.1, stream.advance.2)
  | .tree, stream => (.tree stream.tree.1, stream.tree.2)
  | .onlyTree, stream => (.tree stream.onlyTree.1, stream.onlyTree.2)

/-- The answers to a row of requests, and the state that is left. -/
def respond {σ : Type} (serve : Request → σ → Answer × σ) : List Request → σ → List Answer × σ
  | [], state => ([], state)
  | request :: later, state =>
    ((serve request state).1 :: (respond serve later (serve request state).2).1,
      (respond serve later (serve request state).2).2)

/-- Goes on with the value of a read, unless the read failed. -/
def follow {σ α β : Type} (reply : Except Error α × σ) (next : α → σ → Except Error β × σ) :
    Except Error β × σ :=
  match reply with
  | (.error error, state) => (.error error, state)
  | (.ok value, state) => next value state

/-- Reads a tree that nothing follows, given how tokens are looked at and trees are read. -/
def readOnly {σ : Type} (peek : σ → Except Error (Option Token) × σ)
    (tree : σ → Except Error Node × σ) (state : σ) : Except Error Node × σ :=
  follow (peek state) fun token state =>
    match token with
    | none => (.error .emptyInput, state)
    | some _ =>
      follow (tree state) fun node state =>
        follow (peek state) fun token state =>
          match token with
          | none => (.ok node, state)
          | some token => (.error (Stream.trailing token), state)

/-! ## Single reads -/

namespace Stream

variable {stream : Stream} {token : Token} {rest : List Token}

@[simp]
lemma tokens_of_none (tokens : List Token) (unterminated : Option Nat) :
    Stream.tokens ⟨[], tokens, unterminated⟩ = tokens := rfl

@[simp]
lemma tokens_of_some (token : Token) (rest : List Token) (unterminated : Option Nat) :
    Stream.tokens ⟨[token], rest, unterminated⟩ = token :: rest := rfl

@[simp]
lemma atEnd_snd {α : Type} (stream : Stream) (result : Except Error α) :
    (stream.atEnd result).2 = ⟨[], [], none⟩ := by
  unfold atEnd
  split <;> rfl

/-- At most one token was looked at and not taken. -/
def IsShort (stream : Stream) : Prop :=
  stream.buffer.length ≤ 1

/-- A short stream has nothing to show, or shows its first token. -/
lemma IsShort.cases (h : stream.IsShort) (htokens : stream.tokens = token :: rest) :
    stream = ⟨[], token :: rest, stream.unterminated⟩ ∨
      stream = ⟨[token], rest, stream.unterminated⟩ := by
  obtain ⟨buffer, unread, unterminated⟩ := stream
  match buffer, h with
  | [], _ =>
    obtain rfl : unread = token :: rest := htokens
    exact .inl rfl
  | [looked], _ =>
    obtain ⟨rfl, rfl⟩ : looked = token ∧ unread = rest := List.cons_eq_cons.1 htokens
    exact .inr rfl

/-- Looking at the next token of a short stream leaves it to be looked at again. -/
lemma peek_of_cons (h : stream.IsShort) (htokens : stream.tokens = token :: rest) :
    stream.peek = (.ok (some token), ⟨[token], rest, stream.unterminated⟩) := by
  rcases h.cases htokens with heq | heq <;> rw [heq] <;> rfl

/-- Looking at the end of a stream comes to its end. -/
lemma peek_of_nil (h : stream.tokens = []) : stream.peek = stream.atEnd (.ok none) := by
  obtain ⟨hbuffer, hunread⟩ := List.append_eq_nil_iff.1 h
  simp only [peek, hbuffer, hunread]

/-- Taking the next token of a short stream leaves nothing to be looked at again. -/
lemma advance_of_cons (h : stream.IsShort) (htokens : stream.tokens = token :: rest) :
    stream.advance = (.ok (some token), ⟨[], rest, stream.unterminated⟩) := by
  rcases h.cases htokens with heq | heq <;> rw [heq] <;> rfl

/-- Taking a token at the end of a stream comes to its end. -/
lemma advance_of_nil (h : stream.tokens = []) : stream.advance = stream.atEnd (.ok none) := by
  obtain ⟨hbuffer, hunread⟩ := List.append_eq_nil_iff.1 h
  simp only [advance, hbuffer, hunread]

/-- What is left of a stream when the reading of a tree ends. -/
def leave (stream : Stream) : Reading → Except Error Node × Stream
  | .tree node rest => (.ok node, ⟨[], rest, stream.unterminated⟩)
  | .fault error rest => (.error error, ⟨[], rest, stream.unterminated⟩)
  | .cut pending => stream.atEnd (.error (incomplete pending))

/-- A stream takes the tokens that the reading of a tree takes. -/
lemma tree_eq_leave (stream : Stream) : stream.tree = stream.leave (readTree [] stream.tokens) := by
  unfold tree
  cases readTree [] stream.tokens <;> rfl

/-- A tree that nothing follows is read by looking, reading and looking again. -/
lemma onlyTree_eq_readOnly (stream : Stream) : stream.onlyTree = readOnly peek tree stream := by
  unfold onlyTree readOnly follow
  rcases stream.peek with ⟨error | _ | token, looked⟩
  · rfl
  · rfl
  · dsimp only
    rcases looked.tree with ⟨error | node, after⟩
    · rfl
    · dsimp only
      rcases after.peek with ⟨error | _ | token, last⟩ <;> rfl

/-! ### Short streams stay short -/

/-- Looking ahead puts a token aside only if none is there. -/
lemma IsShort.peek (h : stream.IsShort) : stream.peek.2.IsShort := by
  unfold Stream.peek
  split
  · exact h
  · exact Nat.le_refl 1
  · rw [atEnd_snd]
    exact Nat.zero_le 1

/-- Taking a token puts none aside. -/
lemma IsShort.advance (h : stream.IsShort) : stream.advance.2.IsShort := by
  cases htokens : stream.tokens with
  | nil =>
    rw [advance_of_nil htokens, atEnd_snd]
    exact Nat.zero_le 1
  | cons token rest =>
    rw [advance_of_cons h htokens]
    exact Nat.zero_le 1

/-- Taking the tokens of a tree leaves none aside. -/
lemma isShort_tree (stream : Stream) : stream.tree.2.IsShort := by
  rw [tree_eq_leave]
  cases readTree [] stream.tokens with
  | tree node rest => exact Nat.zero_le 1
  | fault error rest => exact Nat.zero_le 1
  | cut pending =>
    rw [leave, atEnd_snd]
    exact Nat.zero_le 1

/-- Reads that keep a stream short can be put in sequence. -/
lemma isShort_follow {α β : Type} {reply : Except Error α × Stream} (h : reply.2.IsShort)
    {next : α → Stream → Except Error β × Stream}
    (hnext : ∀ value (stream : Stream), stream.IsShort → (next value stream).2.IsShort) :
    (follow reply next).2.IsShort := by
  obtain ⟨error | value, after⟩ := reply
  · exact h
  · exact hnext value after h

/-- Reading a tree that nothing follows keeps a stream short. -/
lemma IsShort.onlyTree (h : stream.IsShort) : stream.onlyTree.2.IsShort := by
  rw [onlyTree_eq_readOnly]
  refine isShort_follow h.peek fun token looked hlooked => ?_
  cases token with
  | none => exact hlooked
  | some token =>
    refine isShort_follow looked.isShort_tree fun node after hafter => ?_
    refine isShort_follow hafter.peek fun token last hlast => ?_
    cases token <;> exact hlast

/-- Every request keeps a stream short. -/
lemma IsShort.serve (h : stream.IsShort) (request : Request) :
    (stream.serve request).2.IsShort := by
  cases request with
  | peek => exact h.peek
  | advance => exact h.advance
  | tree => exact stream.isShort_tree
  | onlyTree => exact h.onlyTree

/-- Every row of requests keeps a stream short. -/
lemma IsShort.respond (h : stream.IsShort) (requests : List Request) :
    (respond Stream.serve requests stream).2.IsShort := by
  induction requests generalizing stream with
  | nil => exact h
  | cons request later ih => exact ih (h.serve request)

end Stream

/-! ## Taps -/

/-- A stream and the tokens that were taken from it. -/
structure Tap where
  /-- The stream that is watched. -/
  stream : Stream
  /-- The tokens that it has handed out, in order. -/
  taken : List Token

/-- The token that is handed out with a result. -/
def handedOut : Except Error (Option Token) → List Token
  | .ok (some token) => [token]
  | _ => []

namespace Tap

/-- Looks at the next token. Nothing is taken. -/
def peek (tap : Tap) : Except Error (Option Token) × Tap :=
  (tap.stream.peek.1, ⟨tap.stream.peek.2, tap.taken⟩)

/-- Takes the next token. -/
def advance (tap : Tap) : Except Error (Option Token) × Tap :=
  (tap.stream.advance.1, ⟨tap.stream.advance.2, tap.taken ++ handedOut tap.stream.advance.1⟩)

/-- Takes the next token of a tree. Inside a construct it is looked at first. -/
def next (tap : Tap) : List Construct → Except Error (Option Token) × Tap
  | [] => tap.advance
  | _ :: _ =>
    match tap.peek with
    | (.ok (some _), tap) => tap.advance
    | reply => reply

section

variable {tap : Tap} {token : Token} {rest : List Token}

/-- A token that is taken is written down. -/
lemma advance_of_cons (hshort : tap.stream.IsShort) (h : tap.stream.tokens = token :: rest) :
    tap.advance =
      (.ok (some token), ⟨⟨[], rest, tap.stream.unterminated⟩, tap.taken ++ [token]⟩) := by
  rw [advance, Stream.advance_of_cons hshort h, handedOut]

/-- Looking at a token before taking it makes no difference. -/
lemma next_of_cons (hshort : tap.stream.IsShort) (h : tap.stream.tokens = token :: rest)
    (pending : List Construct) :
    tap.next pending =
      (.ok (some token), ⟨⟨[], rest, tap.stream.unterminated⟩, tap.taken ++ [token]⟩) := by
  cases pending with
  | nil => exact advance_of_cons hshort h
  | cons construct outer =>
    rw [next, peek, Stream.peek_of_cons hshort h]
    exact advance_of_cons (Nat.le_refl 1) rfl

/-- At the end of a stream there is no next token. -/
lemma next_of_nil (h : tap.stream.tokens = []) (pending : List Construct) :
    tap.next pending = ((tap.stream.atEnd (.ok none)).1, ⟨⟨[], [], none⟩, tap.taken⟩) := by
  cases pending with
  | nil =>
    rw [next, advance, Stream.advance_of_nil h, Stream.atEnd]
    cases tap.stream.unterminated <;> simp [handedOut]
  | cons construct outer =>
    rw [next, peek, Stream.peek_of_nil h, Stream.atEnd]
    cases tap.stream.unterminated <;> rfl

/-- A token that is handed out is no longer in the stream. -/
lemma length_lt_of_advance {result : Except Error (Option Token)} {after : Tap}
    (h : tap.advance = (result, after)) (hresult : result = .ok (some token)) :
    after.stream.tokens.length < tap.stream.tokens.length := by
  obtain ⟨rfl, rfl⟩ := Prod.mk.inj h
  obtain ⟨⟨buffer, unread, unterminated⟩, taken⟩ := tap
  match buffer, unread with
  | _ :: looked, unread => exact Nat.lt_succ_self (looked ++ unread).length
  | [], _ :: unread => exact Nat.lt_succ_self unread.length
  | [], [] => cases unterminated <;> cases hresult

/-- Looking ahead brings no tokens. -/
lemma length_peek_le (tap : Tap) :
    tap.peek.2.stream.tokens.length ≤ tap.stream.tokens.length := by
  obtain ⟨⟨buffer, unread, unterminated⟩, taken⟩ := tap
  match buffer, unread with
  | _ :: looked, unread => exact Nat.le_refl _
  | [], _ :: unread => exact Nat.le_refl _
  | [], [] => cases unterminated <;> exact Nat.le_refl 0

/-- A token that is taken is no longer in the stream. -/
lemma length_lt_of_next {after : Tap} {pending : List Construct}
    (h : tap.next pending = (.ok (some token), after)) :
    after.stream.tokens.length < tap.stream.tokens.length := by
  cases pending with
  | nil => exact length_lt_of_advance h rfl
  | cons construct outer =>
    rw [next] at h
    split at h
    · rename_i found looked hlooked
      have hle := tap.length_peek_le
      rw [hlooked] at hle
      exact Nat.lt_of_lt_of_le (length_lt_of_advance h rfl) hle
    · rename_i hlooked
      exact absurd h (hlooked token after)

end

/-- Takes the tokens of a tree one by one, given the constructs that are open already. -/
def descend (tap : Tap) (pending : List Construct) : Except Error Node × Tap :=
  match _h : tap.next pending with
  | (.error error, after) => (.error error, after)
  | (.ok none, after) => (.error (incomplete pending), after)
  | (.ok (some token), after) =>
    match consume pending token with
    | .error error => (.error error, after)
    | .ok (.inl node) => (.ok node, after)
    | .ok (.inr inner) => after.descend inner
termination_by tap.stream.tokens.length
decreasing_by exact length_lt_of_next _h

/-- Takes the tokens of one tree. -/
def tree (tap : Tap) : Except Error Node × Tap :=
  tap.descend []

/-- Takes the tokens of one tree and looks that nothing follows it. -/
def onlyTree : Tap → Except Error Node × Tap :=
  readOnly peek tree

/-- The answer to one request. -/
def serve : Request → Tap → Answer × Tap
  | .peek, tap => (.token tap.peek.1, tap.peek.2)
  | .advance, tap => (.token tap.advance.1, tap.advance.2)
  | .tree, tap => (.tree tap.tree.1, tap.tree.2)
  | .onlyTree, tap => (.tree tap.onlyTree.1, tap.onlyTree.2)

/-! ## Watching changes nothing -/

/-- The reply of a tap is that of its stream, and no token is lost or repeated. -/
structure Mirrors {α : Type} (tap : Tap) (reply : α × Tap) (plain : α × Stream) : Prop where
  result : reply.1 = plain.1
  stream : reply.2.stream = plain.2
  conserved : reply.2.taken ++ reply.2.stream.tokens = tap.taken ++ tap.stream.tokens

/-- Looking ahead is mirrored. -/
lemma mirrors_peek {tap : Tap} (hshort : tap.stream.IsShort) :
    tap.Mirrors tap.peek tap.stream.peek := by
  refine ⟨rfl, rfl, ?_⟩
  cases htokens : tap.stream.tokens with
  | nil => simp [peek, Stream.peek_of_nil htokens]
  | cons token rest => simp [peek, Stream.peek_of_cons hshort htokens]

/-- Taking a token is mirrored. -/
lemma mirrors_advance {tap : Tap} (hshort : tap.stream.IsShort) :
    tap.Mirrors tap.advance tap.stream.advance := by
  refine ⟨rfl, rfl, ?_⟩
  cases htokens : tap.stream.tokens with
  | nil =>
    rw [advance, Stream.advance_of_nil htokens, Stream.atEnd]
    cases tap.stream.unterminated <;> simp [handedOut]
  | cons token rest => simp [advance_of_cons hshort htokens]

/-- At the end of a stream, what is open is incomplete. -/
lemma descend_of_nil {tap : Tap} (h : tap.stream.tokens = []) (pending : List Construct) :
    tap.descend pending =
      ((tap.stream.atEnd (.error (incomplete pending))).1, ⟨⟨[], [], none⟩, tap.taken⟩) := by
  have hnext := next_of_nil h pending
  rw [descend]
  split
  · rename_i hfound
    rw [hfound, Stream.atEnd] at hnext
    rw [Stream.atEnd]
    cases hfailure : tap.stream.unterminated <;> simp_all
  · rename_i hfound
    rw [hfound, Stream.atEnd] at hnext
    rw [Stream.atEnd]
    cases hfailure : tap.stream.unterminated <;> simp_all
  · rename_i hfound
    have hlt := length_lt_of_next hfound
    simp [h] at hlt

/-- Taking the tokens of a tree goes from token to token. -/
lemma descend_of_cons {tap : Tap} {token : Token} {rest : List Token}
    (hshort : tap.stream.IsShort) (h : tap.stream.tokens = token :: rest)
    (pending : List Construct) :
    tap.descend pending =
      match consume pending token with
      | .error error =>
        (.error error, ⟨⟨[], rest, tap.stream.unterminated⟩, tap.taken ++ [token]⟩)
      | .ok (.inl node) =>
        (.ok node, ⟨⟨[], rest, tap.stream.unterminated⟩, tap.taken ++ [token]⟩)
      | .ok (.inr inner) =>
        Tap.descend ⟨⟨[], rest, tap.stream.unterminated⟩, tap.taken ++ [token]⟩ inner := by
  have hnext := next_of_cons hshort h pending
  rw [descend]
  split
  · simp_all
  · simp_all
  · rename_i hfound
    cases hnext.symm.trans hfound
    rfl

/-- Taking the tokens of a tree one by one comes to what reading them at once comes to. -/
lemma mirrors_descend {tap : Tap} (hshort : tap.stream.IsShort) (pending : List Construct) :
    tap.Mirrors (tap.descend pending) (tap.stream.leave (readTree pending tap.stream.tokens)) := by
  induction htokens : tap.stream.tokens generalizing tap pending with
  | nil =>
    rw [descend_of_nil htokens]
    refine ⟨rfl, ?_, ?_⟩
    · exact (Stream.atEnd_snd _ _).symm
    · rw [htokens]
      rfl
  | cons token rest ih =>
    rw [descend_of_cons hshort htokens, readTree]
    cases consume pending token with
    | error error => exact ⟨rfl, rfl, by simp [htokens]⟩
    | ok progress =>
      cases progress with
      | inl node => exact ⟨rfl, rfl, by simp [htokens]⟩
      | inr inner =>
        obtain ⟨hresult, hstream, hconserved⟩ :=
          @ih ⟨⟨[], rest, tap.stream.unterminated⟩, tap.taken ++ [token]⟩ (Nat.zero_le 1) inner rfl
        refine ⟨hresult, hstream, hconserved.trans ?_⟩
        simp [htokens]

/-- Taking the tokens of a tree is mirrored. -/
lemma mirrors_tree {tap : Tap} (hshort : tap.stream.IsShort) :
    tap.Mirrors tap.tree tap.stream.tree := by
  rw [Stream.tree_eq_leave]
  exact mirrors_descend hshort []

/-- Reads that a tap mirrors can be put in sequence. -/
lemma Mirrors.follow {α β : Type} {tap : Tap} {reply : Except Error α × Tap}
    {plain : Except Error α × Stream} (h : tap.Mirrors reply plain) (hshort : plain.2.IsShort)
    {next : α → Tap → Except Error β × Tap} {next' : α → Stream → Except Error β × Stream}
    (hnext : ∀ value (tap : Tap), tap.stream.IsShort →
      tap.Mirrors (next value tap) (next' value tap.stream)) :
    tap.Mirrors (Lisplet.follow reply next) (Lisplet.follow plain next') := by
  obtain ⟨result, after⟩ := reply
  obtain ⟨result', stream⟩ := plain
  obtain rfl : result = result' := h.result
  obtain rfl : after.stream = stream := h.stream
  cases result with
  | error error => exact ⟨rfl, rfl, h.conserved⟩
  | ok value =>
    obtain ⟨hresult, hstream, hconserved⟩ := hnext value after hshort
    exact ⟨hresult, hstream, hconserved.trans h.conserved⟩

/-- A reply that takes nothing is mirrored. -/
lemma mirrors_refl {α : Type} (tap : Tap) (result : α) :
    tap.Mirrors (result, tap) (result, tap.stream) :=
  ⟨rfl, rfl, rfl⟩

/-- Taking the tokens of a tree that nothing follows is mirrored. -/
lemma mirrors_onlyTree {tap : Tap} (hshort : tap.stream.IsShort) :
    tap.Mirrors tap.onlyTree tap.stream.onlyTree := by
  rw [Stream.onlyTree_eq_readOnly]
  refine (mirrors_peek hshort).follow hshort.peek fun token looked hlooked => ?_
  cases token with
  | none => exact looked.mirrors_refl _
  | some token =>
    refine (mirrors_tree hlooked).follow looked.stream.isShort_tree fun node after hafter => ?_
    refine (mirrors_peek hafter).follow hafter.peek fun token last _ => ?_
    cases token <;> exact last.mirrors_refl _

/-- A tap answers a request as its stream does, and conserves the tokens. -/
lemma mirrors_serve {tap : Tap} (hshort : tap.stream.IsShort) (request : Request) :
    tap.Mirrors (serve request tap) (tap.stream.serve request) := by
  cases request with
  | peek => exact ⟨rfl, rfl, (mirrors_peek hshort).conserved⟩
  | advance => exact ⟨rfl, rfl, (mirrors_advance hshort).conserved⟩
  | tree =>
    obtain ⟨hresult, hstream, hconserved⟩ := mirrors_tree hshort
    exact ⟨congrArg Answer.tree hresult, hstream, hconserved⟩
  | onlyTree =>
    obtain ⟨hresult, hstream, hconserved⟩ := mirrors_onlyTree hshort
    exact ⟨congrArg Answer.tree hresult, hstream, hconserved⟩

/-- A tap answers a row of requests as its stream does, and conserves the tokens. -/
lemma mirrors_respond {tap : Tap} (hshort : tap.stream.IsShort) (requests : List Request) :
    tap.Mirrors (respond serve requests tap) (respond Stream.serve requests tap.stream) := by
  induction requests generalizing tap with
  | nil => exact tap.mirrors_refl []
  | cons request later ih =>
    obtain ⟨hresult, hstream, hconserved⟩ := mirrors_serve hshort request
    have hshort' : (serve request tap).2.stream.IsShort := by
      rw [hstream]
      exact hshort.serve request
    obtain ⟨hresults, hlast, hall⟩ := ih hshort'
    rw [hstream] at hresults hlast
    refine ⟨congrArg₂ List.cons hresult hresults, hlast, hall.trans hconserved⟩

end Tap

end Lisplet
