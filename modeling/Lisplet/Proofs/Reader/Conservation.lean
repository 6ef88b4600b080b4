import Lisplet.Proofs.Reader.Taps

/-!
# Streams neither lose nor repeat tokens

Whatever a stream is asked for, its tokens are conserved, since a tap on it mirrors every request.
The failure of a source is conserved in the same way: it is still to come, or it has been reported
by exactly one request, after which the stream is at its end (`Stream.Settles`).

A tree is read exactly when a beginning of the tokens spells it, and no two beginnings do. So the
tokens of the tree are taken and nothing behind them is touched, be it tokens or a text that never
ends. Looking ahead moves a token within the stream, and answers do not depend on where it is.
-/

namespace Lisplet

/-! ## The failure of a source -/

namespace Stream

/-- A failure that is reported was still to come, and is not to come again: after it the stream is
at its end. -/
structure Settles (before : Stream) (reported : Option Nat) (after : Stream) : Prop where
  conserved : reported.toList ++ after.unterminated.toList = before.unterminated.toList
  ended : reported.isSome → after = ⟨[], [], none⟩

/-- A stream without a failure to come gets none. -/
lemma Settles.unterminated_eq_none {before after : Stream} {reported : Option Nat}
    (h : before.Settles reported after) (hnone : before.unterminated = none) :
    after.unterminated = none := by
  have hconserved := h.conserved
  rw [hnone, Option.toList_none, List.append_eq_nil_iff] at hconserved
  exact Option.toList_eq_nil_iff.1 hconserved.2

/-- A read that reports nothing leaves the failure to come. -/
lemma settles_none {before after : Stream} (h : after.unterminated = before.unterminated) :
    before.Settles none after :=
  ⟨by rw [h]; rfl, nofun⟩

/-- The end of a stream reports the failure, and is the end. -/
lemma settles_atEnd {α : Type} (stream : Stream) {result : Except Error α}
    (h : reported? result = none) :
    stream.Settles (reported? (stream.atEnd result).1) (stream.atEnd result).2 := by
  refine ⟨?_, fun _ => stream.atEnd_snd result⟩
  rw [atEnd]
  cases stream.unterminated with
  | none => simp [h]
  | some offset => rfl

/-- Looking ahead settles the failure. -/
lemma settles_peek (stream : Stream) : stream.Settles (reported? stream.peek.1) stream.peek.2 := by
  unfold peek
  split
  · exact settles_none rfl
  · exact settles_none rfl
  · exact stream.settles_atEnd rfl

/-- Taking a token settles the failure. -/
lemma settles_advance (stream : Stream) :
    stream.Settles (reported? stream.advance.1) stream.advance.2 := by
  unfold advance
  split
  · exact settles_none rfl
  · exact settles_none rfl
  · exact stream.settles_atEnd rfl

/-- An error at a token is not the failure of the source. -/
lemma reported?_of_fault {pending : List Construct} {tokens rest : List Token} {error : Error}
    (h : readTree pending tokens = .fault error rest) :
    reported? (.error error : Except Error Node) = none := by
  obtain ⟨used, token, middle, -, -, hconsume⟩ := exists_cut_of_fault h
  rcases consume_eq_error hconsume with ⟨-, hatom⟩ | ⟨-, rfl⟩ | ⟨name, -, rfl⟩
  · obtain ⟨digits, rfl⟩ := exists_literalTooLong_of_ofAtom hatom
    rfl
  · rfl
  · rfl

/-- Taking the tokens of a tree settles the failure. -/
lemma settles_tree (stream : Stream) : stream.Settles (reported? stream.tree.1) stream.tree.2 := by
  rw [tree_eq_leave]
  cases hread : readTree [] stream.tokens with
  | tree node rest => exact settles_none rfl
  | fault error rest =>
    rw [leave, reported?_of_fault hread]
    exact settles_none rfl
  | cut pending =>
    refine stream.settles_atEnd ?_
    rcases pending with _ | ⟨_ | _, _⟩ <;> rfl

/-- Reads in sequence report the failure of the source at most once. -/
lemma Settles.follow {α β : Type} {stream : Stream} {reply : Except Error α × Stream}
    (h : stream.Settles (reported? reply.1) reply.2)
    {next : α → Stream → Except Error β × Stream}
    (hnext : ∀ value (stream : Stream),
      stream.Settles (reported? (next value stream).1) (next value stream).2) :
    stream.Settles (reported? (Lisplet.follow reply next).1) (Lisplet.follow reply next).2 := by
  obtain ⟨result, after⟩ := reply
  cases result with
  | error error =>
    have hsame : reported? (.error error : Except Error β) =
        reported? (.error error : Except Error α) := by
      cases error <;> rfl
    rw [Lisplet.follow, hsame]
    exact h
  | ok value =>
    obtain ⟨hconserved, hended⟩ := hnext value after
    exact ⟨hconserved.trans h.conserved, hended⟩

/-- Taking the tokens of a tree that nothing follows settles the failure. -/
lemma settles_onlyTree (stream : Stream) :
    stream.Settles (reported? stream.onlyTree.1) stream.onlyTree.2 := by
  rw [onlyTree_eq_readOnly]
  refine stream.settles_peek.follow fun token looked => ?_
  cases token with
  | none => exact settles_none rfl
  | some token =>
    refine looked.settles_tree.follow fun node after => ?_
    refine after.settles_peek.follow fun token last => ?_
    cases token with
    | none => exact settles_none rfl
    | some token =>
      have hnone : reported? (.error (trailing token) : Except Error Node) = none := by
        unfold trailing
        split <;> rfl
      rw [hnone]
      exact settles_none rfl

/-- Every request settles the failure. -/
lemma settles_serve (stream : Stream) (request : Request) :
    stream.Settles (stream.serve request).1.failure? (stream.serve request).2 := by
  cases request with
  | peek => exact stream.settles_peek
  | advance => exact stream.settles_advance
  | tree => exact stream.settles_tree
  | onlyTree => exact stream.settles_onlyTree

/-- The failures that were reported, and the one that is still to come, are together the failure of
the source. -/
lemma failures_respond (stream : Stream) (requests : List Request) :
    (respond serve requests stream).1.filterMap Answer.failure? ++
      (respond serve requests stream).2.unterminated.toList = stream.unterminated.toList := by
  induction requests generalizing stream with
  | nil => rfl
  | cons request later ih =>
    have hlater := ih (stream.serve request).2
    have hconserved := (stream.settles_serve request).conserved
    rw [← hlater] at hconserved
    rw [← hconserved, ← List.append_assoc, respond, List.filterMap_cons]
    cases (stream.serve request).1.failure? <;> rfl

/-- At its end, a stream answers all requests with the end. -/
lemma respond_ended (requests : List Request) :
    respond serve requests ⟨[], [], none⟩ = (requests.map Request.atEnd, ⟨[], [], none⟩) := by
  induction requests with
  | nil => rfl
  | cons request later ih =>
    have hserve : serve request ⟨[], [], none⟩ = (request.atEnd, ⟨[], [], none⟩) := by
      cases request <;> rfl
    rw [respond, hserve, ih]
    rfl

/-- A stream that has reported the failure of its source is at its end. -/
lemma ended_of_failure {stream : Stream} {requests : List Request}
    (h : (respond serve requests stream).1.filterMap Answer.failure? ≠ []) :
    (respond serve requests stream).2 = ⟨[], [], none⟩ := by
  induction requests generalizing stream with
  | nil => exact absurd rfl h
  | cons request later ih =>
    cases hfailure : (stream.serve request).1.failure? with
    | some offset =>
      have hended := (stream.settles_serve request).ended (by rw [hfailure]; rfl)
      rw [respond, hended, respond_ended]
    | none =>
      rw [respond, List.filterMap_cons, hfailure] at h
      exact ih h

/-! ## Trees -/

/-- A tree that can be read is read, and what follows it is left. -/
lemma tree_eq_of_readTree {stream : Stream} {node : Node} {rest : List Token}
    (h : readTree [] stream.tokens = .tree node rest) :
    stream.tree = (.ok node, ⟨[], rest, stream.unterminated⟩) := by
  rw [tree_eq_leave, h, leave]

/-- A tree is read exactly when some beginning of the tokens spells it. -/
lemma tree_eq_ok_iff {stream : Stream} {node : Node} :
    stream.tree.1 = .ok node ↔
      ∃ used rest, stream.tokens = used ++ rest ∧ Derives used node := by
  constructor
  · intro h
    cases hread : readTree [] stream.tokens with
    | tree found rest =>
      rw [tree_eq_of_readTree hread] at h
      obtain rfl : found = node := Except.ok.inj h
      obtain ⟨used, hused, hderives⟩ := Opens.nil.derives hread
      exact ⟨used, rest, hused, hderives⟩
    | fault error rest =>
      rw [tree_eq_leave, hread] at h
      cases h
    | cut pending =>
      rw [tree_eq_leave, hread, leave, atEnd] at h
      cases hfailure : stream.unterminated <;> rw [hfailure] at h <;> cases h
  · rintro ⟨used, rest, htokens, hderives⟩
    have hread : readTree [] stream.tokens = .tree node rest := by
      rw [htokens]
      exact hderives.readTree_append [] rest
    rw [tree_eq_of_readTree hread]

/-- No two beginnings of a row of tokens spell trees. -/
lemma eq_of_derives {first rest second rest' : List Token} {node node' : Node}
    (h : first ++ rest = second ++ rest') (hfirst : Derives first node)
    (hsecond : Derives second node') : first = second ∧ node = node' := by
  have hread : readTree [] (first ++ rest) = .tree node rest := hfirst.readTree_append [] rest
  have hread' : readTree [] (second ++ rest') = .tree node' rest' :=
    hsecond.readTree_append [] rest'
  rw [h] at hread
  obtain ⟨rfl, rfl⟩ := Reading.tree.inj (hread.symm.trans hread')
  exact ⟨List.append_cancel_right h, rfl⟩

/-! ## Looking ahead -/

/-- Answers depend only on the tokens that a short stream holds and on its failure, not on whether a
token was looked at. -/
lemma serve_congr {first second : Stream} (hfirst : first.IsShort) (hsecond : second.IsShort)
    (htokens : first.tokens = second.tokens) (hfailure : first.unterminated = second.unterminated)
    (request : Request) : first.serve request = second.serve request := by
  have hreads : first.peek = second.peek ∧ first.advance = second.advance := by
    cases hrest : second.tokens with
    | nil =>
      have hfirst := htokens.trans hrest
      rw [peek_of_nil hrest, peek_of_nil hfirst, advance_of_nil hrest, advance_of_nil hfirst]
      simp only [atEnd, hfailure, and_self]
    | cons token rest =>
      have hcons := htokens.trans hrest
      rw [peek_of_cons hsecond hrest, peek_of_cons hfirst hcons, advance_of_cons hsecond hrest,
        advance_of_cons hfirst hcons, hfailure]
      exact ⟨rfl, rfl⟩
  obtain ⟨hpeek, hadvance⟩ := hreads
  cases request with
  | peek => simp only [serve, hpeek]
  | advance => simp only [serve, hadvance]
  | tree => simp only [serve, tree, atEnd, htokens, hfailure]
  | onlyTree => simp only [serve, onlyTree, hpeek]

/-- If nothing is wrong with the source, the answers to all other requests are the same without the
requests to look ahead. -/
lemma respond_without_peeks {first second : Stream} (hshort : first.IsShort)
    (hshort' : second.IsShort) (htokens : first.tokens = second.tokens)
    (hfirst : first.unterminated = none) (hsecond : second.unterminated = none)
    (requests : List Request) :
    (respond serve (requests.filter (· ≠ .peek)) first).1 =
      ((requests.zip (respond serve requests second).1).filter (·.1 ≠ .peek)).map Prod.snd := by
  induction requests generalizing first second with
  | nil => rfl
  | cons request later ih =>
    by_cases hrequest : request = .peek
    · subst hrequest
      have htokens' : first.tokens = second.peek.2.tokens := by
        rw [htokens]
        cases hsecond : second.tokens with
        | nil => simp [peek_of_nil hsecond]
        | cons token rest => simp [peek_of_cons hshort' hsecond]
      exact ih hshort hshort'.peek htokens' hfirst
        (second.settles_peek.unterminated_eq_none hsecond)
    · have hserve := serve_congr hshort hshort' htokens (hfirst.trans hsecond.symm) request
      have hnone := (second.settles_serve request).unterminated_eq_none hsecond
      have hlater := ih (hshort'.serve request) (hshort'.serve request) rfl hnone hnone
      simp only [respond, List.zip_cons_cons, List.filter_cons, hrequest, ne_eq, not_false_eq_true,
        decide_true, ↓reduceIte, List.map_cons, hserve] at hlater ⊢
      rw [hlater]

end Stream

/-! ## Conservation -/

/-- Rows of requests are answered one after the other. -/
lemma respond_append {σ : Type} (serve : Request → σ → Answer × σ) (requests later : List Request)
    (state : σ) :
    respond serve (requests ++ later) state =
      ((respond serve requests state).1 ++ (respond serve later (respond serve requests state).2).1,
        (respond serve later (respond serve requests state).2).2) := by
  induction requests generalizing state with
  | nil => rfl
  | cons request requests ih => simp only [List.cons_append, respond, ih]

/-- A tap on the stream of a source, from which nothing was taken yet. -/
def Tap.on (source : String) : Tap :=
  ⟨Stream.ofScan (scan source), []⟩

/-- The tap on the stream of a source after a row of requests. -/
def Tap.after (source : String) (requests : List Request) : Tap :=
  (respond Tap.serve requests (Tap.on source)).2

/-- What the stream of a source answers to a row of requests. -/
def Stream.answers (source : String) (requests : List Request) : List Answer :=
  (respond Stream.serve requests (Stream.ofScan (scan source))).1

/-- One tree is read: the tokens that spell it are taken, which no other beginning of the tokens
does, and nothing behind them is looked at, so that it does not matter what is there. -/
def Tap.TakesTree (before : Tap) (node : Node) (after : Tap) : Prop :=
  ∃ used rest, before.stream.tokens = used ++ rest ∧ Derives used node ∧
    after = ⟨⟨[], rest, before.stream.unterminated⟩, before.taken ++ used⟩ ∧
    (∀ other node', other <+: before.stream.tokens → Derives other node' → other = used) ∧
    ∀ behind failure,
      Stream.tree ⟨[], used ++ behind, failure⟩ = (.ok node, ⟨[], behind, failure⟩)

/-- A tap that reads a tree takes the tokens of the tree. -/
lemma Tap.takesTree_of_eq_ok {tap : Tap} (hshort : tap.stream.IsShort) {node : Node}
    (h : tap.stream.tree.1 = .ok node) : tap.TakesTree node tap.tree.2 := by
  obtain ⟨used, rest, htokens, hderives⟩ := Stream.tree_eq_ok_iff.1 h
  refine ⟨used, rest, htokens, hderives, ?_, ?_, ?_⟩
  · have hread : readTree [] tap.stream.tokens = .tree node rest := by
      rw [htokens]
      exact hderives.readTree_append [] rest
    obtain ⟨-, hstream, hconserved⟩ := mirrors_tree hshort
    rw [Stream.tree_eq_of_readTree hread] at hstream
    rw [hstream, htokens, Stream.tokens_of_none, ← List.append_assoc] at hconserved
    -- the tokens that are left are known, so those that were taken are known as well
    have htaken : tap.tree.2.taken = tap.taken ++ used := List.append_cancel_right hconserved
    exact congrArg₂ Tap.mk hstream htaken
  · rintro other node' ⟨rest', hother⟩ hother'
    exact (Stream.eq_of_derives (hother.trans htokens) hother' hderives).1
  · intro behind failure
    exact Stream.tree_eq_of_readTree (hderives.readTree_append [] behind)

/-- A stream neither loses nor repeats tokens, whatever it is asked for and whichever requests fail.
After every row of requests the tokens that were taken, those that were looked at, of which there is
one at most, and those that were not read are the tokens of the source. The failure of the source is
reported once at most, and after it all requests are answered with the end. A tree is read exactly
if some beginning of the tokens that are left spells it, and then these tokens are taken and nothing
else is touched. If the source has no failure, requests to look ahead make no difference to the
others. -/
theorem requests_conserve_tokens (source : String) (requests : List Request) :
    ((respond Tap.serve requests (Tap.on source)).1 = Stream.answers source requests ∧
      (Tap.after source requests).stream =
        (respond Stream.serve requests (Stream.ofScan (scan source))).2) ∧
    ((Tap.after source requests).taken ++ (Tap.after source requests).stream.buffer ++
        (Tap.after source requests).stream.unread = (scan source).tokens ∧
      (Tap.after source requests).stream.buffer.length ≤ 1) ∧
    (Stream.answers source requests).filterMap Answer.failure? ++
        (Tap.after source requests).stream.unterminated.toList =
      (scan source).unterminated.toList ∧
    ((Stream.answers source requests).filterMap Answer.failure? ≠ [] → ∀ later,
      Stream.answers source (requests ++ later) =
        Stream.answers source requests ++ later.map Request.atEnd) ∧
    (∀ node, (Tap.after source requests).stream.tree.1 = .ok node ↔
      ∃ used rest, (Tap.after source requests).stream.tokens = used ++ rest ∧ Derives used node) ∧
    (∀ node, (Tap.after source requests).stream.tree.1 = .ok node →
      (Tap.after source requests).TakesTree node (Tap.after source (requests ++ [.tree]))) ∧
    ((scan source).unterminated = none →
      Stream.answers source (requests.filter (· ≠ .peek)) =
        ((requests.zip (Stream.answers source requests)).filter (·.1 ≠ .peek)).map Prod.snd) := by
  have hstart : (Stream.ofScan (scan source)).IsShort := Nat.zero_le 1
  have hmirrors : (Tap.on source).Mirrors _ _ := Tap.mirrors_respond hstart requests
  have hstream : (Tap.after source requests).stream =
      (respond Stream.serve requests (Stream.ofScan (scan source))).2 := hmirrors.stream
  have hshort : (Tap.after source requests).stream.IsShort := by
    rw [hstream]
    exact hstart.respond requests
  refine ⟨⟨hmirrors.result, hstream⟩, ⟨?_, hshort⟩, ?_, ?_, ?_, ?_, ?_⟩
  · rw [List.append_assoc]
    exact hmirrors.conserved
  · rw [hstream]
    exact Stream.failures_respond _ requests
  · intro hfailure later
    rw [Stream.answers, respond_append, Stream.ended_of_failure hfailure, Stream.respond_ended]
    rfl
  · intro node
    exact Stream.tree_eq_ok_iff
  · intro node hnode
    have hafter : Tap.after source (requests ++ [.tree]) = (Tap.after source requests).tree.2 := by
      rw [Tap.after, respond_append]
      rfl
    rw [hafter]
    exact Tap.takesTree_of_eq_ok hshort hnode
  · intro hnone
    exact Stream.respond_without_peeks hstart hstart rfl hnone hnone requests

/-- In `'(a) "b` a text never ends. The tree in front of it is read all the same, also if its first
token was looked at before, and then the failure is reported by the next request only. In `a (b`
nothing of that sort is wrong, and looking ahead makes no difference. -/
theorem requests_conserve_before_unterminated :
    (Tap.after "'(a) \"b" [.peek]).TakesTree (.quote (.form [.identifier "a"]))
        (Tap.after "'(a) \"b" [.peek, .tree]) ∧
      (∀ later, Stream.answers "'(a) \"b" ([.peek, .tree, .advance] ++ later) =
        Stream.answers "'(a) \"b" [.peek, .tree, .advance] ++ later.map Request.atEnd) ∧
      Stream.answers "a (b" [.tree, .onlyTree] =
        [.tree (.ok (.identifier "a")), .tree (.error (.unmatchedOpen 2))] := by
  have htree : (Tap.after "'(a) \"b" [.peek]).stream.tree.1 =
      .ok (.quote (.form [.identifier "a"])) := rfl
  have hreported : (Stream.answers "'(a) \"b" [.peek, .tree, .advance]).filterMap
      Answer.failure? = [5] := rfl
  have hnone : (scan "a (b").unterminated = none := rfl
  obtain ⟨-, -, -, -, -, htakes, -⟩ := requests_conserve_tokens "'(a) \"b" [.peek]
  obtain ⟨-, -, -, hended, -⟩ := requests_conserve_tokens "'(a) \"b" [.peek, .tree, .advance]
  obtain ⟨-, -, -, -, -, -, hpeeks⟩ :=
    requests_conserve_tokens "a (b" [.peek, .tree, .peek, .onlyTree]
  rw [hreported] at hended
  exact ⟨htakes _ htree, hended (List.cons_ne_nil 5 []), hpeeks hnone⟩

end Lisplet
