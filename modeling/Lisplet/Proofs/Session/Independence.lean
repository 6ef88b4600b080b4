import Lisplet.Proofs.Reader.RoundTrip
import Lisplet.Proofs.Session.Mounting
import Lisplet.Session

/-!
# The calls of a session are independent

A session evaluates one source after the other, each in a new frame inside its root frame. Whatever
the earlier sources were, and whether they failed or not, a call looks from outside like a run of
its source on its own: the same texts are printed, and the value has the same text, or the error is
the same.

Two facts come together. The store of a session only grows, so the root frame holds the bindings of
the session at every call. And an evaluation in an empty frame inside the root, or in the root
itself, goes in lockstep with a single run, since both are mounted on frames in which names have the
values that the bindings give them.
-/

namespace Lisplet

/-! ## What is seen of a run -/

/-- What a run shows: the text of its value, or the kind and the message of its error, and the texts
that were printed. -/
def Outcome.observed (outcome : Outcome Value) :
    Except (Error.Kind × String) (Option String) × List String :=
  (match outcome.result with
    | .ok value => .ok value.display
    | .error error => .error (error.kind, error.message),
   Event.handed outcome.events)

/-- The run of a source on its own. A source that cannot be read fails without a run. -/
def interpretSource (context : Context) (fuel : Nat) (bindings : Bindings) (source : String) :
    Option (Outcome Value) :=
  match parse source with
  | .ok node => interpret context fuel Store.empty bindings node
  | .error error => some ⟨.error error, Store.empty, []⟩

/-- Corresponding outcomes look the same if names are kept. -/
lemma Renaming.Corresponds.observed_eq {ρ : Renaming} {R : Store → Store → Prop}
    {outcome renamed : Outcome Value} (h : ρ.Corresponds R (Value.rename ρ) outcome renamed)
    (hkeeps : ρ.KeepsNames) : renamed.observed = outcome.observed := by
  have hresult : renamed.result = outcome.result.map (Value.rename ρ) :=
    (matches_iff_of_keepsNames hkeeps).1 h.result
  unfold Outcome.observed
  rw [hresult, h.handed hkeeps]
  cases outcome.result with
  | error error => rfl
  | ok value =>
    simp only [Except.map, Value.display, Value.render_rename hkeeps]

/-- Runs that end together look the same if names are kept. -/
lemma map_observed_eq_of_rel {ρ : Renaming} {R : Store → Store → Prop} (hkeeps : ρ.KeepsNames)
    {outcome renamed : Option (Outcome Value)}
    (h : Option.Rel (ρ.Corresponds R (Value.rename ρ)) outcome renamed) :
    renamed.map Outcome.observed = outcome.map Outcome.observed := by
  cases h with
  | none => rfl
  | some h => exact congrArg some (h.observed_eq hkeeps)

/-! ## Calls of a session -/

/-- Nothing that a run has made occurs in a tree that was read. -/
lemma Criterion.spelled_given : spelled.Implies given where
  number := And.right
  name := id
  identity := False.elim
  scope := False.elim
  callable := False.elim
  foreign := False.elim

namespace Session

/-- The stores that a session has after a row of sources was evaluated, each with a limit of its own
that lets it end. -/
inductive Reaches (context : Context) (session : Session) : List String → Store → Prop
  | start : Reaches context session [] session.store
  | eval {earlier : List String} {store : Store} {fuel : Nat} {source : String}
      {outcome : Outcome Value} :
      Reaches context session earlier store →
      Session.eval context fuel session.root source store = some outcome →
      Reaches context session (earlier ++ [source]) outcome.store

/-- A call whose source cannot be read leaves the store as it is. -/
lemma eval_eq_of_error {source : String} {error : Error} (h : parse source = .error error)
    (context : Context) (fuel : Nat) (root : FrameId) (store : Store) :
    ∃ record, Session.eval context fuel root source store =
      some ⟨.error error, store, [.logged record]⟩ := by
  unfold Session.eval
  rw [h]
  exact ⟨_, rfl⟩

/-- A call whose source can be read evaluates its tree in a new frame inside the root. -/
lemma eval_eq_of_ok {source : String} {node : Node} (h : parse source = .ok node)
    (context : Context) (fuel : Nat) (root : FrameId) (store : Store) :
    ∃ record, Session.eval context fuel root source store =
      (evaluate context fuel node (store.push ⟨[], some root⟩).1
        (store.push ⟨[], some root⟩).2).map (Outcome.after [.logged record]) := by
  have hparse : Action.ofResult (parse source) store = some ⟨.ok node, store, []⟩ := by
    rw [h]
    rfl
  have hchild : Action.child root store =
      some ⟨.ok (store.push ⟨[], some root⟩).1, (store.push ⟨[], some root⟩).2, []⟩ := rfl
  unfold Session.eval Action.trace
  rw [Action.bind_eq_of_ok rfl, Action.bind_eq_of_silent hparse, Action.bind_eq_of_silent hchild]
  exact ⟨_, rfl⟩

/-- A call only adds frames to the store, whether it fails or not. -/
lemma grows_of_eval {context : Context} {fuel : Nat} {root : FrameId} {source : String}
    {store : Store} {outcome : Outcome Value}
    (h : Session.eval context fuel root source store = some outcome) :
    store.Grows outcome.store := by
  cases hparse : parse source with
  | error error =>
    obtain ⟨record, heval⟩ := eval_eq_of_error hparse context fuel root store
    cases heval.symm.trans h
    exact .refl store
  | ok node =>
    obtain ⟨record, heval⟩ := eval_eq_of_ok hparse context fuel root store
    obtain ⟨inner, hinner, rfl⟩ := Option.map_eq_some_iff.1 (heval.symm.trans h)
    have hpush : store.Grows (store.push ⟨[], some root⟩).2 := .push store root List.nodup_nil
    have hevaluate := grows_of_evaluate hinner
    exact hpush.trans hevaluate

/-- The store of a session only grows. -/
lemma Reaches.grows {context : Context} {session : Session} {earlier : List String}
    {store : Store} (h : session.Reaches context earlier store) : session.store.Grows store := by
  induction h with
  | start => exact .refl _
  | eval _ heval ih => exact ih.trans (grows_of_eval heval)

/-- At every call the root frame holds the bindings of the session. -/
lemma Reaches.root {context : Context} {start store : Store} {bindings : Bindings}
    {earlier : List String} (h : (Session.start start bindings).Reaches context earlier store) :
    store.frames[(Session.start start bindings).root.index]? = some ⟨bindings, none⟩ :=
  h.grows.getElem? Array.getElem?_push_size

end Session

/-! ## Calls and single runs -/

section

variable {bindings : Bindings} {root : FrameId} {store : Store}

/-- Names have the values in the root frame that the bindings give them. -/
lemma lookup_root (hroot : store.frames[root.index]? = some ⟨bindings, none⟩) (name : String) :
    store.lookup root name = (bindings.lookup name).getD .absent := by
  rw [Store.lookup_eq, hroot]
  dsimp only
  cases bindings.lookup name <;> rfl

/-- A single run begins with the root as its only frame. -/
lemma getElem?_single {index : Nat} (hindex : 0 < index) :
    (Store.empty.root bindings).2.frames[index]? = none :=
  Array.getElem?_eq_none hindex

/-- A single run is mounted on a new frame inside the root frame. -/
lemma mounted_child (hroot : store.frames[root.index]? = some ⟨bindings, none⟩) :
    Store.Mounted bindings ⟨store.frames.size⟩ store.frames.size store.identities (Nat.le_refl _)
      (Store.empty.root bindings).2 (store.push ⟨[], some root⟩).2 := by
  obtain ⟨hlt, -⟩ := Array.getElem?_eq_some_iff.1 hroot
  have hsize : (store.push ⟨[], some root⟩).2.frames.size = store.frames.size + 1 :=
    Array.size_push ..
  refine ⟨rfl, ?_, ?_, ?_, ?_, ?_⟩
  · rw [hsize]
    exact Nat.lt_succ_self _
  · intro name
    rw [store.lookup_push hlt List.not_mem_nil]
    exact lookup_root hroot name
  · rw [hsize]
    exact Nat.add_comm ..
  · intro index hindex
    rw [getElem?_single hindex]
    exact Array.getElem?_eq_none (by omega)
  · exact (Nat.zero_add _).symm

/-- A single run is mounted on the root frame itself. -/
lemma mounted_root (hroot : store.frames[root.index]? = some ⟨bindings, none⟩)
    (hindex : root.index ≤ store.frames.size - 1) :
    Store.Mounted bindings root (store.frames.size - 1) store.identities hindex
      (Store.empty.root bindings).2 store := by
  obtain ⟨hlt, -⟩ := Array.getElem?_eq_some_iff.1 hroot
  refine ⟨rfl, hlt, lookup_root hroot, ?_, ?_, ?_⟩
  · change store.frames.size = 1 + (store.frames.size - 1)
    omega
  · intro index hindex
    rw [getElem?_single hindex]
    exact Array.getElem?_eq_none (by omega)
  · exact (Nat.zero_add _).symm

/-- Evaluation in a frame that a single run is mounted on looks like the single run. -/
lemma map_observed_eq_of_mounted {context : Context} (hhost : context.host.IsUniform)
    (hgiven : bindings.Meets .given) {base : FrameId} {offset made : Nat} {h : base.index ≤ offset}
    {larger : Store}
    (hm : Store.Mounted bindings base offset made h (Store.empty.root bindings).2 larger)
    {node : Node} (hnode : node.Meets .given) (fuel : Nat) :
    (evaluate context fuel node base larger).map Outcome.observed =
      (interpret context fuel Store.empty bindings node).map Outcome.observed := by
  have hlockstep : (Renaming.mount base offset made h).LockstepEval
      (Store.Mounted bindings base offset made h) (evaluate context fuel) (evaluate context fuel) :=
    Renaming.lockstep_evaluate (carries_mounted hgiven) (hhost.respects keepsNames_mount) rfl fuel
  have hrel := hlockstep node ⟨0⟩ _ _ hm
  rw [hnode.rename_eq keepsNames_mount.fixes_given] at hrel
  exact map_observed_eq_of_rel keepsNames_mount hrel

end

/-- A call of a session looks like a run of its source on its own, whatever was evaluated in the
session before: it ends with the same limits, prints the same texts, and has a value with the same
text or the same error. Evaluating in the root frame itself would make no difference. -/
theorem session_eval_observed_eq (context : Context) (hhost : context.host.IsUniform)
    (bindings : Bindings) (hgiven : bindings.Meets .given) (start : Store) (earlier : List String)
    (before : Store) (hbefore : (Session.start start bindings).Reaches context earlier before)
    (fuel : Nat) (source : String) :
    (Session.eval context fuel (Session.start start bindings).root source before).map
        Outcome.observed =
      (interpretSource context fuel bindings source).map Outcome.observed ∧
    ∀ node, parse source = .ok node →
      (evaluate context fuel node (Session.start start bindings).root before).map
          Outcome.observed =
        (interpretSource context fuel bindings source).map Outcome.observed := by
  have hroot := hbefore.root
  cases hparse : parse source with
  | error error =>
    obtain ⟨record, heval⟩ := Session.eval_eq_of_error hparse context fuel
      (Session.start start bindings).root before
    refine ⟨?_, fun node hnode => nomatch hnode⟩
    rw [heval, interpretSource, hparse]
    rfl
  | ok node =>
    have hnode : node.Meets .given := (meets_spelled_of_parse hparse).mono Criterion.spelled_given
    have hsingle : interpretSource context fuel bindings source =
        interpret context fuel Store.empty bindings node := by
      rw [interpretSource, hparse]
    rw [hsingle]
    constructor
    · obtain ⟨record, heval⟩ := Session.eval_eq_of_ok hparse context fuel
        (Session.start start bindings).root before
      rw [heval, Option.map_map]
      exact map_observed_eq_of_mounted hhost hgiven (mounted_child hroot) hnode fuel
    · intro node' hnode'
      cases hnode'
      obtain ⟨hlt, -⟩ := Array.getElem?_eq_some_iff.1 hroot
      exact map_observed_eq_of_mounted hhost hgiven (mounted_root hroot (by omega)) hnode fuel

/-- The bindings of `y` to a text and of `echo` to a host procedure. -/
def greeting : Bindings :=
  [("y", .text "hi"), ("echo", .host (.function (Stock.procedure "echo")))]

/-- A source that cannot be read, and one that fails while it is evaluated, leave no trace in what
the next call shows, which has a procedure of the host make a list. -/
theorem session_eval_after_failures :
    ∃ before,
      (Session.start Store.empty greeting).Reaches ⟨.capture, Stock.host⟩
        ["(first", "((lambda (x x) y) \"a\" \"b\")"] before ∧
      (Session.eval ⟨.capture, Stock.host⟩ 4 (Session.start Store.empty greeting).root
        "(print (echo y))" before).map Outcome.observed = some (.ok (some "(hi)"), ["(hi)"]) := by
  have hgiven : Bindings.Meets .given greeting := by
    intro pair hpair
    rcases List.mem_cons.1 hpair with rfl | hpair
    · trivial
    · obtain rfl := List.mem_singleton.1 hpair
      trivial
  have hunread : parse "(first" = .error (.unmatchedOpen 0) := rfl
  have hread : parse "((lambda (x x) y) \"a\" \"b\")" = .ok repeatedParameter := rfl
  obtain ⟨_, hfirst⟩ := Session.eval_eq_of_error hunread ⟨.capture, Stock.host⟩ 4
    (Session.start Store.empty greeting).root (Session.start Store.empty greeting).store
  obtain ⟨outcome, hsecond⟩ : ∃ outcome, Session.eval ⟨.capture, Stock.host⟩ 4
      (Session.start Store.empty greeting).root "((lambda (x x) y) \"a\" \"b\")"
      (Session.start Store.empty greeting).store = some outcome := by
    obtain ⟨_, heval⟩ := Session.eval_eq_of_ok hread ⟨.capture, Stock.host⟩ 4
      (Session.start Store.empty greeting).root (Session.start Store.empty greeting).store
    rw [heval]
    exact ⟨_, rfl⟩
  have hreaches := (Session.Reaches.start.eval hfirst).eval hsecond
  have hsingle : (interpretSource ⟨.capture, Stock.host⟩ 4 greeting "(print (echo y))").map
      Outcome.observed = some (.ok (some "(hi)"), ["(hi)"]) := by
    have hprint : parse "(print (echo y))" =
        .ok (.special .print [.form [.identifier "echo", .identifier "y"]]) := rfl
    rw [interpretSource, hprint]
    rfl
  have hobserved := (session_eval_observed_eq ⟨.capture, Stock.host⟩ Stock.isUniform_host _ hgiven
    Store.empty _ _ hreaches 4 "(print (echo y))").1
  exact ⟨outcome.store, hreaches, hobserved.trans hsingle⟩

end Lisplet
