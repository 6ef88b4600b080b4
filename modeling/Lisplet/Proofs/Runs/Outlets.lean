import Lisplet.Proofs.Machine.Prints
import Lisplet.Proofs.Semantics.Adequacy
import Lisplet.Proofs.Session.Independence
import Lisplet.Proofs.Values.Legibility

/-!
# One run, whatever the outlet

A program cannot find out which outlet its prints go to. More than that, what happens in a run under
one outlet is what happens in it under another, print by print, with the deliveries exchanged.
`Action.under` is this exchange, made after the fact in the events of an action. It commutes with
all that evaluation is made of, so a step of evaluation under one outlet is the step under another
with the deliveries exchanged, and so are evaluations, runs and calls of a session.

Everything about outlets follows from this. The results, the stores and the texts that are handed
over are the same. And since a run is also its own exchange for the outlet it was made with, its
events are known as soon as the texts are: what shows on the outside is what the outlet makes of the
texts.
-/

namespace Lisplet

/-! ## Exchanging deliveries -/

/-- What becomes of an event under another outlet: a print is delivered there, debug records stay,
and what the old outlet made of prints is gone. -/
def Event.under (outlet : Outlet) : Event → List Event
  | .printed value text => outlet.print value text
  | .logged record => if record.level = .debug then [.logged record] else []
  | .captured _ | .written _ => []

/-- An outcome with the deliveries of another outlet. -/
def Outcome.under {α : Type} (outlet : Outlet) (outcome : Outcome α) : Outcome α :=
  { outcome with events := outcome.events.flatMap (Event.under outlet) }

/-- An action with the deliveries of another outlet. -/
def Action.under {α : Type} (outlet : Outlet) (action : Action α) : Action α :=
  fun store => (action store).map (Outcome.under outlet)

/-- An evaluator with the deliveries of another outlet. -/
def Evaluator.under (outlet : Outlet) (eval : Evaluator) : Evaluator :=
  fun node frame => (eval node frame).under outlet

/-- Another outlet makes of a print what it makes of it in the first place. -/
lemma Outlet.flatMap_under_print (outlet other : Outlet) (value : Value) (text : String) :
    (outlet.print value text).flatMap (Event.under other) = other.print value text := by
  cases outlet <;> simp [Outlet.print, Outlet.deliver, Event.under]

namespace Action

variable {α β : Type} (outlet : Outlet)

@[simp]
lemma under_pure (value : α) : (pure value : Action α).under outlet = pure value := rfl

@[simp]
lemma under_fail (error : Error) : (fail error : Action α).under outlet = fail error := rfl

@[simp]
lemma under_ofResult (result : Except Error α) :
    (ofResult result).under outlet = ofResult result := rfl

@[simp]
lemma under_trace (channel : Channel) (message : String) :
    (trace channel message).under outlet = trace channel message := rfl

@[simp]
lemma under_child (outer : FrameId) : (child outer).under outlet = child outer := rfl

@[simp]
lemma under_newClosure (params : List String) (body : Node) (scope : FrameId) :
    (newClosure params body scope).under outlet = newClosure params body scope := rfl

@[simp]
lemma under_print (other : Outlet) (value : Value) (text : String) :
    (emit (other.print value text)).under outlet = emit (outlet.print value text) := by
  funext store
  simp [under, emit, Outcome.under, Outlet.flatMap_under_print]

@[simp]
lemma under_bindName (frame : FrameId) (name : String) (value : Value) :
    (bind frame name value).under outlet = bind frame name value := by
  funext store
  simp only [under, bind]
  cases store.bind frame name value <;> rfl

/-- Deliveries are exchanged in a sequence by exchanging them in its parts. -/
@[simp]
lemma under_bind (action : Action α) (next : α → Action β) :
    (action >>= next).under outlet =
      action.under outlet >>= fun value => (next value).under outlet := by
  funext store
  change (andThen action next store).map _ = andThen (action.under outlet) _ store
  simp only [andThen, under]
  rcases action store with _ | ⟨error | value, middle, events⟩
  · rfl
  · rfl
  · simp only [Option.map_some, Outcome.under, Option.map_map]
    refine Option.map_congr fun outcome _ => ?_
    simp [Outcome.after, Outcome.under]

@[simp]
lemma under_map (f : α → β) (action : Action α) :
    (f <$> action).under outlet = f <$> action.under outlet := by
  simp only [map_eq_pure_bind, under_bind, under_pure]

@[simp]
lemma under_bindAll (frame : FrameId) (bindings : Bindings) :
    (bindAll frame bindings).under outlet = bindAll frame bindings := by
  induction bindings with
  | nil => rfl
  | cons pair bindings ih =>
    obtain ⟨name, value⟩ := pair
    simp [bindAll, ih]

end Action

/-! ## Evaluation -/

namespace Evaluator

variable (outlet other : Outlet) (host : Host) (eval : Evaluator) (frame : FrameId)

/-- Rows of trees are evaluated as before under another outlet. -/
lemma under_evalAll (nodes : List Node) :
    (evalAll eval frame nodes).under outlet = evalAll (eval.under outlet) frame nodes := by
  induction nodes with
  | nil => rfl
  | cons node rest ih => simp [evalAll, ih, Evaluator.under]

/-- New bindings are evaluated as before under another outlet. -/
lemma under_initialValues (bindings : List Node) :
    (SpecialForm.initialValues eval frame bindings).under outlet =
      SpecialForm.initialValues (eval.under outlet) frame bindings := by
  induction bindings with
  | nil => rfl
  | cons node rest ih =>
    by_cases hnode : ∃ name init, node = .form [.identifier name, init]
    · obtain ⟨name, init, rfl⟩ := hnode
      simp [SpecialForm.initialValues, ih, Evaluator.under]
    · have hmalformed : ∀ name init, node ≠ .form [.identifier name, init] :=
        fun name init heq => hnode ⟨name, init, heq⟩
      rw [SpecialForm.initialValues_of_malformed rest hmalformed,
        SpecialForm.initialValues_of_malformed rest hmalformed, Action.under_fail]

/-- Values are applied as before under another outlet. -/
lemma under_apply (head : Value) (arguments : List Value) :
    (apply ⟨other, host⟩ eval head arguments).under outlet =
      apply ⟨outlet, host⟩ (eval.under outlet) head arguments := by
  cases head with
  | closure identity params body scope =>
    by_cases hcount : params.length = arguments.length
    · rw [apply_closure_of_eq hcount, apply_closure_of_eq hcount]
      simp [Evaluator.under]
    · rw [apply_closure_of_ne hcount, apply_closure_of_ne hcount, Action.under_fail]
  | host callable => rfl
  | _ => cases arguments <;> rfl

/-- Operands that have to be lists are evaluated as before under another outlet. -/
lemma under_listOperand (form : SpecialForm) (node : Node) :
    (SpecialForm.listOperand eval form node frame).under outlet =
      SpecialForm.listOperand (eval.under outlet) form node frame := by
  unfold SpecialForm.listOperand
  rw [Action.under_bind]
  refine bind_congr fun value => ?_
  cases value <;> rfl

/-- A special form under one outlet is the special form under another with the deliveries
exchanged. -/
lemma under_run (form : SpecialForm) (operands : List Node) :
    (form.run ⟨other, host⟩ eval operands frame).under outlet =
      form.run ⟨outlet, host⟩ (eval.under outlet) operands frame := by
  by_cases htakes : form.Takes operands.length
  · cases form with
    | list => simp [SpecialForm.run, SpecialForm.evalList, under_evalAll]
    | first =>
      obtain ⟨node, rfl⟩ := List.length_eq_one_iff.1 htakes
      simp only [SpecialForm.run, SpecialForm.evalFirst, Action.under_bind, under_listOperand]
      refine bind_congr fun items => ?_
      cases items <;> rfl
    | rest =>
      obtain ⟨node, rfl⟩ := List.length_eq_one_iff.1 htakes
      simp [SpecialForm.run, SpecialForm.evalRest, under_listOperand]
    | print =>
      obtain ⟨node, rfl⟩ := List.length_eq_one_iff.1 htakes
      simp only [SpecialForm.run, SpecialForm.evalPrint, Action.under_bind]
      refine bind_congr fun value => ?_
      cases value.display <;> simp
    | lambda =>
      obtain ⟨params, body, rfl⟩ := List.length_eq_two.1 htakes
      cases params <;> simp [SpecialForm.run, SpecialForm.evalLambda]
    | letIn =>
      obtain ⟨bindings, body, rfl⟩ := List.length_eq_two.1 htakes
      cases bindings <;>
        simp [SpecialForm.run, SpecialForm.evalLet, under_initialValues, Evaluator.under]
    | quote =>
      obtain ⟨node, rfl⟩ := List.length_eq_one_iff.1 htakes
      rfl
    | eval =>
      obtain ⟨node, rfl⟩ := List.length_eq_one_iff.1 htakes
      simp only [SpecialForm.run, SpecialForm.evalEval, Action.under_bind]
      refine bind_congr fun value => ?_
      cases value <;> simp [Evaluator.under]
    | choice =>
      obtain ⟨condition, consequent, alternative, rfl⟩ := List.length_eq_three.1 htakes
      simp only [SpecialForm.run, SpecialForm.evalChoice, Action.under_bind]
      refine bind_congr fun value => ?_
      split <;> rfl
  · rw [SpecialForm.run_of_not_takes htakes, SpecialForm.run_of_not_takes htakes,
      Action.under_fail]

/-- A step of evaluation under one outlet is the step under another with the deliveries
exchanged. -/
lemma under_evalStep :
    Evaluator.under outlet (evalStep ⟨other, host⟩ eval) =
      evalStep ⟨outlet, host⟩ (eval.under outlet) := by
  funext node frame
  change (evalStep ⟨other, host⟩ eval node frame).under outlet =
    evalStep ⟨outlet, host⟩ (eval.under outlet) node frame
  cases node with
  | form children =>
    cases children with
    | nil => rfl
    | cons head operands =>
      cases hform : head.specialForm? with
      | some form =>
        simp only [evalStep, hform, Action.under_bind, Action.under_trace, under_run]
      | none =>
        simp only [evalStep, hform, Action.under_bind, under_evalAll, under_apply]
        rfl
  | _ => rfl

end Evaluator

/-- Evaluation under one outlet is evaluation under another with the deliveries exchanged. -/
theorem evaluate_under (outlet other : Outlet) (host : Host) (fuel : Nat) :
    evaluate ⟨outlet, host⟩ fuel = Evaluator.under outlet (evaluate ⟨other, host⟩ fuel) := by
  induction fuel with
  | zero => rfl
  | succ fuel ih =>
    calc evaluate ⟨outlet, host⟩ (fuel + 1)
        = evalStep ⟨outlet, host⟩ (evaluate ⟨outlet, host⟩ fuel) := rfl
      _ = evalStep ⟨outlet, host⟩ ((evaluate ⟨other, host⟩ fuel).under outlet) := by rw [ih]
      _ = Evaluator.under outlet (evalStep ⟨other, host⟩ (evaluate ⟨other, host⟩ fuel)) :=
        (Evaluator.under_evalStep outlet other host _).symm
      _ = Evaluator.under outlet (evaluate ⟨other, host⟩ (fuel + 1)) := rfl

/-! ## Programs -/

/-- What can be run: a tree with bindings on its own, or a source text as a call of a session. -/
inductive Program where
  /-- A tree, evaluated in a new root frame with bindings. -/
  | single (bindings : Bindings) (node : Node)
  /-- A source text, evaluated inside the root frame of a session. -/
  | call (root : FrameId) (source : String)

namespace Program

/-- Runs a program. -/
def run (context : Context) (fuel : Nat) : Program → Action Value
  | single bindings node => fun store => interpret context fuel store bindings node
  | call root source => Session.eval context fuel root source

/-- A program under one outlet is the program under another with the deliveries exchanged. -/
lemma run_under (program : Program) (outlet other : Outlet) (host : Host) (fuel : Nat) :
    program.run ⟨outlet, host⟩ fuel = (program.run ⟨other, host⟩ fuel).under outlet := by
  cases program with
  | single bindings node =>
    funext store
    simp only [run, interpret, evaluate_under outlet other]
    rfl
  | call root source =>
    simp only [run, Session.eval, Action.under_bind, Action.under_trace, Action.under_ofResult,
      Action.under_child, evaluate_under outlet other]
    rfl

end Program

/-! ## What shows -/

/-- What the outside gets to see: the texts given to the caller, all that was written to the
console, and the records of the log without the debug records. -/
structure Transcript where
  /-- The texts given to the caller. -/
  captured : List String
  /-- All that was written to the console. -/
  console : String
  /-- The records of the log. -/
  log : List Record
deriving DecidableEq

namespace Transcript

/-- One transcript after the other. -/
def append (first second : Transcript) : Transcript :=
  ⟨first.captured ++ second.captured, first.console ++ second.console, first.log ++ second.log⟩

instance : Append Transcript := ⟨append⟩

/-- What events show. -/
def ofEvents (events : List Event) : Transcript :=
  ⟨Event.captures events, Event.console events, Event.records false events⟩

/-- What an outlet shows of texts: the texts themselves, one line for each, one record for each, or
nothing. -/
def ofTexts : Outlet → List String → Transcript
  | .capture, texts => ⟨texts, "", []⟩
  | .console, texts => ⟨[], String.join (texts.map (· ++ "\n")), []⟩
  | .log, texts => ⟨[], "", texts.map fun text => ⟨.output, .info, text⟩⟩
  | .discard, _ => ⟨[], "", []⟩

/-- Events in sequence show what the first ones show and then what the others do. -/
lemma ofEvents_append (events more : List Event) :
    ofEvents (events ++ more) = ofEvents events ++ ofEvents more := by
  change _ = append _ _
  simp [ofEvents, append, Event.captures, Event.console, Event.records]

/-- Texts in sequence show what the first ones show and then what the others do. -/
lemma ofTexts_append (outlet : Outlet) (texts more : List String) :
    ofTexts outlet (texts ++ more) = ofTexts outlet texts ++ ofTexts outlet more := by
  change _ = append _ _
  cases outlet <;> simp [ofTexts, append]

/-- An event shows, under an outlet, what the outlet shows of its text. -/
lemma ofEvents_under (outlet : Outlet) (event : Event) :
    ofEvents (event.under outlet) = ofTexts outlet (Event.handed [event]) := by
  cases event with
  | printed value text => cases outlet <;> rfl
  | logged record =>
    have hsilent : ofTexts outlet (Event.handed [.logged record]) = ofEvents [] := by
      cases outlet <;> rfl
    rw [hsilent, Event.under]
    split
    · rename_i hdebug
      simp [ofEvents, Event.captures, Event.console, Event.records, hdebug]
    · rfl
  | captured text | written text => cases outlet <;> rfl

end Transcript

/-- The exchange of deliveries leaves the texts that are handed over. -/
lemma Event.handed_flatMap_under (outlet : Outlet) (events : List Event) :
    handed (events.flatMap (Event.under outlet)) = handed events := by
  induction events with
  | nil => rfl
  | cons event events ih =>
    have hevent : handed (event.under outlet) = handed [event] := by
      cases event with
      | printed value text => exact handed_print outlet value text
      | logged record =>
        rw [Event.under]
        split <;> rfl
      | captured text | written text => rfl
    rw [List.flatMap_cons, handed_append, hevent, ih, ← handed_append, List.singleton_append]

/-- Events with the deliveries of an outlet show what the outlet shows of their texts. -/
lemma Transcript.ofEvents_flatMap_under (outlet : Outlet) (events : List Event) :
    ofEvents (events.flatMap (Event.under outlet)) = ofTexts outlet (Event.handed events) := by
  induction events with
  | nil => cases outlet <;> rfl
  | cons event events ih =>
    rw [List.flatMap_cons, ofEvents_append, ofEvents_under, ih, ← ofTexts_append,
      ← Event.handed_append, List.singleton_append]

/-- What a run comes to: its result, the store that it leaves, and the texts that it hands over. -/
def Outcome.essence (outcome : Outcome Value) : Except Error Value × Store × List String :=
  (outcome.result, outcome.store, Event.handed outcome.events)

/-- The essence of an outcome does not depend on the outlet. -/
lemma Outcome.essence_under (outlet : Outlet) (outcome : Outcome Value) :
    (outcome.under outlet).essence = outcome.essence := by
  unfold essence
  rw [← Event.handed_flatMap_under outlet outcome.events]
  rfl

namespace Program

variable {program : Program} {outlet : Outlet} {host : Host} {fuel : Nat} {before : Store}
  {outcome : Outcome Value}

/-- What a run comes to does not depend on the outlet. -/
lemma map_essence_run (program : Program) (outlet other : Outlet) (host : Host) (fuel : Nat)
    (before : Store) :
    (program.run ⟨outlet, host⟩ fuel before).map Outcome.essence =
      (program.run ⟨other, host⟩ fuel before).map Outcome.essence := by
  rw [run_under program outlet other]
  unfold Action.under
  rw [Option.map_map]
  exact Option.map_congr fun outcome _ => outcome.essence_under outlet

/-- A run shows what its outlet shows of the texts that it hands over. -/
lemma ofEvents_run (h : program.run ⟨outlet, host⟩ fuel before = some outcome) :
    Transcript.ofEvents outcome.events =
      Transcript.ofTexts outlet (Event.handed outcome.events) := by
  -- a run is its own exchange for the outlet it was made with
  have hself : program.run ⟨outlet, host⟩ fuel before = some (outcome.under outlet) := by
    rw [run_under program outlet outlet]
    simp only [Action.under, h, Option.map_some]
  have hsame : outcome = outcome.under outlet := Option.some.inj (h.symm.trans hself)
  have hevents : outcome.events = outcome.events.flatMap (Event.under outlet) :=
    congrArg Outcome.events hsame
  calc Transcript.ofEvents outcome.events
      = Transcript.ofEvents (outcome.events.flatMap (Event.under outlet)) := by rw [← hevents]
    _ = Transcript.ofTexts outlet (Event.handed outcome.events) :=
      Transcript.ofEvents_flatMap_under outlet outcome.events

/-! ## Prints up to the end of a run -/

/-- The first moment of a run, unless the source cannot be read. -/
def initial (before : Store) : Program → Except Error Machine.State
  | single bindings node =>
    .ok (Machine.evaluating node (before.root bindings).1 (before.root bindings).2)
  | call root source =>
    (parse source).map fun node =>
      Machine.evaluating node (before.child root).1 (before.child root).2

/-- A run that ends as told, step by step, with the texts of the prints that are completed up to its
end. A source that cannot be read ends the run before it begins. -/
def Performs (program : Program) (host : Host) (before : Store)
    (essence : Except Error Value × Store × List String) : Prop :=
  match program.initial before with
  | .error error => essence = (.error error, before, [])
  | .ok state =>
    ∃ steps,
      Machine.run host steps state =
        some (Machine.final essence.1 essence.2.1 (Machine.completed host steps state)) ∧
      essence.2.2 = (Machine.completed host steps state).map Prod.snd

/-- A program that is started with an evaluation performs what the evaluation does. -/
lemma performs_of_evaluate {node : Node} {frame : FrameId} {store : Store}
    (hinitial : program.initial before = .ok (Machine.evaluating node frame store))
    (h : evaluate ⟨outlet, host⟩ fuel node frame store = some outcome) :
    program.Performs host before outcome.essence := by
  obtain ⟨steps, hrun, hprintings⟩ := Machine.exists_run_of_evaluate h
  unfold Performs
  rw [hinitial]
  refine ⟨steps, hrun, ?_⟩
  calc Event.handed outcome.events
      = (Event.printings outcome.events).map Prod.snd := Event.handed_eq_map_printings _
    _ = (Machine.completed host steps (Machine.evaluating node frame store)).map Prod.snd := by
      rw [hprintings]

/-- A run hands over the texts of the prints that it completes, no matter how it ends. -/
lemma performs_of_run (h : program.run ⟨outlet, host⟩ fuel before = some outcome) :
    program.Performs host before outcome.essence := by
  cases program with
  | single bindings node => exact performs_of_evaluate rfl h
  | call root source =>
    have hinitial : (call root source).initial before = (parse source).map fun node =>
        Machine.evaluating node (before.child root).1 (before.child root).2 := rfl
    cases hparse : parse source with
    | error error =>
      rw [hparse] at hinitial
      obtain ⟨record, heval⟩ := Session.eval_eq_of_error hparse ⟨outlet, host⟩ fuel root before
      obtain rfl := Option.some.inj (heval.symm.trans h)
      unfold Performs
      rw [hinitial]
      rfl
    | ok node =>
      rw [hparse] at hinitial
      obtain ⟨record, heval⟩ := Session.eval_eq_of_ok hparse ⟨outlet, host⟩ fuel root before
      obtain ⟨inner, hinner, rfl⟩ := Option.map_eq_some_iff.1 (heval.symm.trans h)
      -- the debug record of the call hands nothing over
      have hessence : (inner.after [.logged record]).essence = inner.essence := rfl
      rw [hessence]
      exact performs_of_evaluate hinitial hinner

/-- What happened before a run shows first, and is of no consequence for the run. -/
lemma run_after (earlier : List Event)
    (h : program.run ⟨outlet, host⟩ fuel before = some outcome) :
    (do Action.emit earlier; program.run ⟨outlet, host⟩ fuel) before =
      some (outcome.after earlier) := by
  rw [Action.bind_eq_of_ok rfl, h]
  rfl

/-- A run adds what its outlet shows of the texts to what shows before it. -/
lemma ofEvents_run_after (earlier : List Event)
    (h : program.run ⟨outlet, host⟩ fuel before = some outcome) :
    Transcript.ofEvents (outcome.after earlier).events =
      Transcript.ofEvents earlier ++ Transcript.ofTexts outlet (Event.handed outcome.events) := by
  rw [Outcome.after, Transcript.ofEvents_append, ofEvents_run h]

end Program

/-! ## Values without a text -/

/-- An integer has no text if and only if it has more than 4300 digits. -/
lemma display_int_eq_none_iff (n : Int) :
    (Value.number (.int n)).display = none ↔ 4300 < (Nat.toDigits 10 n.natAbs).length :=
  Number.text_int_eq_none_iff n

/-- A value without a text cannot be printed, whatever the outlet is, and nothing is handed over for
it. -/
lemma runs_print_of_display_eq_none {context : Context} {fuel : Nat} {operand : Node}
    {frame : FrameId} {before after : Store} {value : Value} {texts : List String}
    (h : (evaluate context fuel operand frame).Runs before (.ok value) texts after)
    (hdisplay : value.display = none) :
    (evaluate context (fuel + 1) (.special .print [operand]) frame).Runs before
      (.error .integerTooLong) texts after :=
  runs_special (runs_printTooLong h hdisplay)

/-! ## Settings -/

/-- An outlet that the caller chose stands, whatever the settings are. -/
lemma Settings.context_some (settings : Settings) (outlet : Outlet) (host : Host) :
    settings.context (some outlet) host = ⟨outlet, host⟩ := rfl

/-- Bindings that the caller gave stand, whatever the settings are. -/
lemma Settings.sessionBindings_some (settings : Settings) (bindings : Bindings) :
    settings.sessionBindings (some bindings) = bindings := rfl

/-! ## All outlets show the same run -/

/-- All outlets show the same run. The result, the store and the texts that are handed over do not
depend on the outlet. The texts are those of the prints that are completed up to the end of the run,
also if it fails. What shows is what the outlet makes of the texts, after whatever showed before. A
print of a value without a text, such as an integer of more than 4300 digits, fails under every
outlet. With an outlet and bindings of the caller, the settings are of no consequence. -/
theorem outlets_show_same_run (host : Host) (fuel : Nat) (program : Program) (before : Store) :
    (∀ outlet other, (program.run ⟨outlet, host⟩ fuel before).map Outcome.essence =
      (program.run ⟨other, host⟩ fuel before).map Outcome.essence) ∧
    (∀ outlet outcome, program.run ⟨outlet, host⟩ fuel before = some outcome →
      program.Performs host before outcome.essence ∧
      ∀ earlier,
        (do Action.emit earlier; program.run ⟨outlet, host⟩ fuel) before =
          some (outcome.after earlier) ∧
        Transcript.ofEvents (outcome.after earlier).events =
          Transcript.ofEvents earlier ++
            Transcript.ofTexts outlet (Event.handed outcome.events)) ∧
    (∀ outlet operand frame store value texts after,
      (evaluate ⟨outlet, host⟩ fuel operand frame).Runs store (.ok value) texts after →
      value.display = none →
      (evaluate ⟨outlet, host⟩ (fuel + 1) (.special .print [operand]) frame).Runs store
        (.error .integerTooLong) texts after) ∧
    (∀ n : Int, (Value.number (.int n)).display = none ↔
      4300 < (Nat.toDigits 10 n.natAbs).length) ∧
    ∀ settings settings' : Settings,
      (∀ outlet, program.run (settings.context (some outlet) host) fuel before =
        program.run (settings'.context (some outlet) host) fuel before) ∧
      ∀ bindings, Session.start before (settings.sessionBindings (some bindings)) =
        Session.start before (settings'.sessionBindings (some bindings)) := by
  refine ⟨fun outlet other => program.map_essence_run outlet other host fuel before, ?_, ?_,
    display_int_eq_none_iff, fun settings settings' => ⟨fun outlet => ?_, fun bindings => ?_⟩⟩
  · intro outlet outcome h
    exact ⟨Program.performs_of_run h, fun earlier =>
      ⟨Program.run_after earlier h, Program.ofEvents_run_after earlier h⟩⟩
  · intro outlet operand frame store value texts after h hdisplay
    exact runs_print_of_display_eq_none h hdisplay
  · rw [settings.context_some, settings'.context_some]
  · rw [settings.sessionBindings_some, settings'.sessionBindings_some]

/-- `(list (print "a") (first (list)) (print "b"))`, which fails between its prints. -/
def failsBetweenPrints : Program :=
  .single [] (.special .list
    [.special .print [.string "a"], .special .first [.special .list []],
      .special .print [.string "b"]])

/-- The least integer that has no text. -/
def leastTooLong : Int := Nat.pow 10 Number.digitLimit

/-- A run that fails between two prints shows the first one on the console, after what was there.
Without an outlet it shows nothing and fails in the same way. So does a print of the least integer
that has no text. -/
theorem failsBetweenPrints_shown :
    (∃ outcome, failsBetweenPrints.run ⟨.console, Stock.host⟩ 4 .empty = some outcome ∧
      outcome.result = .error .firstOfEmpty ∧
      failsBetweenPrints.Performs Stock.host .empty outcome.essence ∧
      (Transcript.ofEvents (outcome.after [.written "before\n"]).events).console =
        "before\na\n") ∧
    (∃ outcome, failsBetweenPrints.run ⟨.discard, Stock.host⟩ 4 .empty = some outcome ∧
      outcome.result = .error .firstOfEmpty ∧
      Event.handed outcome.events = ["a"] ∧
      Transcript.ofEvents outcome.events = ⟨[], "", []⟩) ∧
    (evaluate ⟨.discard, Stock.host⟩ 5 (.special .print [.number (.int leastTooLong)]) ⟨0⟩).Runs
      .empty (.error .integerTooLong) [] .empty := by
  obtain ⟨hsame, hshow, hfails, hlong, -⟩ :=
    outlets_show_same_run Stock.host 4 failsBetweenPrints .empty
  have hrun : ∃ outcome, failsBetweenPrints.run ⟨.console, Stock.host⟩ 4 .empty = some outcome ∧
      outcome.result = .error .firstOfEmpty ∧ Event.handed outcome.events = ["a"] :=
    ⟨_, rfl, rfl, rfl⟩
  obtain ⟨outcome, hconsole, hresult, hhanded⟩ := hrun
  obtain ⟨hperforms, hearlier⟩ := hshow .console outcome hconsole
  refine ⟨⟨outcome, hconsole, hresult, hperforms, ?_⟩, ?_, ?_⟩
  · rw [(hearlier [.written "before\n"]).2, hhanded]
    decide
  · have hdiscard := hsame .discard .console
    rw [hconsole] at hdiscard
    obtain ⟨quiet, hquiet, hessence⟩ := Option.map_eq_some_iff.1 hdiscard
    have hhanded' : Event.handed quiet.events = ["a"] :=
      (congrArg (fun essence => essence.2.2) hessence).trans hhanded
    exact ⟨quiet, hquiet, (congrArg Prod.fst hessence).trans hresult, hhanded',
      ((hshow .discard quiet hquiet).2 []).2⟩
  · have hdigits : ∀ count, 0 < count →
        count < (Nat.toDigits 10 (Nat.pow 10 count : Int).natAbs).length := by
      intro count hcount
      rw [← not_le, Int.natAbs_natCast, Nat.length_toDigits_le_iff (by decide) hcount]
      exact lt_irrefl _
    have hnumber : ∀ n : Number,
        (evaluate ⟨.discard, Stock.host⟩ 4 (.number n) ⟨0⟩).Runs .empty (.ok (.number n)) []
          .empty := fun n => Action.Runs.pure _ _
    have hdisplay : (Value.number (.int leastTooLong)).display = none :=
      (hlong leastTooLong).2 (hdigits Number.digitLimit (by decide))
    exact hfails .discard _ _ _ _ _ _ (hnumber _) hdisplay

end Lisplet
