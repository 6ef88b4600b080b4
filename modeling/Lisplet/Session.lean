import Lisplet.Eval.Evaluate
import Lisplet.Outlet
import Lisplet.Reader.Stream
import Lisplet.Text

/-!
# Runs and sessions

A single run evaluates one tree in a new root frame that holds given bindings. A session keeps its
root frame, and evaluates each source text in a new frame inside it, so that the names of one text
are never in the way of the next.

Settings from outside choose what the caller leaves open: where prints go, and whether the
primitives are bound.
-/

namespace Lisplet

/-! ## Settings

Two settings come from outside as texts, each of which may be missing. One chooses the outlet for
prints when the caller does not. The other says whether the primitives are bound when the caller
gives no bindings. Case does not matter, nor do blanks at the two ends. -/

/-- A setting without surrounding blanks and in lower case. The words that settings are compared
with are plain letters and digits, so only plain letters need to be lowered. -/
def normalizeSetting (text : String) : String :=
  String.ofList ((Text.trimBlanks text.toList).map Char.toLower)

/-- The words that turn a flag on. -/
def affirmatives : List String :=
  ["1", "true", "yes", "on"]

/-- The flag that a setting spells. A missing or blank setting leaves the default. -/
def readFlag (setting : Option String) (default : Bool) : Bool :=
  match setting with
  | none => default
  | some text =>
    let word := normalizeSetting text
    if word.isEmpty then default else affirmatives.contains word

/-- The outlet that a setting spells. Everything that is no outlet leaves the log. -/
def readOutlet (setting : Option String) : Outlet :=
  match normalizeSetting (setting.getD "") with
  | "stdout" => .console
  | "none" => .discard
  | _ => .log

/-- The settings of a run, as they come from outside. -/
structure Settings where
  /-- The outlet for prints. -/
  outlet : Option String := none
  /-- Whether the primitives are bound by default. -/
  primitives : Option String := none

namespace Settings

/-- The outlet for a run: the caller's choice, or that of the settings. -/
def chooseOutlet (settings : Settings) (choice : Option Outlet) : Outlet :=
  choice.getD (readOutlet settings.outlet)

/-- Whether the primitives are bound when the caller gives no bindings. -/
def preloads (settings : Settings) : Bool :=
  readFlag settings.primitives false

end Settings

/-! ## Runs -/

/-- Evaluates a tree in a new root frame. -/
def interpret (context : Context) (fuel : Nat) (store : Store) (bindings : Bindings) (node : Node) :
    Option (Outcome Value) :=
  let (frame, store) := store.root bindings
  evaluate context fuel node frame store

/-- What a run is given: the outlet that the caller chose, or that of the settings, and a host. -/
def Settings.context (settings : Settings) (choice : Option Outlet) (host : Host) : Context :=
  ⟨settings.chooseOutlet choice, host⟩

/-- The bindings of a session: those of the caller, or the primitives if the caller gives none and
the settings ask for them. -/
def Settings.sessionBindings (settings : Settings) : Option Bindings → Bindings
  | some bindings => bindings
  | none => if settings.preloads then Primitive.bindings else []

/-- A root frame and the store that holds it. -/
structure Session where
  /-- The frame that stays. -/
  root : FrameId
  /-- All frames so far. -/
  store : Store

namespace Session

/-- A session with given bindings in its root frame. -/
def start (store : Store) (bindings : Bindings) : Session :=
  let (root, store) := store.root bindings
  ⟨root, store⟩

/-- Reads a source text and evaluates its tree in a new frame inside the root frame. -/
def eval (context : Context) (fuel : Nat) (root : FrameId) (source : String) : Action Value := do
  Action.trace .session
    ("evaluating " ++ toString source.length ++ " characters of source")
  let node ← Action.ofResult (parse source)
  let frame ← Action.child root
  evaluate context fuel node frame

/-- Evaluates a source text and binds its value in the root frame. -/
def define (context : Context) (fuel : Nat) (root : FrameId) (name source : String) :
    Action Value := do
  let value ← eval context fuel root source
  Action.bind root name value
  return value

end Session

end Lisplet
