import Lisplet.Value

/-!
# Outlets and events

A run leaves a row of events behind. A program that prints a value hands its text to one of four
outlets, and the outlet makes something of it: it gives the text to the caller, writes it to the
console, adds it to the log, or does nothing. Debug records are added to the log whatever the outlet
is.
-/

namespace Lisplet

/-- How important a record is. -/
inductive Level where
  /-- Of interest to those who follow a run. -/
  | debug
  /-- Of interest to everyone. -/
  | info
deriving DecidableEq, Repr

/-- Which part of the system a record comes from. -/
inductive Channel where
  /-- The session that reads a source. -/
  | session
  /-- The evaluator at a special form. -/
  | evaluator
  /-- The application of a closure. -/
  | application
  /-- The evaluation of data as code. -/
  | reentry
  /-- The program itself, through its prints. -/
  | output
deriving DecidableEq, Repr

/-- A record of the log. -/
structure Record where
  /-- Where it comes from. -/
  channel : Channel
  /-- How important it is. -/
  level : Level
  /-- What it says. -/
  message : String
deriving DecidableEq, Repr

/-- Something that happens in a run. -/
inductive Event where
  /-- A value was printed: its text was handed to the outlet. -/
  | printed (value : Value) (text : String)
  /-- A text was given to the caller. -/
  | captured (text : String)
  /-- A text was written to the console. -/
  | written (text : String)
  /-- A record was added to the log. -/
  | logged (record : Record)

/-- Where the texts go that a program prints. -/
inductive Outlet where
  /-- To the caller. -/
  | capture
  /-- To the console, one line each. -/
  | console
  /-- To the log. -/
  | log
  /-- Nowhere. -/
  | discard
deriving DecidableEq, Repr

/-- What an outlet makes of a text. -/
def Outlet.deliver : Outlet → String → List Event
  | .capture, text => [.captured text]
  | .console, text => [.written (text ++ "\n")]
  | .log, text => [.logged ⟨.output, .info, text⟩]
  | .discard, _ => []

/-- The events of printing a value with a given text. -/
def Outlet.print (outlet : Outlet) (value : Value) (text : String) : List Event :=
  .printed value text :: outlet.deliver text

namespace Event

/-- The values that were printed, in order. -/
def prints (events : List Event) : List Value :=
  events.filterMap fun
    | printed value _ => some value
    | _ => none

/-- The texts that were handed to the outlet, in order. -/
def handed (events : List Event) : List String :=
  events.filterMap fun
    | printed _ text => some text
    | _ => none

/-- The texts that were given to the caller, in order. -/
def captures (events : List Event) : List String :=
  events.filterMap fun
    | captured text => some text
    | _ => none

/-- All that was written to the console. -/
def console (events : List Event) : String :=
  String.join (events.filterMap fun
    | written text => some text
    | _ => none)

/-- The records of the log, without debug records unless they are asked for. -/
def records (debug : Bool) (events : List Event) : List Record :=
  events.filterMap fun
    | logged record => if record.level = .info || debug then some record else none
    | _ => none

end Event

end Lisplet
