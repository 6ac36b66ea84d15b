import TestDouble.Error
import TestDouble.Member

/-!
# What a run reports

A run leaves a trace: records for a log, and the requests for member bodies that were made. The
trace is kept whether the run succeeds or fails.
-/

namespace TestDouble

/-- How important a record is. -/
inductive Level where
  | trace
  | debug
  | info
  | warn
  deriving DecidableEq, Repr, Inhabited

def Level.name : Level → String
  | trace => "TRACE"
  | debug => "DEBUG"
  | info => "INFO"
  | warn => "WARN"

/-- A line of the log. -/
structure Record where
  level : Level
  message : String
  deriving DecidableEq, Repr, Inhabited

def Record.text (r : Record) : String := r.level.name ++ " " ++ r.message

/-- Something that happened in a run. -/
inductive Event where
  | record (record : Record)
  /-- The body of a member was asked for, for the class of the given name. -/
  | request (className : String) (member : Member)

/-- The record of an event, if it is one. -/
def Event.record? : Event → Option Record
  | record r => some r
  | request _ _ => none

/-- The request of an event, if it is one. -/
def Event.request? : Event → Option (String × Member)
  | record _ => none
  | request className member => some (className, member)

/-- A finished run: what happened, and the value or the failure it ended with. -/
structure Traced (α : Type) where
  events : List Event
  outcome : Except Error α

namespace Traced

/-- A run that does nothing but end with a value. -/
def done {α : Type} (value : α) : Traced α := ⟨[], .ok value⟩

/-- A run that fails. -/
def failed {α : Type} (error : Error) : Traced α := ⟨[], .error error⟩

/-- A run that ends as given without leaving a trace. -/
def silent {α : Type} (outcome : Except Error α) : Traced α := ⟨[], outcome⟩

/-- A run that leaves one record. -/
def log (level : Level) (message : String) : Traced Unit :=
  ⟨[.record ⟨level, message⟩], .ok ()⟩

/-- A run that leaves a record for each message. -/
def logAll (level : Level) (messages : List String) : Traced Unit :=
  ⟨messages.map fun message => .record ⟨level, message⟩, .ok ()⟩

/-- One run after another; a failure ends both. -/
def andThen {α β : Type} (first : Traced α) (next : α → Traced β) : Traced β :=
  match first.outcome with
  | .error error => ⟨first.events, .error error⟩
  | .ok value =>
    let second := next value
    ⟨first.events ++ second.events, second.outcome⟩

instance : Monad Traced where
  pure := done
  bind := andThen

/-- The records of a run, in order. -/
def records {α : Type} (run : Traced α) : List Record := run.events.filterMap Event.record?

/-- The requests of a run, in order. -/
def requests {α : Type} (run : Traced α) : List (String × Member) :=
  run.events.filterMap Event.request?

/-- A run for each item, behind the events and values so far (both last one first). -/
def mapFrom {α β : Type} (f : α → Traced β) : List α → List Event → List β → Traced (List β)
  | [], events, values => ⟨events.reverse, .ok values.reverse⟩
  | item :: rest, events, values =>
    let run := f item
    let events := run.events.reverse ++ events
    match run.outcome with
    | .error error => ⟨events.reverse, .error error⟩
    | .ok value => mapFrom f rest events (value :: values)

/-- A run for each item in order, up to the first failure. -/
def mapAll {α β : Type} (f : α → Traced β) (items : List α) : Traced (List β) :=
  mapFrom f items [] []

end Traced

end TestDouble
