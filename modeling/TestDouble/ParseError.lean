import TestDouble.Location

/-!
# Why a source cannot be read

A parse error has a place, a cause and the declarations it was met in, innermost first.
-/

namespace TestDouble

/-- What went wrong while a source was read. -/
inductive ParseError.Cause where
  | unexpectedToken (expected found : String)
  | unexpectedEnd (expected : String)
  | invalid (message : String)
  | lexical (message : String)
  deriving DecidableEq, Repr, Inhabited

/-- A failed reading. -/
structure ParseError where
  cause : ParseError.Cause
  location : Location
  contexts : List String
  deriving DecidableEq, Repr, Inhabited

namespace ParseError

/-- The error at a place, met in no declaration yet. -/
def located (location : Location) (cause : Cause) : ParseError := ⟨cause, location, []⟩

/-- The error as the surrounding declaration passes it on. -/
def within (e : ParseError) (context : String) : ParseError :=
  ⟨e.cause, e.location, e.contexts ++ [context]⟩

/-- A text with the contexts of the error behind it, innermost first. -/
def withContexts (e : ParseError) (text : String) : String :=
  text ++ String.join (e.contexts.map fun context => " (context: " ++ context ++ ")")

/-- What went wrong, without the place. The contexts stand behind what was expected. -/
def detail (e : ParseError) : String :=
  match e.cause with
  | .unexpectedToken expected found =>
    "expected " ++ e.withContexts expected ++ ", found " ++ found
  | .unexpectedEnd expected => "unexpected end of input, expected " ++ e.withContexts expected
  | .invalid message => e.withContexts message
  | .lexical message => e.withContexts message

/-- What went wrong, with the place. -/
def message (e : ParseError) : String :=
  match e.cause with
  | .lexical _ => "Lexical error at " ++ e.location.text ++ ": " ++ e.detail
  | _ => "Parse error at " ++ e.location.text ++ ": " ++ e.detail

end ParseError

end TestDouble
