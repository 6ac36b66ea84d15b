/-!
# Locations and spans

A location counts lines and columns from one and bytes of UTF-8 from zero. A line feed starts a
line, a carriage return takes no column, and every other character takes one.
-/

namespace TestDouble

/-- A place in a source text. -/
structure Location where
  line : Nat
  column : Nat
  offset : Nat
  deriving DecidableEq, Repr, Inhabited

namespace Location

/-- Where every source text starts. -/
def origin : Location := ⟨1, 1, 0⟩

/-- The place behind one more character. -/
def step (location : Location) (c : Char) : Location :=
  if c = '\n' then ⟨location.line + 1, 1, location.offset + c.utf8Size⟩
  else if c = '\r' then ⟨location.line, location.column, location.offset + c.utf8Size⟩
  else ⟨location.line, location.column + 1, location.offset + c.utf8Size⟩

/-- The place behind a run of characters. -/
def after (location : Location) (text : List Char) : Location :=
  text.foldl step location

/-- Line and column, as messages quote them. -/
def text (location : Location) : String :=
  toString location.line ++ ":" ++ toString location.column

end Location

/-- The part of a source text that a node was read from. -/
structure Span where
  start : Location
  stop : Location
  deriving DecidableEq, Repr, Inhabited

/-- The span of a node that was built rather than read. -/
def Span.synthetic : Span := ⟨⟨0, 0, 0⟩, ⟨0, 0, 0⟩⟩

end TestDouble
