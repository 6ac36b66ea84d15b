import TestDouble.Token.Stream

/-!
# Bodies

A body is a block of statements. Nested blocks are kept as blocks; every other statement is kept as
the source text it was written as.
-/

namespace TestDouble

/-- A stretch of source text, kept as it was written. -/
structure Fragment where
  text : String
  span : Span
  deriving DecidableEq, Repr, Inhabited

/-- The text from one token to the last of those that follow it. The span runs from the start of
the first token to the start of the last. -/
def Fragment.ofTokens (first : Token) (more : List Token) : Fragment :=
  ⟨more.foldl (fun text token => text ++ token.leading ++ token.text) first.text,
   ⟨first.location, (more.getLast?.getD first).location⟩⟩

mutual

/-- Statements between braces. -/
structure Block where
  statements : List BodyStatement
  span : Span

/-- A statement of a body. -/
inductive BodyStatement where
  | block (block : Block)
  | fragment (fragment : Fragment)
  | empty

end

instance : Inhabited Block := ⟨⟨[], .synthetic⟩⟩

mutual

/-- The fragments of a block, those of nested blocks in their place, put in front of those
collected so far: the last one comes first. -/
def Block.collect : Block → List Fragment → List Fragment
  | ⟨statements, _⟩, collected => BodyStatement.collectAll statements collected

/-- The fragments of a statement, put in front of those collected so far. -/
def BodyStatement.collect : BodyStatement → List Fragment → List Fragment
  | .block block, collected => block.collect collected
  | .fragment fragment, collected => fragment :: collected
  | .empty, collected => collected

/-- The fragments of several statements, put in front of those collected so far. -/
def BodyStatement.collectAll : List BodyStatement → List Fragment → List Fragment
  | [], collected => collected
  | statement :: rest, collected => BodyStatement.collectAll rest (statement.collect collected)

end

/-- The fragments of a block in order, those of nested blocks in their place. -/
def Block.fragments (block : Block) : List Fragment := (block.collect []).reverse

end TestDouble
