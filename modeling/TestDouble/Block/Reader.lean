import TestDouble.Fragment.Reader

/-!
# Reading blocks

A block ends at its closing brace. Nested blocks are read as blocks, a lone semicolon is an empty
statement, and everything else is read as a fragment.
-/

namespace TestDouble.Block

/-- The number of statements from which on a block is too large. -/
def limit : Nat := 200000

mutual

/-- Read a block. -/
def read (c : Cursor) : Reading Block c := do
  let ⟨_, c₁, h₁⟩ ← c.expect .leftBrace "'\x7b' to open block"
  let ⟨statements, c₂, h₂⟩ ← readStatements c c.location c₁ h₁ 0 []
  return ⟨⟨statements, ⟨c.location, c₂.lastStop⟩⟩, c₂, h₂⟩
termination_by 2 * c.size + 0

/-- Read statements up to the closing brace, which is passed, behind the `count` statements read
so far (last one first). -/
def readStatements (origin : Cursor) (start : Location) (c : Cursor)
    (within : c.size < origin.size) (count : Nat) (read : List BodyStatement) :
    Reading (List BodyStatement) origin :=
  if limit ≤ count then .error (.located start (.invalid "block too large"))
  else
    match c.accept? .rightBrace with
    | some ⟨_, c₁, h₁⟩ => .ok ⟨read.reverse, c₁, by omega⟩
    | none =>
      match c.accept? .semicolon with
      | some ⟨_, c₁, h₁⟩ =>
        readStatements origin start c₁ (by omega) (count + 1) (.empty :: read)
      | none =>
        if c.ahead.isEmpty then .error (c.expected "'\x7d' to close block")
        else if c.sees [.leftBrace] then do
          let ⟨block, c₁, h₁⟩ ← Block.read c
          readStatements origin start c₁ (by omega) (count + 1) (.block block :: read)
        else do
          let ⟨fragment, c₁, h₁⟩ ← Fragment.readStatement c
          readStatements origin start c₁ (by omega) (count + 1) (.fragment fragment :: read)
termination_by 2 * c.size + 1

end

end TestDouble.Block
