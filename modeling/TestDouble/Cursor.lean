import TestDouble.ParseError
import TestDouble.Token.Stream

/-!
# Reading tokens

A cursor stands between two tokens of a source. Every reader returns the cursor behind what it
read together with the proof that it moved on (`Consumed`) or at least did not move back
(`Reached`), so readers can call each other by recursion on the number of tokens ahead.
-/

namespace TestDouble

/-- A place in a list of tokens: the token last taken and the tokens ahead. -/
structure Cursor where
  last : Option Token
  ahead : List Token
  deriving Repr, Inhabited

namespace Cursor

/-- The cursor before the first token. -/
def start (tokens : List Token) : Cursor := ⟨none, tokens⟩

/-- The number of tokens ahead. -/
def size (c : Cursor) : Nat := c.ahead.length

/-- The place behind the token last taken. -/
def lastStop (c : Cursor) : Location :=
  match c.last with
  | some token => token.stop
  | none => .origin

/-- The place of the next token, or the end of what was read. -/
def location (c : Cursor) : Location :=
  match c.ahead with
  | token :: _ => token.location
  | [] => c.lastStop

/-- The kinds of the tokens ahead start with the given ones. -/
def sees (c : Cursor) (kinds : List Kind) : Bool :=
  kinds.isPrefixOf (c.ahead.take kinds.length |>.map Token.kind)

/-- The next token is the given identifier. -/
def seesWord (c : Cursor) (word : String) : Bool :=
  match c.ahead with
  | token :: _ => token.kind == .identifier && token.text == word
  | [] => false

/-- The error that something else was expected here. -/
def expected (c : Cursor) (what : String) : ParseError :=
  match c.ahead with
  | token :: _ => .located token.location (.unexpectedToken what token.text)
  | [] => .located c.lastStop (.unexpectedEnd what)

/-- The error that something else was expected behind all tokens. -/
def expectedAtEnd (c : Cursor) (what : String) : ParseError :=
  .located (Cursor.lastStop ⟨c.ahead.getLast?.or c.last, []⟩) (.unexpectedEnd what)

/-- The cursor behind the next `n` tokens, all of which are there. -/
def skip (c : Cursor) (n : Nat) (_within : n ≤ c.size) : Cursor :=
  ⟨(c.ahead.take n).getLast?.or c.last, c.ahead.drop n⟩

theorem size_le (c : Cursor) : c.size ≤ c.size := Nat.le_refl _

/-- Taking the next token leaves fewer ahead. -/
theorem size_tail_lt (before : Option Token) (token : Token) (rest : List Token) :
    Cursor.size ⟨some token, rest⟩ < Cursor.size ⟨before, token :: rest⟩ := by
  simp only [size, List.length_cons]
  omega

/-! Steps that follow each other, in the order of reading. -/

section

variable {a b c : Cursor}

theorem le_of_lt (first : b.size < a.size) : b.size ≤ a.size := Nat.le_of_lt first

theorem le_of_le_le (first : b.size ≤ a.size) (next : c.size ≤ b.size) : c.size ≤ a.size :=
  Nat.le_trans next first

theorem lt_of_le_lt (first : b.size ≤ a.size) (next : c.size < b.size) : c.size < a.size :=
  Nat.lt_of_lt_of_le next first

theorem lt_of_lt_le (first : b.size < a.size) (next : c.size ≤ b.size) : c.size < a.size :=
  Nat.lt_of_le_of_lt next first

theorem lt_of_lt_lt (first : b.size < a.size) (next : c.size < b.size) : c.size < a.size :=
  Nat.lt_trans next first

end

section

variable {c : Cursor} {n : Nat} (within : n ≤ c.size)

theorem size_skip : (c.skip n within).size = c.size - n := List.length_drop

theorem size_skip_le : (c.skip n within).size ≤ c.size := by
  rw [size_skip]
  exact Nat.sub_le ..

theorem size_skip_lt (positive : 0 < n) : (c.skip n within).size < c.size := by
  rw [size_skip]
  omega

end

end Cursor

/-- A value and the cursor behind the tokens it was read from: at least one. -/
structure Consumed (origin : Cursor) (α : Type) where
  value : α
  cursor : Cursor
  shorter : cursor.size < origin.size

/-- A value and the cursor behind the tokens it was read from: perhaps none. -/
structure Reached (origin : Cursor) (α : Type) where
  value : α
  cursor : Cursor
  notLonger : cursor.size ≤ origin.size

/-- The outcome of reading something that takes at least one token. -/
abbrev Reading (α : Type) (origin : Cursor) := Except ParseError (Consumed origin α)

/-- The outcome of reading something that may take no token. -/
abbrev Passing (α : Type) (origin : Cursor) := Except ParseError (Reached origin α)

namespace Cursor

/-- Take the next token if it has the given kind. -/
def accept? (c : Cursor) (kind : Kind) : Option (Consumed c Token) :=
  match c with
  | ⟨_, token :: rest⟩ =>
    if token.kind = kind then some ⟨token, ⟨some token, rest⟩, size_tail_lt ..⟩ else none
  | ⟨_, []⟩ => none

/-- Take the next two tokens if they have the given kinds; the second one is returned. -/
def acceptPair? (c : Cursor) (first second : Kind) : Option (Consumed c Token) :=
  match c with
  | ⟨_, t₁ :: t₂ :: rest⟩ =>
    if t₁.kind = first ∧ t₂.kind = second then
      some ⟨t₂, ⟨some t₂, rest⟩, by simp only [size, List.length_cons]; omega⟩
    else none
  | _ => none

/-- Take the next token if it is the given identifier. -/
def acceptWord? (c : Cursor) (word : String) : Option (Consumed c Token) :=
  match c with
  | ⟨_, token :: rest⟩ =>
    if token.kind = .identifier ∧ token.text = word then
      some ⟨token, ⟨some token, rest⟩, size_tail_lt ..⟩
    else none
  | ⟨_, []⟩ => none

/-- Take the next token, which must have the given kind. -/
def expect (c : Cursor) (kind : Kind) (what : String) : Reading Token c :=
  match c.accept? kind with
  | some taken => .ok taken
  | none => .error (c.expected what)

/-- Take an identifier. -/
def identifier (c : Cursor) : Reading String c := do
  let ⟨token, c₁, h₁⟩ ← c.expect .identifier "identifier"
  return ⟨token.text, c₁, h₁⟩

/-- The rest of a dotted name: as many `.name` as there are. -/
def nameTail (origin c : Cursor) (within : c.size < origin.size) (name : String) :
    Consumed origin String :=
  match c.acceptPair? .dot .identifier with
  | some ⟨token, c₁, h₁⟩ => nameTail origin c₁ (by omega) (name ++ "." ++ token.text)
  | none => ⟨name, c, within⟩
termination_by c.size

/-- Take identifiers with dots between them. A dot that no identifier follows is left. -/
def dottedName (c : Cursor) : Reading String c := do
  let ⟨name, c₁, h₁⟩ ← c.identifier
  return nameTail c c₁ h₁ name

/-- As many empty bracket pairs as there are, beyond the `n` counted so far. -/
def bracketPairs (origin c : Cursor) (within : c.size ≤ origin.size) (n : Nat) :
    Reached origin Nat :=
  match c.acceptPair? .leftBracket .rightBracket with
  | some ⟨_, c₁, h₁⟩ => bracketPairs origin c₁ (by omega) (n + 1)
  | none => ⟨n, c, within⟩
termination_by c.size

/-- Count the empty bracket pairs that come next. -/
def dimensions (c : Cursor) : Reached c Nat := bracketPairs c c (c.size_le) 0

/-- Items with a separator between two of them, behind those read so far (last one first). -/
def sepByTail {α : Type} (origin : Cursor) (separator : Kind)
    (item : (c : Cursor) → c.size ≤ origin.size → Reading α c)
    (c : Cursor) (within : c.size ≤ origin.size) (read : List α) : Reading (List α) origin := do
  let ⟨value, c₁, h₁⟩ ← item c within
  match c₁.accept? separator with
  | some ⟨_, c₂, h₂⟩ => sepByTail origin separator item c₂ (by omega) (value :: read)
  | none => return ⟨(value :: read).reverse, c₁, by omega⟩
termination_by c.size

/-- One item or more, with a separator between two of them. An item is told that it starts no
earlier than the list. -/
def sepBy {α : Type} (c : Cursor) (separator : Kind)
    (item : (c' : Cursor) → c'.size ≤ c.size → Reading α c') : Reading (List α) c :=
  sepByTail c separator item c (c.size_le) []

/-- Read something behind a token of the given kind, if there is one. -/
def clause {α : Type} (c : Cursor) (kind : Kind)
    (item : (c' : Cursor) → c'.size ≤ c.size → Reading α c') : Passing (Option α) c :=
  match c.accept? kind with
  | some ⟨_, c₁, h₁⟩ => do
    let ⟨value, c₂, h₂⟩ ← item c₁ (le_of_lt h₁)
    return ⟨some value, c₂, le_of_lt (lt_of_lt_lt h₁ h₂)⟩
  | none => return ⟨none, c, c.size_le⟩

end Cursor

end TestDouble
