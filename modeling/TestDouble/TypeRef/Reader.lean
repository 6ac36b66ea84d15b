import TestDouble.Annotation.Reader

/-!
# Reading types

A type is a primitive keyword or a dotted name whose parts may carry type arguments, followed by
bracket pairs. Annotations inside a type are passed.
-/

namespace TestDouble

/-- Count the bracket pairs behind a type, beyond the `n` counted so far; annotations may stand
before each pair. -/
def TypeRef.readDimensions (origin c : Cursor) (within : c.size < origin.size) (n : Nat) :
    Reading Nat origin := do
  let ⟨_, c₁, h₁⟩ ← Annotation.pass c
  match c₁.acceptPair? .leftBracket .rightBracket with
  | some ⟨_, c₂, h₂⟩ => TypeRef.readDimensions origin c₂ (by omega) (n + 1)
  | none => return ⟨n, c₁, by omega⟩
termination_by c.size

/-- Take a primitive keyword. -/
def TypeRef.primitive? (c : Cursor) : Option (Consumed c Token) :=
  match c with
  | ⟨_, token :: rest⟩ =>
    match token.kind with
    | .primitive _ => some ⟨token, ⟨some token, rest⟩, Cursor.size_tail_lt ..⟩
    | _ => none
  | ⟨_, []⟩ => none

mutual

/-- Read a type. -/
def TypeRef.read (c : Cursor) : Reading TypeRef c := do
  let ⟨_, c₁, h₁⟩ ← Annotation.pass c
  let ⟨base, c₂, h₂⟩ ← TypeRef.readBase c₁
  let ⟨dimensions, c₃, h₃⟩ ← TypeRef.readDimensions c c₂ (by omega) 0
  return ⟨{ base with dimensions, span := ⟨c₁.location, c₃.lastStop⟩ }, c₃, h₃⟩
termination_by 4 * c.size + 2

/-- Read a type up to its array dimensions. -/
def TypeRef.readBase (c : Cursor) : Reading TypeRef c :=
  match TypeRef.primitive? c with
  | some ⟨token, c₁, h₁⟩ => .ok ⟨.named token.text, c₁, h₁⟩
  | none =>
    match c.accept? .identifier with
    | some ⟨token, c₁, h₁⟩ => TypeRef.readParts c c.location c₁ h₁ token.text none
    | none => .error (c.expected "type")
termination_by 4 * c.size + 1

/-- Read on behind a part of a dotted name. A part with type arguments becomes the enclosing type
of the parts that follow. -/
def TypeRef.readParts (origin : Cursor) (start : Location) (c : Cursor)
    (within : c.size < origin.size) (name : String) (enclosing : Option TypeRef) :
    Reading TypeRef origin := do
  let ⟨arguments, c₁, h₁⟩ ← (
    if c.sees [.less] then do
      let ⟨arguments, c₁, h₁⟩ ← TypeArgument.readAll c
      return ⟨arguments, c₁, by omega⟩
    else return ⟨[], c, c.size_le⟩ : Passing (List TypeArgument) c)
  match c₁.acceptPair? .dot .identifier with
  | some ⟨token, c₂, h₂⟩ =>
    if arguments.isEmpty then
      TypeRef.readParts origin start c₂ (by omega) (name ++ "." ++ token.text) enclosing
    else
      TypeRef.readParts origin start c₂ (by omega) token.text
        (some ⟨name, arguments, 0, enclosing, ⟨start, c₁.lastStop⟩⟩)
  | none => return ⟨⟨name, arguments, 0, enclosing, ⟨start, c₁.lastStop⟩⟩, c₁, by omega⟩
termination_by 4 * c.size + 1

/-- Read type arguments with their angle brackets; there may be none between them. -/
def TypeArgument.readAll (c : Cursor) : Reading (List TypeArgument) c := do
  let ⟨_, c₁, h₁⟩ ← c.expect .less "'<' for type arguments"
  match c₁.accept? .greater with
  | some ⟨_, c₂, h₂⟩ => return ⟨[], c₂, Cursor.lt_of_lt_lt h₁ h₂⟩
  | none =>
    let ⟨arguments, c₂, h₂⟩ ← c₁.sepBy .comma fun c' _ => TypeArgument.read c'
    let ⟨_, c₃, h₃⟩ ← c₂.expect .greater "'>' after type arguments"
    return ⟨arguments, c₃, Cursor.lt_of_lt_lt h₁ (Cursor.lt_of_lt_lt h₂ h₃)⟩
termination_by 4 * c.size + 0

/-- Read one type argument. -/
def TypeArgument.read (c : Cursor) : Reading TypeArgument c := do
  let ⟨_, c₁, h₁⟩ ← Annotation.pass c
  match c₁.accept? .question with
  | some ⟨_, c₂, h₂⟩ =>
    match c₂.accept? .extendsWord with
    | some ⟨_, c₃, h₃⟩ =>
      let ⟨bound, c₄, h₄⟩ ← TypeRef.read c₃
      return ⟨.bounded .upper bound ⟨c₁.location, c₄.lastStop⟩, c₄, by omega⟩
    | none =>
      match c₂.accept? .superWord with
      | some ⟨_, c₃, h₃⟩ =>
        let ⟨bound, c₄, h₄⟩ ← TypeRef.read c₃
        return ⟨.bounded .lower bound ⟨c₁.location, c₄.lastStop⟩, c₄, by omega⟩
      | none => return ⟨.wildcard ⟨c₁.location, c₂.lastStop⟩, c₂, by omega⟩
  | none =>
    let ⟨type, c₂, h₂⟩ ← TypeRef.read c₁
    return ⟨.type type, c₂, by omega⟩
termination_by 4 * c.size + 3

end

/-- Read types with commas between them. -/
def TypeRef.readList (c : Cursor) : Reading (List TypeRef) c :=
  c.sepBy .comma fun c' _ => TypeRef.read c'

/-- Read a list of types behind a keyword; without the keyword there are none. -/
def TypeRef.readClause (c : Cursor) (keyword : Kind) : Passing (List TypeRef) c := do
  let ⟨types, c₁, h₁⟩ ← c.clause keyword fun c' _ => TypeRef.readList c'
  return ⟨types.getD [], c₁, h₁⟩

namespace TypeParameter

/-- Read the declaration of a type variable. -/
def read (c : Cursor) : Reading TypeParameter c := do
  let ⟨_, c₁, h₁⟩ ← Annotation.pass c
  let ⟨name, c₂, h₂⟩ ← c₁.identifier
  let ⟨bounds, c₃, h₃⟩ ← c₂.clause .extendsWord fun c' _ =>
    c'.sepBy .ampersand fun c'' _ => TypeRef.read c''
  return ⟨⟨name, bounds.getD [], ⟨c₁.location, c₃.lastStop⟩⟩, c₃,
    Cursor.lt_of_le_lt h₁ (Cursor.lt_of_lt_le h₂ h₃)⟩

/-- Read the type variables between angle brackets; without the opening bracket there are none. -/
def readAll (c : Cursor) : Passing (List TypeParameter) c :=
  match c.accept? .less with
  | none => return ⟨[], c, c.size_le⟩
  | some ⟨_, c₁, h₁⟩ => do
    let ⟨parameters, c₂, h₂⟩ ← c₁.sepBy .comma fun c' _ => read c'
    let ⟨_, c₃, h₃⟩ ← c₂.expect .greater "'>' after type parameters"
    return ⟨parameters, c₃, Cursor.le_of_lt (Cursor.lt_of_lt_lt h₁ (Cursor.lt_of_lt_lt h₂ h₃))⟩

end TypeParameter

end TestDouble
