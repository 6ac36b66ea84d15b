import TestDouble.Block.Reader
import TestDouble.TypeRef.Reader

/-!
# Reading declarations

Types and their members, by recursive descent. Bodies of enumerations, records and annotation
types are passed by counting braces.
-/

namespace TestDouble

namespace Parameter

/-- Read a parameter. The receiver parameter, named `this`, is read but is none. -/
def read (c : Cursor) : Reading (Option Parameter) c := do
  let ⟨q, c₁, h₁⟩ ← Qualifiers.read c
  let ⟨type, c₂, h₂⟩ ← TypeRef.read c₁
  let ⟨_, c₃, h₃⟩ ← Annotation.pass c₂
  let ⟨variadic, c₄, h₄⟩ : Reached c₃ Bool :=
    match c₃.accept? .ellipsis with
    | some ⟨_, c', h'⟩ => ⟨true, c', Cursor.le_of_lt h'⟩
    | none => ⟨false, c₃, c₃.size_le⟩
  have qualified := Cursor.lt_of_le_lt h₁ h₂
  have marked := Cursor.lt_of_lt_le qualified h₃
  have typed := Cursor.lt_of_lt_le marked h₄
  match c₄.accept? .thisWord with
  | some ⟨_, c₅, h₅⟩ => return ⟨none, c₅, Cursor.lt_of_lt_lt typed h₅⟩
  | none =>
    let ⟨name, c₅, h₅⟩ ← c₄.identifier
    let ⟨n, c₆, h₆⟩ := c₅.dimensions
    have named := Cursor.lt_of_lt_lt typed h₅
    return ⟨some ⟨q.modifiers, q.annotations, type.addDimensions n, name, variadic,
      ⟨c.location, c₆.lastStop⟩⟩, c₆, Cursor.lt_of_lt_le named h₆⟩

/-- Read a parameter list with its round brackets. -/
def readAll (c : Cursor) : Reading (List Parameter) c := do
  let ⟨_, c₁, h₁⟩ ← c.expect .leftParen "'(' to open parameter list"
  let ⟨parameters, c₂, h₂⟩ ← (
    if c₁.sees [.rightParen] then return ⟨[], c₁, c₁.size_le⟩
    else do
      let ⟨parameters, c₂, h₂⟩ ← c₁.sepBy .comma fun c' _ => read c'
      return ⟨parameters.filterMap id, c₂, Cursor.le_of_lt h₂⟩ : Passing (List Parameter) c₁)
  let ⟨_, c₃, h₃⟩ ← c₂.expect .rightParen "')' to close parameter list"
  have closed := Cursor.lt_of_le_lt h₂ h₃
  return ⟨parameters, c₃, Cursor.lt_of_lt_lt h₁ closed⟩

end Parameter

/-- One name of a field declaration, with its own dimensions and initializer, and the place behind
it. -/
structure Declarator where
  name : String
  dimensions : Nat
  initializer : Option Fragment
  stop : Location
  deriving Inhabited

namespace Declarator

/-- Whether the tokens ahead look like another declarator: a name and a sign that may follow one.
-/
def comesNext : List Token → Bool
  | name :: sign :: _ =>
    name.kind == .identifier && (sign.kind == .assign || sign.kind == .comma ||
      sign.kind == .semicolon || sign.kind == .leftBracket)
  | _ => false

/-- Where an initializer ends: at the semicolon, or at a comma that another declarator follows. -/
def endsInitializer : List Token → Bool
  | token :: rest => token.kind == .semicolon || (token.kind == .comma && comesNext rest)
  | [] => false

/-- Read the dimensions and the initializer behind a name. -/
def readRest (name : String) (c : Cursor) : Passing Declarator c := do
  let ⟨n, c₁, h₁⟩ := c.dimensions
  let ⟨initializer, c₂, h₂⟩ ← c₁.clause .assign fun c' _ =>
    Fragment.readValue c' "field initializer" endsInitializer
  return ⟨⟨name, n, initializer, c₂.lastStop⟩, c₂, Cursor.le_of_le_le h₁ h₂⟩

/-- Read on behind the name of a declarator, up to the semicolon that ends the declaration. -/
def readAll (origin c : Cursor) (within : c.size ≤ origin.size) (name : String)
    (read : List Declarator) : Reading (List Declarator) origin := do
  let ⟨declarator, c₁, h₁⟩ ← readRest name c
  match c₁.accept? .comma with
  | some ⟨_, c₂, h₂⟩ =>
    let ⟨next, c₃, h₃⟩ ← c₂.identifier
    readAll origin c₃ (by omega) next (declarator :: read)
  | none =>
    let ⟨_, c₂, h₂⟩ ← c₁.expect .semicolon "';' after field declaration"
    return ⟨(declarator :: read).reverse, c₂, by omega⟩
termination_by c.size

/-- The field that a declarator declares. -/
def field (q : Qualifiers) (type : TypeRef) (start : Location) (d : Declarator) : Field :=
  ⟨q.modifiers, q.annotations, type.addDimensions d.dimensions, d.name, d.initializer,
   ⟨start, d.stop⟩⟩

end Declarator

/-- Read the rest of a method behind its name. -/
def Method.readRest (q : Qualifiers) (typeParameters : List TypeParameter) (returnType : TypeRef)
    (name : String) (start : Location) (c : Cursor) : Reading Method c := do
  let ⟨parameters, c₁, h₁⟩ ← Parameter.readAll c
  let ⟨n, c₂, h₂⟩ := c₁.dimensions
  let ⟨exceptions, c₃, h₃⟩ ← TypeRef.readClause c₂ .throwsWord
  let ⟨body, c₄, h₄⟩ ← (
    if c₃.sees [.leftBrace] then do
      let ⟨block, c₄, h₄⟩ ← Block.read c₃
      return ⟨some block, c₄, h₄⟩
    else do
      let ⟨_, c₄, h₄⟩ ← c₃.expect .semicolon "'\x7b' or ';' after method declaration"
      return ⟨none, c₄, h₄⟩ : Reading (Option Block) c₃)
  return ⟨⟨q.modifiers, q.annotations, typeParameters, returnType.addDimensions n, name,
    parameters, exceptions, body, ⟨start, c₄.lastStop⟩⟩, c₄,
    Cursor.lt_of_lt_lt (Cursor.lt_of_lt_le h₁ (Cursor.le_of_le_le h₂ h₃)) h₄⟩

/-- Read the rest of a constructor from its name on. -/
def Constructor.readRest (q : Qualifiers) (typeParameters : List TypeParameter) (start : Location)
    (c : Cursor) : Reading Constructor c := do
  let ⟨name, c₁, h₁⟩ ← c.identifier
  let ⟨parameters, c₂, h₂⟩ ← (Parameter.readAll c₁).mapError (·.within "constructor declaration")
  let ⟨exceptions, c₃, h₃⟩ ← TypeRef.readClause c₂ .throwsWord
  let ⟨body, c₄, h₄⟩ ← Block.read c₃
  return ⟨⟨q.modifiers, q.annotations, typeParameters, name, parameters, exceptions, body,
    ⟨start, c₄.lastStop⟩⟩, c₄,
    Cursor.lt_of_lt_lt (Cursor.lt_of_lt_le (Cursor.lt_of_lt_lt h₁ h₂) h₃) h₄⟩

namespace NominalDecl

/-- How many tokens stand before the brace that opens the body, beyond the `n` counted so far.
Braces inside round or angle brackets belong to the header. -/
def headerLength? : List Token → (depth n : Nat) → Option Nat
  | [], _, _ => none
  | token :: rest, depth, n =>
    match token.kind with
    | .leftBrace => if depth = 0 then some n else headerLength? rest depth (n + 1)
    | .leftParen | .less => headerLength? rest (depth + 1) (n + 1)
    | .rightParen | .greater => headerLength? rest (depth - 1) (n + 1)
    | _ => headerLength? rest depth (n + 1)

/-- How many tokens reach up to the brace that closes `depth + 1` braces, which is included,
beyond the `n` counted so far. -/
def bodyLength? : List Token → (depth n : Nat) → Option Nat
  | [], _, _ => none
  | token :: rest, depth, n =>
    match token.kind with
    | .leftBrace => bodyLength? rest (depth + 1) (n + 1)
    | .rightBrace => if depth = 0 then some (n + 1) else bodyLength? rest (depth - 1) (n + 1)
    | _ => bodyLength? rest depth (n + 1)

/-- A header ends before a brace. -/
theorem headerLength?_eq_some {ts : List Token} {depth n m : Nat}
    (found : headerLength? ts depth n = some m) :
    ∃ front brace rest, ts = front ++ brace :: rest ∧ m = n + front.length ∧
      brace.kind = .leftBrace := by
  induction ts generalizing depth n with
  | nil => cases found
  | cons t ts ih =>
    have later {depth : Nat} (found : headerLength? ts depth (n + 1) = some m) :
        ∃ front brace rest, t :: ts = front ++ brace :: rest ∧ m = n + front.length ∧
          brace.kind = .leftBrace := by
      obtain ⟨front, brace, rest, rfl, rfl, kind⟩ := ih found
      exact ⟨t :: front, brace, rest, rfl, by simp only [List.length_cons]; omega, kind⟩
    rw [headerLength?] at found
    split at found
    · split at found
      · obtain rfl := Option.some.inj found
        exact ⟨[], t, ts, rfl, rfl, ‹_›⟩
      · exact later found
    all_goals exact later found

/-- A body ends with a brace. -/
theorem bodyLength?_eq_some {ts : List Token} {depth n m : Nat}
    (found : bodyLength? ts depth n = some m) :
    ∃ front brace rest, ts = front ++ brace :: rest ∧ m = n + (front.length + 1) ∧
      brace.kind = .rightBrace := by
  induction ts generalizing depth n with
  | nil => cases found
  | cons t ts ih =>
    have later {depth : Nat} (found : bodyLength? ts depth (n + 1) = some m) :
        ∃ front brace rest, t :: ts = front ++ brace :: rest ∧ m = n + (front.length + 1) ∧
          brace.kind = .rightBrace := by
      obtain ⟨front, brace, rest, rfl, rfl, kind⟩ := ih found
      exact ⟨t :: front, brace, rest, rfl, by simp only [List.length_cons]; omega, kind⟩
    rw [bodyLength?] at found
    split at found
    · exact later found
    · split at found
      · obtain rfl := Option.some.inj found
        exact ⟨[], t, ts, rfl, rfl, ‹_›⟩
      · exact later found
    · exact later found

/-- What a header and a body take is there. -/
theorem bodyLength?_le {c : Cursor} {n m : Nat}
    (body : bodyLength? (c.ahead.drop (n + 1)) 0 0 = some m) : n + 1 + m ≤ c.size := by
  obtain ⟨front, brace, rest, split, rfl, -⟩ := bodyLength?_eq_some body
  have length := congrArg List.length split
  rw [List.length_drop, List.length_append, List.length_cons] at length
  rw [Cursor.size]
  omega

/-- Take the words that introduce a type known by name only. -/
def kind? (c : Cursor) : Option (Consumed c NominalKind) :=
  match c.accept? .enumWord with
  | some ⟨_, c₁, h₁⟩ => some ⟨.enumeration, c₁, h₁⟩
  | none =>
    match c.acceptPair? .atSign .interfaceWord with
    | some ⟨_, c₁, h₁⟩ => some ⟨.annotationType, c₁, h₁⟩
    | none =>
      match c.acceptWord? "record" with
      | some ⟨_, c₁, h₁⟩ => some ⟨.record, c₁, h₁⟩
      | none => none

/-- Pass the header and the body. -/
def passBody (c : Cursor) : Passing Unit c :=
  match headerLength? c.ahead 0 0 with
  | none => .error (c.expectedAtEnd "'\x7b' to open type body")
  | some n =>
    match counted : bodyLength? (c.ahead.drop (n + 1)) 0 0 with
    | none => .error (c.expectedAtEnd "'\x7d'")
    | some m => .ok ⟨(), c.skip (n + 1 + m) (bodyLength?_le counted), Cursor.size_skip_le _⟩

/-- Read the rest of a type known by name only, from its name on. -/
def readRest (kind : NominalKind) (q : Qualifiers) (start : Location) (c : Cursor) :
    Reading NominalDecl c := do
  let ⟨name, c₁, h₁⟩ ← c.identifier
  let ⟨_, c₂, h₂⟩ ← passBody c₁
  return ⟨⟨kind, q.modifiers, q.annotations, name, ⟨start, c₂.lastStop⟩⟩, c₂,
    Cursor.lt_of_lt_le h₁ h₂⟩

end NominalDecl

/-- A member as an interface declares it: its methods are public and, without code, abstract; its
fields are public constants. -/
def BodyMember.inInterface : BodyMember → BodyMember
  | .method m =>
    let opened := if m.isPrivate then m.modifiers else m.modifiers.insert .publicAccess
    let hasCode := m.body.isSome || opened.contains .defaultMethod ||
      opened.contains .staticMember || m.isPrivate
    .method { m with modifiers := if hasCode then opened else opened.insert .abstractMember }
  | .field f =>
    .field { f with modifiers :=
      ((f.modifiers.insert .publicAccess).insert .staticMember).insert .finalMember }
  | other => other

/-- Whether a type declaration comes next rather than a member. -/
def TypeDecl.comesNext (c : Cursor) : Bool :=
  c.sees [.classWord] || c.sees [.interfaceWord] || c.sees [.enumWord] ||
    c.sees [.atSign, .interfaceWord] ||
    (c.seesWord "record" && c.sees [.identifier, .identifier])

/-- Pass the types that a sealed type permits. -/
def TypeDecl.passPermits (c : Cursor) : Passing Unit c :=
  match c.acceptWord? "permits" with
  | some ⟨_, c₁, h₁⟩ => do
    let ⟨_, c₂, h₂⟩ ← TypeRef.readList c₁
    have listed := Cursor.lt_of_lt_lt h₁ h₂
    return ⟨(), c₂, Cursor.le_of_lt listed⟩
  | none => return ⟨(), c, c.size_le⟩

mutual

/-- Read a type declaration behind its modifiers and annotations. -/
def TypeDecl.readRest (q : Qualifiers) (start : Location) (c : Cursor) : Reading TypeDecl c :=
  match c.accept? .classWord with
  | some ⟨_, c₁, h₁⟩ => do
    let ⟨name, c₂, h₂⟩ ← c₁.identifier
    let ⟨typeParameters, c₃, h₃⟩ ← TypeParameter.readAll c₂
    let ⟨superclass, c₄, h₄⟩ ← c₃.clause .extendsWord fun c' _ => TypeRef.read c'
    let ⟨interfaces, c₅, h₅⟩ ← TypeRef.readClause c₄ .implementsWord
    let ⟨_, c₆, h₆⟩ ← TypeDecl.passPermits c₅
    let ⟨body, c₇, h₇⟩ ← (BodyMember.readBody c₆).mapError (·.within ("class " ++ name))
    return ⟨.classDecl ⟨q.modifiers, q.annotations, name, typeParameters, superclass, interfaces,
      body, ⟨start, c₇.lastStop⟩⟩, c₇, by omega⟩
  | none =>
    match c.accept? .interfaceWord with
    | some ⟨_, c₁, h₁⟩ => do
      let ⟨name, c₂, h₂⟩ ← c₁.identifier
      let ⟨typeParameters, c₃, h₃⟩ ← TypeParameter.readAll c₂
      let ⟨interfaces, c₄, h₄⟩ ← TypeRef.readClause c₃ .extendsWord
      let ⟨_, c₅, h₅⟩ ← TypeDecl.passPermits c₄
      let ⟨body, c₆, h₆⟩ ← (BodyMember.readBody c₅).mapError (·.within ("interface " ++ name))
      return ⟨.interfaceDecl ⟨q.modifiers, q.annotations, name, typeParameters, interfaces,
        body.map BodyMember.inInterface, ⟨start, c₆.lastStop⟩⟩, c₆, by omega⟩
    | none =>
      match NominalDecl.kind? c with
      | some ⟨kind, c₁, h₁⟩ => do
        let ⟨decl, c₂, h₂⟩ ← NominalDecl.readRest kind q start c₁
        return ⟨.nominal decl, c₂, by omega⟩
      | none => .error (c.expected "type declaration")
termination_by 4 * c.size

/-- Read the body of a class or interface with its braces. -/
def BodyMember.readBody (c : Cursor) : Reading (List BodyMember) c := do
  let ⟨_, c₁, h₁⟩ ← c.expect .leftBrace "'\x7b' to open class body"
  BodyMember.readAll c c₁ h₁ []
termination_by 4 * c.size + 3

/-- Read members up to the brace that closes the body, which is passed, behind those read so far
(last one first). -/
def BodyMember.readAll (origin c : Cursor) (within : c.size < origin.size)
    (read : List BodyMember) : Reading (List BodyMember) origin :=
  match c.accept? .rightBrace with
  | some ⟨_, c₁, h₁⟩ => .ok ⟨read.reverse, c₁, by omega⟩
  | none =>
    if c.ahead.isEmpty then .error (c.expected "'\x7d' to close class body")
    else
      match c.accept? .semicolon with
      | some ⟨_, c₁, h₁⟩ => BodyMember.readAll origin c₁ (by omega) read
      | none => do
        let ⟨members, c₁, h₁⟩ ← BodyMember.read c
        BodyMember.readAll origin c₁ (by omega) (members.reverse ++ read)
termination_by 4 * c.size + 2

/-- Read a member. A field declaration gives one member for each of its names. -/
def BodyMember.read (c : Cursor) : Reading (List BodyMember) c := do
  if c.sees [.leftBrace] then
    let ⟨body, c₁, h₁⟩ ← Block.read c
    return ⟨[.initializer ⟨false, body, ⟨c.location, c₁.lastStop⟩⟩], c₁, h₁⟩
  else if c.sees [.modifier .staticMember, .leftBrace] then
    let ⟨_, c₁, h₁⟩ ← c.expect (.modifier .staticMember) "'static'"
    let ⟨body, c₂, h₂⟩ ← Block.read c₁
    return ⟨[.initializer ⟨true, body, ⟨c.location, c₂.lastStop⟩⟩], c₂, by omega⟩
  else
    let ⟨q, c₁, h₁⟩ ← Qualifiers.read c
    if TypeDecl.comesNext c₁ then
      let ⟨decl, c₂, h₂⟩ ← TypeDecl.readRest q c.location c₁
      return ⟨[.type decl], c₂, by omega⟩
    else
      let ⟨typeParameters, c₂, h₂⟩ ← TypeParameter.readAll c₁
      if c₂.sees [.identifier, .leftParen] then
        let ⟨constructor, c₃, h₃⟩ ← Constructor.readRest q typeParameters c.location c₂
        return ⟨[.constructor constructor], c₃, by omega⟩
      else
        let ⟨type, c₃, h₃⟩ ← TypeRef.read c₂
        let ⟨name, c₄, h₄⟩ ← c₃.identifier
        if c₄.sees [.leftParen] then
          let ⟨method, c₅, h₅⟩ ← (Method.readRest q typeParameters type name c.location c₄).mapError
            (·.within "method declaration")
          return ⟨[.method method], c₅, by omega⟩
        else if !typeParameters.isEmpty then
          throw (c₄.expected "'(' after generic method name")
        else
          let ⟨declarators, c₅, h₅⟩ ← Declarator.readAll c₄ c₄ c₄.size_le name []
          return ⟨declarators.map fun d => .field (d.field q type c.location), c₅, by omega⟩
termination_by 4 * c.size + 1

end

/-- Read a type declaration. -/
def TypeDecl.read (c : Cursor) : Reading TypeDecl c := do
  let ⟨q, c₁, h₁⟩ ← Qualifiers.read c
  let ⟨decl, c₂, h₂⟩ ← TypeDecl.readRest q c.location c₁
  return ⟨decl, c₂, Cursor.lt_of_le_lt h₁ h₂⟩

end TestDouble
