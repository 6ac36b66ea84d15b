import TestDouble.CompilationUnit
import TestDouble.Declaration.Reader
import TestDouble.Trace

/-!
# Reading compilation units

`CompilationUnit.read` turns a source into a unit. The log tells how many tokens there were and
which types were read, also when the reading fails later.
-/

namespace TestDouble

/-- Read the package declaration if there is one. -/
def PackageDecl.read? (c : Cursor) : Passing (Option PackageDecl) c :=
  match c.accept? .packageWord with
  | none => return ⟨none, c, c.size_le⟩
  | some ⟨_, c₁, h₁⟩ => do
    let ⟨name, c₂, h₂⟩ ← c₁.dottedName
    let ⟨_, c₃, h₃⟩ ← c₂.expect .semicolon "';' after package name"
    have named := Cursor.lt_of_lt_lt h₁ h₂
    have ended := Cursor.lt_of_lt_lt named h₃
    return ⟨some ⟨name, ⟨c.location, c₃.lastStop⟩⟩, c₃, Cursor.le_of_lt ended⟩

namespace ImportDecl

/-- Read the rest of an import behind the keyword. -/
def readRest (start : Location) (c : Cursor) : Reading ImportDecl c := do
  let ⟨isStatic, c₁, h₁⟩ : Reached c Bool :=
    match c.accept? (.modifier .staticMember) with
    | some ⟨_, c', h'⟩ => ⟨true, c', Cursor.le_of_lt h'⟩
    | none => ⟨false, c, c.size_le⟩
  let ⟨name, c₂, h₂⟩ ← c₁.dottedName
  let ⟨star, c₃, h₃⟩ ← c₂.clause .dot fun c' _ => c'.expect .star "'*' after '.' in import"
  let ⟨_, c₄, h₄⟩ ← c₃.expect .semicolon "';' after import"
  return ⟨⟨name, isStatic, star.isSome, ⟨start, c₄.lastStop⟩⟩, c₄,
    Cursor.lt_of_le_lt h₁ (Cursor.lt_of_lt_le h₂ (Cursor.le_of_lt (Cursor.lt_of_le_lt h₃ h₄)))⟩

/-- Read imports, behind those read so far (last one first). -/
def readFrom (origin c : Cursor) (within : c.size ≤ origin.size) (read : List ImportDecl) :
    Passing (List ImportDecl) origin :=
  match c.accept? .importWord with
  | none => return ⟨read.reverse, c, within⟩
  | some ⟨_, c₁, h₁⟩ => do
    let ⟨decl, c₂, h₂⟩ ← readRest c.location c₁
    readFrom origin c₂ (by omega) (decl :: read)
termination_by c.size

/-- Read the imports that come next. -/
def readAll (c : Cursor) : Passing (List ImportDecl) c := readFrom c c (c.size_le) []

end ImportDecl

/-- Read type declarations up to the end, behind those read so far (last one first). When one of
them cannot be read, those before it are returned with the error. -/
def TypeDecl.readAll (c : Cursor) (read : List TypeDecl) :
    List TypeDecl × Except ParseError Cursor :=
  if c.ahead.isEmpty then (read.reverse, .ok c)
  else
    match c.accept? .semicolon with
    | some ⟨_, c₁, _⟩ => TypeDecl.readAll c₁ read
    | none =>
      match TypeDecl.read c with
      | .ok ⟨decl, c₁, _⟩ => TypeDecl.readAll c₁ (decl :: read)
      | .error error => (read.reverse, .error error)
termination_by c.size

/-- What a source starts with: its package and its imports. -/
structure Preamble where
  package : Option PackageDecl
  imports : List ImportDecl
  deriving Inhabited

/-- Read the package and the imports. -/
def Preamble.read (c : Cursor) : Passing Preamble c := do
  let ⟨package, c₁, h₁⟩ ← PackageDecl.read? c
  let ⟨imports, c₂, h₂⟩ ← ImportDecl.readAll c₁
  return ⟨⟨package, imports⟩, c₂, Cursor.le_of_le_le h₁ h₂⟩

namespace CompilationUnit

/-- Read the tokens of a source: the types that were read, and the unit or the error that the
reading ended with. -/
def ofTokens (tokens : List Token) : List TypeDecl × Except ParseError CompilationUnit :=
  let c := Cursor.start tokens
  match Preamble.read c with
  | .error error => ([], .error error)
  | .ok ⟨preamble, c₁, _⟩ =>
    match TypeDecl.readAll c₁ [] with
    | (types, .error error) => (types, .error error)
    | (types, .ok c₂) =>
      (types, .ok ⟨preamble.package, preamble.imports, types, ⟨c.location, c₂.lastStop⟩⟩)

/-- Read a source. -/
def read (source : String) : Traced CompilationUnit :=
  match Token.ofSource source with
  | .error piece => .failed (.parse (.located ⟨0, 0, 0⟩ (.lexical piece.complaint)))
  | .ok tokens => do
    .log .trace ("lexed " ++ toString tokens.length ++ " tokens")
    let (types, outcome) := ofTokens tokens
    .logAll .debug (types.map fun type => "parsed " ++ type.text)
    .silent (outcome.mapError .parse)

/-- Read sources in order, up to the first that cannot be read. -/
def readAll (sources : List String) : Traced (List CompilationUnit) := Traced.mapAll read sources

/-- Read a source and look for a class in it; the name of its package comes with it. -/
def readClass (source name : String) : Traced (String × ClassDecl) := do
  let unit ← read source
  match unit.findClass? name with
  | some decl => return (unit.packageName, decl)
  | none => .failed (.classNotFound name)

end CompilationUnit

end TestDouble
