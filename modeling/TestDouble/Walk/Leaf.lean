import TestDouble.CompilationUnit

/-!
# Leaves of a unit

The leaves of a declaration are the package, the imports, the annotations, the type variables and
the types it names, in the order in which they stand in the source. Bodies have none.
-/

namespace TestDouble

/-- A node without further nodes below it. -/
inductive Leaf where
  | package (decl : PackageDecl)
  | importing (decl : ImportDecl)
  | type (type : TypeRef)
  | typeParameter (parameter : TypeParameter)
  | marker (mark : Annotation)

namespace Leaf

/-- What a listing says of the leaf. -/
def text : Leaf → String
  | package decl => decl.text
  | importing decl => decl.text
  | type t => "type " ++ t.text
  | typeParameter p => "param " ++ p.text
  | marker a => "@" ++ a.name

def span : Leaf → Span
  | package decl => decl.span
  | importing decl => decl.span
  | type t => t.span
  | typeParameter p => p.span
  | marker a => a.span

end Leaf

def Parameter.leaves (p : Parameter) : List Leaf := p.annotations.map .marker ++ [.type p.type]

def Field.leaves (f : Field) : List Leaf := f.annotations.map .marker ++ [.type f.type]

def Method.leaves (m : Method) : List Leaf :=
  m.annotations.map .marker ++ m.typeParameters.map .typeParameter ++ [.type m.returnType] ++
    m.parameters.flatMap Parameter.leaves ++ m.exceptions.map .type

def Constructor.leaves (c : Constructor) : List Leaf :=
  c.annotations.map .marker ++ c.typeParameters.map .typeParameter ++
    c.parameters.flatMap Parameter.leaves ++ c.exceptions.map .type

def NominalDecl.leaves (n : NominalDecl) : List Leaf := n.annotations.map .marker

mutual

def ClassDecl.leaves : ClassDecl → List Leaf
  | ⟨_, annotations, _, typeParameters, superclass, interfaces, body, _⟩ =>
    annotations.map .marker ++ typeParameters.map .typeParameter ++ superclass.toList.map .type ++
      interfaces.map .type ++ BodyMember.allLeaves body

def InterfaceDecl.leaves : InterfaceDecl → List Leaf
  | ⟨_, annotations, _, typeParameters, interfaces, body, _⟩ =>
    annotations.map .marker ++ typeParameters.map .typeParameter ++ interfaces.map .type ++
      BodyMember.allLeaves body

def TypeDecl.leaves : TypeDecl → List Leaf
  | .classDecl c => c.leaves
  | .interfaceDecl i => i.leaves
  | .nominal n => n.leaves

def BodyMember.leaves : BodyMember → List Leaf
  | .field f => f.leaves
  | .method m => m.leaves
  | .constructor c => c.leaves
  | .initializer _ => []
  | .type d => d.leaves

/-- The leaves of several members. -/
def BodyMember.allLeaves : List BodyMember → List Leaf
  | [] => []
  | member :: rest => member.leaves ++ BodyMember.allLeaves rest

end

/-- The leaves of a unit, in the order of the source. -/
def CompilationUnit.leaves (u : CompilationUnit) : List Leaf :=
  u.package.toList.map .package ++ u.imports.map .importing ++ u.types.flatMap TypeDecl.leaves

end TestDouble
