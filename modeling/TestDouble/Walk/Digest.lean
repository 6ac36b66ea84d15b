import TestDouble.Walk.Leaf

/-!
# Digests of members

The digest of a member tells where it starts and which leaves it has: those of its declaration and
then once more those of its parts. The members of a nested type come before the type itself.
-/

namespace TestDouble

/-- Where a member starts and the leaves found in it. -/
structure Digest where
  start : Location
  leaves : List Leaf

def Digest.text (d : Digest) : String :=
  d.start.text ++ " " ++ String.intercalate " | " (d.leaves.map Leaf.text)

/-- The leaves of a method, and then those of its parameters, type variables, annotations and
return type by themselves. -/
def Method.digestLeaves (m : Method) : List Leaf :=
  m.leaves ++ m.parameters.flatMap Parameter.leaves ++ m.typeParameters.map .typeParameter ++
    m.annotations.map .marker ++ [.type m.returnType]

mutual

def TypeDecl.digests : TypeDecl → List Digest
  | .classDecl c => c.digests
  | .interfaceDecl i => i.digests
  | .nominal _ => []

def ClassDecl.digests : ClassDecl → List Digest
  | ⟨_, _, _, _, _, _, body, _⟩ => BodyMember.allDigests body

def InterfaceDecl.digests : InterfaceDecl → List Digest
  | ⟨_, _, _, _, _, body, _⟩ => BodyMember.allDigests body

/-- The digest of a member, behind those of the members inside it. -/
def BodyMember.digests : BodyMember → List Digest
  | .field f => [⟨f.span.start, f.leaves⟩]
  | .method m => [⟨m.span.start, m.digestLeaves⟩]
  | .constructor c => [⟨c.span.start, c.leaves⟩]
  | .initializer i => [⟨i.span.start, []⟩]
  | .type d => d.digests ++ [⟨(BodyMember.type d).span.start, d.leaves⟩]

/-- The digests of several members. -/
def BodyMember.allDigests : List BodyMember → List Digest
  | [] => []
  | member :: rest => member.digests ++ BodyMember.allDigests rest

end

/-- The digests of all members of a unit. -/
def CompilationUnit.digests (u : CompilationUnit) : List Digest :=
  u.types.flatMap TypeDecl.digests

end TestDouble
