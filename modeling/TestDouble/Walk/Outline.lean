import TestDouble.Walk.Leaf

/-!
# The outline of a unit

The outline names every node of a unit before the nodes below it, bodies included. The package and
the imports are left out, and fields and parameters are named without what they consist of.
-/

namespace TestDouble

/-- An entry of an outline. -/
inductive Heading where
  | unit (types : Nat)
  | decl (text : String)
  | classDecl (name : String)
  | interfaceDecl (name : String)
  | member
  | method (signature : String)
  | constructor (signature : String)
  | field (name : String)
  | parameter (text : String)
  | block (statements : Nat)
  | fragment (text : String)
  | empty
  | leaf (leaf : Leaf)

def Heading.text : Heading → String
  | unit types => "ast " ++ toString types
  | decl text => "decl " ++ text
  | classDecl name => "class " ++ name
  | interfaceDecl name => "interface " ++ name
  | member => "member"
  | method signature => "method " ++ signature
  | constructor signature => "constructor " ++ signature
  | field name => "field " ++ name
  | parameter text => "parameter " ++ text
  | block statements => "block " ++ toString statements
  | fragment text => "fragment " ++ text
  | empty => "empty"
  | leaf l => l.text

mutual

def Block.outline : Block → List Heading
  | ⟨statements, _⟩ => .block statements.length :: BodyStatement.allOutlines statements

def BodyStatement.outline : BodyStatement → List Heading
  | .block block => block.outline
  | .fragment fragment => [.fragment fragment.text]
  | .empty => [.empty]

/-- The outlines of several statements. -/
def BodyStatement.allOutlines : List BodyStatement → List Heading
  | [] => []
  | statement :: rest => statement.outline ++ BodyStatement.allOutlines rest

end

/-- Leaves as headings. -/
def Heading.leaves (leaves : List Leaf) : List Heading := leaves.map .leaf

def Method.outline (m : Method) : List Heading :=
  .method m.signature :: (
    Heading.leaves (m.annotations.map .marker ++ m.typeParameters.map .typeParameter ++
      [.type m.returnType]) ++
    m.parameters.map (fun p => .parameter p.text) ++ Heading.leaves (m.exceptions.map .type) ++
    m.body.toList.flatMap Block.outline)

def Constructor.outline (c : Constructor) : List Heading :=
  .constructor c.signature :: (
    Heading.leaves (c.annotations.map .marker ++ c.typeParameters.map .typeParameter) ++
    c.parameters.map (fun p => .parameter p.text) ++ Heading.leaves (c.exceptions.map .type) ++
    c.body.outline)

mutual

def ClassDecl.outline : ClassDecl → List Heading
  | ⟨_, annotations, name, typeParameters, superclass, interfaces, body, _⟩ =>
    .classDecl name :: (
      Heading.leaves (annotations.map .marker ++ typeParameters.map .typeParameter ++
        superclass.toList.map .type ++ interfaces.map .type) ++ BodyMember.allOutlines body)

def InterfaceDecl.outline : InterfaceDecl → List Heading
  | ⟨_, annotations, name, typeParameters, interfaces, body, _⟩ =>
    .interfaceDecl name :: (
      Heading.leaves (annotations.map .marker ++ typeParameters.map .typeParameter ++
        interfaces.map .type) ++ BodyMember.allOutlines body)

def TypeDecl.outline : TypeDecl → List Heading
  | .classDecl c => .decl (TypeDecl.classDecl c).text :: c.outline
  | .interfaceDecl i => .decl (TypeDecl.interfaceDecl i).text :: i.outline
  | .nominal n => .decl (TypeDecl.nominal n).text :: Heading.leaves n.leaves

def BodyMember.outline : BodyMember → List Heading
  | .field f => [.member, .field f.name]
  | .method m => .member :: m.outline
  | .constructor c => .member :: c.outline
  | .initializer i => .member :: i.body.outline
  | .type d => .member :: d.outline

/-- The outlines of several members. -/
def BodyMember.allOutlines : List BodyMember → List Heading
  | [] => []
  | member :: rest => member.outline ++ BodyMember.allOutlines rest

end

/-- The outline of a unit. -/
def CompilationUnit.outline (u : CompilationUnit) : List Heading :=
  .unit u.types.length :: u.types.flatMap TypeDecl.outline

end TestDouble
