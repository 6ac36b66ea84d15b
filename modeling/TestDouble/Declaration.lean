import TestDouble.Annotation
import TestDouble.Body
import TestDouble.TypeRef

/-!
# Declarations

Classes and interfaces with their members. Enumerations, records and annotation types are known by
name only.
-/

namespace TestDouble

/-- What may stand before a declaration: modifiers and annotations. -/
structure Qualifiers where
  modifiers : ModifierSet
  annotations : List Annotation
  deriving Inhabited

/-- A parameter of a method or constructor. -/
structure Parameter where
  modifiers : ModifierSet
  annotations : List Annotation
  type : TypeRef
  name : String
  variadic : Bool
  span : Span
  deriving Inhabited

namespace Parameter

/-- The type with the mark of a variable number of arguments. -/
def typeText (p : Parameter) : String :=
  if p.variadic then p.type.text ++ "..." else p.type.text

/-- The parameter as it is written in a header, without modifiers. -/
def text (p : Parameter) : String := p.typeText ++ " " ++ p.name

end Parameter

/-- The name that constructors go by. -/
def constructorName : String := "<init>"

/-- A name with the types of its parameters. -/
def signatureOf (name : String) (parameters : List Parameter) : String :=
  name ++ "(" ++ String.intercalate ", " (parameters.map Parameter.typeText) ++ ")"

/-- A field; a declaration of several fields is one of these for each. -/
structure Field where
  modifiers : ModifierSet
  annotations : List Annotation
  type : TypeRef
  name : String
  initializer : Option Fragment
  span : Span
  deriving Inhabited

/-- A method, with or without a body. -/
structure Method where
  modifiers : ModifierSet
  annotations : List Annotation
  typeParameters : List TypeParameter
  returnType : TypeRef
  name : String
  parameters : List Parameter
  exceptions : List TypeRef
  body : Option Block
  span : Span
  deriving Inhabited

namespace Method

def isPrivate (m : Method) : Bool := m.modifiers.contains .privateAccess

def isStatic (m : Method) : Bool := m.modifiers.contains .staticMember

/-- The name with the parameter types. -/
def signature (m : Method) : String := signatureOf m.name m.parameters

end Method

/-- A constructor; its name is kept as written, whatever the class is called. -/
structure Constructor where
  modifiers : ModifierSet
  annotations : List Annotation
  typeParameters : List TypeParameter
  name : String
  parameters : List Parameter
  exceptions : List TypeRef
  body : Block
  span : Span
  deriving Inhabited

/-- The reserved name with the parameter types. -/
def Constructor.signature (c : Constructor) : String := signatureOf constructorName c.parameters

/-- An initializer block of a class. -/
structure Initializer where
  isStatic : Bool
  body : Block
  span : Span
  deriving Inhabited

/-- The kinds of types that are known by name only. -/
inductive NominalKind where
  | enumeration
  | annotationType
  | record
  deriving DecidableEq, Repr, Inhabited

/-- The words that introduce such a type. -/
def NominalKind.keyword : NominalKind → String
  | enumeration => "enum"
  | annotationType => "@interface"
  | record => "record"

/-- A type that is known by name only. -/
structure NominalDecl where
  kind : NominalKind
  modifiers : ModifierSet
  annotations : List Annotation
  name : String
  span : Span
  deriving Inhabited

mutual

/-- A class. -/
structure ClassDecl where
  modifiers : ModifierSet
  annotations : List Annotation
  name : String
  typeParameters : List TypeParameter
  superclass : Option TypeRef
  interfaces : List TypeRef
  body : List BodyMember
  span : Span

/-- An interface. -/
structure InterfaceDecl where
  modifiers : ModifierSet
  annotations : List Annotation
  name : String
  typeParameters : List TypeParameter
  interfaces : List TypeRef
  body : List BodyMember
  span : Span

/-- A type declaration, at the top of a source or inside another type. -/
inductive TypeDecl where
  | classDecl (decl : ClassDecl)
  | interfaceDecl (decl : InterfaceDecl)
  | nominal (decl : NominalDecl)

/-- What a class or interface declares in its body. -/
inductive BodyMember where
  | field (field : Field)
  | method (method : Method)
  | constructor (constructor : Constructor)
  | initializer (initializer : Initializer)
  | type (decl : TypeDecl)

end

namespace ClassDecl

/-- The class as a type of its own, its type variables as arguments: `Box<T>` for
`class Box<T extends Number>`. -/
def asType (c : ClassDecl) : TypeRef :=
  ⟨c.name, c.typeParameters.map fun p => .type (.named p.name), 0, none, c.span⟩

/-- The methods declared directly in the class. -/
def methods (c : ClassDecl) : List Method :=
  c.body.filterMap fun
    | .method m => some m
    | _ => none

/-- The constructors declared directly in the class. -/
def constructors (c : ClassDecl) : List Constructor :=
  c.body.filterMap fun
    | .constructor k => some k
    | _ => none

/-- The class with every method of the first name called by the second. -/
def renameMethod (c : ClassDecl) (name newName : String) : ClassDecl :=
  { c with body := c.body.map fun
    | .method m => .method (if m.name = name then { m with name := newName } else m)
    | other => other }

end ClassDecl

namespace TypeDecl

/-- The kind and name of a type. -/
def text : TypeDecl → String
  | classDecl c => "class " ++ c.name
  | interfaceDecl i => "interface " ++ i.name
  | nominal n => n.kind.keyword ++ " " ++ n.name

end TypeDecl

/-- The span of a member: for a nested type that of the type. -/
def BodyMember.span : BodyMember → Span
  | field f => f.span
  | method m => m.span
  | constructor c => c.span
  | initializer i => i.span
  | type (.classDecl c) => c.span
  | type (.interfaceDecl i) => i.span
  | type (.nominal n) => n.span

end TestDouble
