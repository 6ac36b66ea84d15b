import TestDouble.Declaration

/-!
# Members that can be rebuilt

The methods and constructors declared directly in a class. Abstract ones have nothing to forward
to and are left out of a subclass.
-/

namespace TestDouble

/-- A method or constructor of a class. -/
inductive Member where
  | constructor (constructor : Constructor)
  | method (method : Method)

namespace Member

/-- The method's name, or the reserved name of constructors. -/
def name : Member → String
  | constructor _ => constructorName
  | method m => m.name

def isConstructor : Member → Bool
  | constructor _ => true
  | method _ => false

def modifiers : Member → ModifierSet
  | constructor c => c.modifiers
  | method m => m.modifiers

def parameters : Member → List Parameter
  | constructor c => c.parameters
  | method m => m.parameters

def typeParameters : Member → List TypeParameter
  | constructor c => c.typeParameters
  | method m => m.typeParameters

def exceptions : Member → List TypeRef
  | constructor c => c.exceptions
  | method m => m.exceptions

/-- The return type; a constructor has none. -/
def returnType? : Member → Option TypeRef
  | constructor _ => none
  | method m => some m.returnType

/-- The body; a constructor always has one. -/
def body? : Member → Option Block
  | constructor c => some c.body
  | method m => m.body

def signature : Member → String
  | constructor c => c.signature
  | method m => m.signature

def isAbstract (m : Member) : Bool := m.modifiers.contains .abstractMember

/-- Whether the member gets a counterpart in a subclass. -/
def isEligible (m : Member) : Bool := !m.isAbstract

/-- The member that a part of a class body is, if it is one. -/
def ofBody? : BodyMember → Option Member
  | .method m => some (method m)
  | .constructor c => some (constructor c)
  | _ => none

end Member

/-- The methods and constructors declared directly in a class, in order. -/
def ClassDecl.members (c : ClassDecl) : List Member := c.body.filterMap Member.ofBody?

/-- The members of a class that get a counterpart, in order. -/
def ClassDecl.eligibleMembers (c : ClassDecl) : List Member := c.members.filter Member.isEligible

end TestDouble
