import TestDouble.CompilationUnit
import TestDouble.Config
import TestDouble.Provider

/-!
# Subclasses for tests

A subclass has a counterpart for every member of the base class that is not abstract. The
counterparts are public, and a provider supplies their bodies. A declaration that cannot be
rebuilt makes the synthesis fail before any body is asked for.
-/

namespace TestDouble

/-- What a counterpart is: a constructor, or a method with a name and a return type. -/
inductive CounterpartKind where
  | constructor
  | method (name : String) (returnType : TypeRef)

/-- A member of a subclass. -/
structure Counterpart where
  kind : CounterpartKind
  modifiers : ModifierSet
  isOverride : Bool
  typeParameters : List TypeParameter
  parameters : List Parameter
  exceptions : List TypeRef
  statements : List Statement

namespace Counterpart

def name (m : Counterpart) : String :=
  match m.kind with
  | .constructor => constructorName
  | .method name _ => name

def isConstructor (m : Counterpart) : Bool :=
  match m.kind with
  | .constructor => true
  | .method _ _ => false

def returnType? (m : Counterpart) : Option TypeRef :=
  match m.kind with
  | .constructor => none
  | .method _ returnType => some returnType

/-- A parameter without modifiers and annotations. -/
def bare (p : Parameter) : Parameter := { p with modifiers := .empty, annotations := [] }

/-- The counterpart of a method. A private method is not overridden, so its counterpart carries no
such mark and declares the permissive exception; any other keeps its exceptions. -/
def ofMethod (m : Method) (permissiveException : String) (statements : List Statement) :
    Counterpart where
  kind := .method m.name m.returnType
  modifiers := m.modifiers.opened
  isOverride := !m.isPrivate
  typeParameters := m.typeParameters
  parameters := m.parameters.map bare
  exceptions := if m.isPrivate then [.named permissiveException] else m.exceptions
  statements := statements

/-- The counterpart of a constructor. It declares no exceptions. -/
def ofConstructor (c : Constructor) (statements : List Statement) : Counterpart where
  kind := .constructor
  modifiers := .ofList [.publicAccess]
  isOverride := false
  typeParameters := c.typeParameters
  parameters := c.parameters.map bare
  exceptions := []
  statements := statements

/-- The counterpart of a member. -/
def ofMember (config : Config) (statements : List Statement) : Member → Counterpart
  | .constructor c => ofConstructor c statements
  | .method m => ofMethod m config.permissiveException statements

end Counterpart

/-- A generated class. -/
structure Subclass where
  package : String
  name : String
  modifiers : ModifierSet
  typeParameters : List TypeParameter
  superclass : TypeRef
  members : List Counterpart

namespace Subclass

def qualifiedName (s : Subclass) : String := qualify s.package s.name

def constructors (s : Subclass) : List Counterpart := s.members.filter Counterpart.isConstructor

def methods (s : Subclass) : List Counterpart := s.members.filter (!·.isConstructor)

end Subclass

/-- Why a member of a class cannot be rebuilt, if it cannot: a constructor has to be named like
its class, and no method may take the name of constructors. -/
def Member.violation? (decl : ClassDecl) : Member → Option Error
  | .constructor c =>
    if c.name = decl.name then none
    else some (.malformed (decl.name ++ "." ++ c.name) .constructorName)
  | .method m =>
    if m.name = constructorName then
      some (.malformed (decl.name ++ "." ++ m.signature) .reservedName)
    else none

namespace ClassDecl

/-- The members of a class, with a record of how many there are. -/
def collect (decl : ClassDecl) : Traced (List Member) := do
  .log .trace ("collected " ++ toString decl.members.length ++ " members from " ++ decl.name)
  return decl.members

/-- The members that get a counterpart, with a record of each that does not. -/
def collectEligible (decl : ClassDecl) : Traced (List Member) := do
  let members ← decl.collect
  let skipped := members.filter Member.isAbstract
  .logAll .trace (skipped.map fun m => "skipping abstract " ++ m.signature)
  return members.filter Member.isEligible

/-- Ask for the body of a member and build its counterpart. -/
def rebuild (config : Config) (provider : Provider) (decl : ClassDecl) (name : String)
    (member : Member) : Traced Counterpart := do
  let supply ← provider.ask decl name member
  let report := name ++ ": " ++ toString supply.statements.length ++ " statement(s) for " ++
    member.signature
  .logAll .debug (if config.debug then [report] else [])
  return Counterpart.ofMember config supply.statements member

/-- Build the subclass of the given name in the given package. All members are checked before the
first body is asked for. -/
def synthesize (config : Config) (provider : Provider) (decl : ClassDecl) (package name : String) :
    Traced Subclass := do
  let members ← decl.collectEligible
  match members.findSome? (Member.violation? decl) with
  | some error => .failed error
  | none =>
    let counterparts ← Traced.mapAll (rebuild config provider decl name) members
    .log .debug ("synthesized " ++ name ++ " from " ++ decl.name ++ " with " ++
      toString counterparts.length ++ " member(s)")
    return ⟨package, name, .ofList [.publicAccess, .finalMember], decl.typeParameters, decl.asType,
      counterparts⟩

end ClassDecl

end TestDouble
