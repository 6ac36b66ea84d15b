import TestDouble.Statement
import TestDouble.Trace

/-!
# Providers of bodies

A provider supplies the statements of each member of a subclass. The forwarding provider calls the
counterpart in the superclass: directly where it can be called, by reflection where it is private.
Providers are asked through `Provider.ask` only, which leaves a trace of the request.
-/

namespace TestDouble

/-- The statements for a body, with what there is to note in the log. -/
structure Supply where
  statements : List Statement
  notes : List Record := []

/-- A provider is given the base class, the name of the subclass and the member. -/
abbrev Provider := ClassDecl → String → Member → Supply

/-- The names of the parameters, as they are passed on. -/
def passedOn (parameters : List Parameter) : String :=
  String.intercalate ", " (parameters.map Parameter.name)

/-- Follow a name through the bounds of the type variables it may denote, for at most the given
number of steps. `none` when the bounds lead back to themselves. -/
def resolveName (scope : List TypeParameter) (name : String) : Nat → Option String
  | 0 => none
  | steps + 1 =>
    match scope.find? (·.name == name) with
    | none => some name
    | some found =>
      resolveName scope
        (match found.bounds with
          | [] => "Object"
          | bound :: _ => bound.rawName)
        steps

/-- The name of a type in a class literal: type variables are looked up in the scope, first match
first, and replaced by their first bound, or by `Object` when there is none or no end. -/
def TypeRef.erasedIn (t : TypeRef) (scope : List TypeParameter) : String :=
  (resolveName scope t.rawName (scope.length + 1)).getD "Object" ++ brackets t.dimensions

namespace Forwarding

/-- The class literal for each parameter of a method, each behind a comma. -/
def classLiterals (scope : List TypeParameter) (parameters : List Parameter) : String :=
  String.join (parameters.map fun p =>
    ", " ++ p.type.erasedIn scope ++ (if p.variadic then "[]" else "") ++ ".class")

/-- The name of each parameter, each behind a comma. -/
def invocationArguments (parameters : List Parameter) : String :=
  String.join (parameters.map fun p => ", " ++ p.name)

/-- The type of the local variable that holds a method found by reflection. -/
def methodType : Argument := ⟨.type, "java.lang.reflect.Method"⟩

/-- The statement that finds a private method. A static method is looked up in its class when that
is known, any other in the superclass of the object. -/
def lookup (base : Option ClassDecl) (m : Method) (literals : String) : Statement :=
  if m.isStatic then
    match base with
    | some decl =>
      ⟨"$T superMethod = $T.class.getDeclaredMethod($S$L)",
       [methodType, ⟨.type, decl.name⟩, ⟨.string, m.name⟩, ⟨.literal, literals⟩]⟩
    | none =>
      ⟨"$T superMethod = java.lang.invoke.MethodHandles.lookup().lookupClass().getSuperclass()" ++
        ".getDeclaredMethod($S$L)",
       [methodType, ⟨.string, m.name⟩, ⟨.literal, literals⟩]⟩
  else
    ⟨"$T superMethod = getClass().getSuperclass().getDeclaredMethod($S$L)",
     [methodType, ⟨.string, m.name⟩, ⟨.literal, literals⟩]⟩

/-- The statements that call a private method by reflection. -/
def reflective (base : Option ClassDecl) (m : Method) : List Statement :=
  let scope := m.typeParameters ++ (base.map ClassDecl.typeParameters).getD []
  let receiver := if m.isStatic then "null" else "this"
  let passed : Argument := ⟨.literal, invocationArguments m.parameters⟩
  let invoke := "superMethod.invoke(" ++ receiver ++ "$L)"
  [lookup base m (classLiterals scope m.parameters),
   .code "superMethod.setAccessible(true)",
   if m.returnType.isVoid then ⟨invoke, [passed]⟩
   else ⟨"return ($T) " ++ invoke, [⟨.type, m.returnType.text⟩, passed]⟩]

/-- The statement that calls a method directly: on its class when it is static and the class is
known, else through `super`. -/
def direct (base : Option ClassDecl) (m : Method) : Supply :=
  let result := if m.returnType.isVoid then "" else "return "
  let call : List Argument := [⟨.name, m.name⟩, ⟨.literal, passedOn m.parameters⟩]
  let throughSuper : List Statement := [⟨result ++ "super.$N($L)", call⟩]
  if m.isStatic then
    match base with
    | some decl => ⟨[⟨result ++ "$T.$N($L)", ⟨.type, decl.name⟩ :: call⟩], []⟩
    | none =>
      ⟨throughSuper, [⟨.warn, "static " ++ m.signature ++
        " forwarded through super without its declaring class"⟩]⟩
  else ⟨throughSuper, []⟩

/-- The statements that forward a member to its counterpart; the base class may be unknown. -/
def forward (base : Option ClassDecl) : Member → Supply
  | .constructor c => ⟨[⟨"super($L)", [⟨.literal, passedOn c.parameters⟩]⟩], []⟩
  | .method m => if m.isPrivate then ⟨reflective base m, []⟩ else direct base m

end Forwarding

namespace Provider

/-- Ask for the body of a member, for the class of the given name. The request and what the provider
has to note are in the trace of its answer. -/
def ask (provider : Provider) (base : ClassDecl) (className : String) (member : Member) :
    Traced Supply :=
  let supply := provider base className member
  ⟨.request className member :: supply.notes.map .record, .ok supply⟩

/-- Forwards every member, knowing the base class. -/
def forwarding : Provider := fun base _ member => Forwarding.forward (some base) member

/-- Forwards every member without looking at the base class. -/
def forwardingAlone : Provider := fun _ _ member => Forwarding.forward none member

/-- Supplies the same statements for every member. -/
def constant (statements : List Statement) : Provider := fun _ _ _ => ⟨statements, []⟩

/-- Supplies the given number of statements, each marked with the class, the member and its place.
-/
def marking (count : Nat) : Provider := fun _ className member =>
  ⟨(List.range count).map fun i =>
    ⟨"mark($S, $L)", [⟨.string, className ++ "#" ++ member.signature⟩, ⟨.literal, toString i⟩]⟩, []⟩

/-- Supplies the fragments of the member's own body. -/
def replay : Provider := fun _ _ member =>
  ⟨(member.body?.toList.flatMap Block.fragments).map fun fragment => .code fragment.text, []⟩

end Provider

end TestDouble
