import TestDouble.Location
import TestDouble.Text.Trim
import TestDouble.Token.Kind

/-!
# Types as they are written

A type reference is a dotted name with type arguments and array dimensions. When a part of it
other than the last carries type arguments, as in `Outer<String>.Inner`, that part is the enclosing
type and the name holds only what follows it.
-/

namespace TestDouble

/-- Which side a wildcard is bounded on. -/
inductive BoundKind where
  | upper
  | lower
  deriving DecidableEq, Repr, Inhabited

/-- The keyword of a bound. -/
def BoundKind.keyword : BoundKind → String
  | upper => "extends"
  | lower => "super"

mutual

/-- A type as it is written in a source. -/
structure TypeRef where
  name : String
  arguments : List TypeArgument
  dimensions : Nat
  enclosing : Option TypeRef
  span : Span

/-- An argument between the angle brackets of a type. -/
inductive TypeArgument where
  | type (type : TypeRef)
  | wildcard (span : Span)
  | bounded (kind : BoundKind) (bound : TypeRef) (span : Span)

end

namespace TypeRef

/-- A type that is just a name. -/
def named (name : String) : TypeRef := ⟨name, [], 0, none, .synthetic⟩

instance : Inhabited TypeRef := ⟨named ""⟩

/-- The type with more array dimensions. -/
def addDimensions (t : TypeRef) (n : Nat) : TypeRef := { t with dimensions := t.dimensions + n }

/-- As many bracket pairs as there are dimensions. -/
def brackets (n : Nat) : String := String.join (List.replicate n "[]")

/-- Whether this is `void`. -/
def isVoid (t : TypeRef) : Bool :=
  t.name == "void" && t.dimensions == 0 && t.enclosing.isNone

/-- Whether this is a primitive type, `void` included. -/
def isPrimitive (t : TypeRef) : Bool :=
  t.dimensions == 0 && t.enclosing.isNone && Primitive.all.any (·.keyword == t.name)

/-- The name without what qualifies it. -/
def simpleName (t : TypeRef) : String := Text.lastSegment t.name

/-- The dotted name with the type arguments of every part dropped. -/
def rawName : TypeRef → String
  | ⟨name, _, _, none, _⟩ => name
  | ⟨name, _, _, some outer, _⟩ => outer.rawName ++ "." ++ name

/-- The raw name with the array dimensions, as a class literal names the type. -/
def erasure (t : TypeRef) : String := t.rawName ++ brackets t.dimensions

end TypeRef

/-- Type arguments that are already written, between their angle brackets. -/
def TypeArgument.bracketed : List String → String
  | [] => ""
  | texts => "<" ++ String.intercalate ", " texts ++ ">"

mutual

/-- The type as it is written. -/
def TypeRef.text : TypeRef → String
  | ⟨name, arguments, dimensions, none, _⟩ =>
    name ++ TypeArgument.bracketed (TypeArgument.texts arguments []) ++ TypeRef.brackets dimensions
  | ⟨name, arguments, dimensions, some outer, _⟩ =>
    outer.text ++ "." ++ name ++ TypeArgument.bracketed (TypeArgument.texts arguments []) ++
      TypeRef.brackets dimensions

/-- The argument as it is written. -/
def TypeArgument.text : TypeArgument → String
  | .type type => type.text
  | .wildcard _ => "?"
  | .bounded kind bound _ => "? " ++ kind.keyword ++ " " ++ bound.text

/-- The arguments as they are written, one text each, behind those written so far (last one
first). -/
def TypeArgument.texts : List TypeArgument → List String → List String
  | [], written => written.reverse
  | argument :: rest, written => TypeArgument.texts rest (argument.text :: written)

end

theorem TypeArgument.texts_eq (arguments : List TypeArgument) (written : List String) :
    texts arguments written = written.reverse ++ arguments.map text := by
  induction arguments generalizing written with
  | nil => simp [texts]
  | cons argument rest ih => simp [texts, ih]

/-- A declared type variable with its bounds. -/
structure TypeParameter where
  name : String
  bounds : List TypeRef
  span : Span
  deriving Inhabited

namespace TypeParameter

/-- The type variable as it is declared. -/
def text (p : TypeParameter) : String :=
  match p.bounds with
  | [] => p.name
  | bounds => p.name ++ " extends " ++ String.intercalate " & " (bounds.map TypeRef.text)

/-- The declarations of several type variables between angle brackets; nothing for none. -/
def listText (ps : List TypeParameter) : String := TypeArgument.bracketed (ps.map text)

end TypeParameter

end TestDouble
