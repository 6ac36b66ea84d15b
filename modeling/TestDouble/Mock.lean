import TestDouble.Declaration
import TestDouble.Error
import TestDouble.Text.Quoted

/-!
# Mock methods

The annotation `@MockMethod` marks a method of a test class as the replacement for another method.
It may name that method by a string literal and its class by a class literal. A scope says which
test cases see a mock.
-/

namespace TestDouble

/-- Which test cases see a mock method: those of its test class, or all. -/
inductive MockScope where
  | associated
  | global
  deriving DecidableEq, Repr

instance : Inhabited MockScope := ⟨.associated⟩

namespace MockScope

def text : MockScope → String
  | associated => "ASSOCIATED"
  | global => "GLOBAL"

/-- The scope that a text names, in any case of ASCII letters and behind any dotted prefix. -/
def parse (text : String) : Except Error MockScope :=
  let name := Text.afterLast '.' (Text.trim text.toList)
  match String.ofList (name.map Char.toUpper) with
  | "ASSOCIATED" => .ok associated
  | "GLOBAL" => .ok global
  | _ => .error (.malformed "MockScope" (.unknownScope text))

end MockScope

/-- The type that a class literal names, given the text before `.class` with its last character
first, and the dimensions counted so far: bracket pairs at the end of the text, with white space
before them, are array dimensions. -/
def TypeRef.ofReversedName? (name : List Char) (dimensions : Nat) : Option TypeRef :=
  match name with
  | [] => none
  | ']' :: '[' :: rest => TypeRef.ofReversedName? (rest.dropWhile Unicode.isBlank) (dimensions + 1)
  | name => some { TypeRef.named (String.ofList name.reverse) with dimensions }
termination_by name.length
decreasing_by
  have shorter := (List.dropWhile_sublist (p := Unicode.isBlank) (l := rest)).length_le
  simp only [List.length_cons]
  omega

/-- The type that a class literal names. -/
def TypeRef.ofClassLiteral? (literal : String) : Option TypeRef :=
  match Text.withoutEnding? ".class".toList (Text.trim literal.toList) with
  | some name => TypeRef.ofReversedName? (Text.trim name).reverse 0
  | none => none

/-- What a `@MockMethod` annotation says. -/
structure MockMethod where
  /-- The mocked method, when it is not called like the mock. -/
  targetMethod : Option String
  /-- The owner of the mocked method, when it is not the type of the first parameter. -/
  targetClass : Option TypeRef

namespace MockMethod

/-- The annotation that marks a mock. -/
def annotationName : String := "MockMethod"

/-- The type name that stands for no class. -/
def noClass : String := "NullType"

/-- Read an optional argument of an annotation. -/
def argument {α : Type} (a : Annotation) (key : String) (read : String → Option α)
    (fault : String → DeclarationFault) : Except Error (Option α) :=
  match a.argument? key with
  | none => .ok none
  | some raw =>
    match read raw with
    | some value => .ok (some value)
    | none => .error (.malformed ("@" ++ a.name) (fault raw))

/-- What an annotation says of a mock; nothing unless it is a `@MockMethod`. -/
def ofAnnotation (a : Annotation) : Except Error (Option MockMethod) :=
  if a.simpleName = annotationName then do
    let targetMethod ← argument a "targetMethod" Text.Quoted.decode? .notString
    let targetClass ← argument a "targetClass" TypeRef.ofClassLiteral? .notClassLiteral
    return some ⟨targetMethod.filter (· ≠ ""), targetClass.filter (·.simpleName ≠ noClass)⟩
  else .ok none

/-- The name of the method that a mock replaces. -/
def targetName (mock : MockMethod) (method : Method) : String :=
  mock.targetMethod.getD method.name

/-- The mocks that a method declares, one for each marking annotation. -/
def ofMethod (m : Method) : Except Error (List (Method × MockMethod)) := do
  let mocks ← m.annotations.mapM ofAnnotation
  return mocks.filterMap fun mock? => mock?.map fun mock => (m, mock)

/-- The mocks of a test class, in order. -/
def ofClass (c : ClassDecl) : Except Error (List (Method × MockMethod)) := do
  return (← c.methods.mapM ofMethod).flatten

end MockMethod

end TestDouble
