import TestDouble.Location
import TestDouble.Text.Trim

/-!
# Annotations

An annotation has a dotted name and arguments; the value of an argument is kept as source text.
-/

namespace TestDouble

/-- An argument of an annotation. -/
inductive AnnotationArgument where
  | value (text : String)
  | named (key text : String)
  deriving DecidableEq, Repr, Inhabited

/-- The source text of the argument if it answers to the given name. A value without a name
answers to `value`. -/
def AnnotationArgument.answer? (name : String) : AnnotationArgument → Option String
  | value text => if name = "value" then some text else none
  | named key text => if key = name then some text else none

/-- An annotation of a declaration. -/
structure Annotation where
  name : String
  arguments : List AnnotationArgument
  span : Span
  deriving DecidableEq, Repr, Inhabited

namespace Annotation

/-- The name without what qualifies it. -/
def simpleName (a : Annotation) : String := Text.lastSegment a.name

/-- The source text of the first argument that answers to the given name. -/
def argument? (a : Annotation) (name : String) : Option String :=
  a.arguments.findSome? (AnnotationArgument.answer? name)

end Annotation

end TestDouble
