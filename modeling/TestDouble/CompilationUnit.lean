import TestDouble.Declaration

/-!
# Compilation units

What one source declares: its package, its imports and its types.
-/

namespace TestDouble

/-- The package of a source. -/
structure PackageDecl where
  name : String
  span : Span
  deriving DecidableEq, Repr, Inhabited

def PackageDecl.text (p : PackageDecl) : String := "package " ++ p.name ++ ";"

/-- An import; `onDemand` when it ends in a star. -/
structure ImportDecl where
  name : String
  isStatic : Bool
  onDemand : Bool
  span : Span
  deriving DecidableEq, Repr, Inhabited

def ImportDecl.text (i : ImportDecl) : String :=
  (if i.isStatic then "import static " else "import ") ++ i.name ++
    (if i.onDemand then ".*;" else ";")

/-- A name qualified by a package; the empty package qualifies nothing. -/
def qualify (package name : String) : String :=
  if package = "" then name else package ++ "." ++ name

/-- A source that was read. -/
structure CompilationUnit where
  package : Option PackageDecl
  imports : List ImportDecl
  types : List TypeDecl
  span : Span

namespace CompilationUnit

/-- The name of the package, empty for the default package. -/
def packageName (u : CompilationUnit) : String :=
  match u.package with
  | some p => p.name
  | none => ""

/-- The classes at the top of the source, in order. -/
def classes (u : CompilationUnit) : List ClassDecl :=
  u.types.filterMap fun
    | .classDecl c => some c
    | _ => none

/-- The first class of the given name. -/
def findClass? (u : CompilationUnit) (name : String) : Option ClassDecl :=
  u.classes.find? (·.name == name)

/-- The qualified name of a type that the source declares. -/
def qualifiedName (u : CompilationUnit) (name : String) : String := qualify u.packageName name

/-- A line for the package, each import and each type. -/
def text (u : CompilationUnit) : String :=
  String.join ((u.package.toList.map PackageDecl.text ++ u.imports.map ImportDecl.text ++
    u.types.map TypeDecl.text).map (· ++ "\n"))

end CompilationUnit

end TestDouble
