import TestDouble.Subclass
import TestDouble.Text.Lines

/-!
# Rendering of subclasses

A subclass is written as a compilation unit of its own: the package, the class header, and its
members with an empty line between two. Statements are expanded here, so a bad template shows here.
-/

namespace TestDouble

/-- A line of the output, indented by the given number of levels. -/
def Config.line (config : Config) (level : Nat) (text : String) : String :=
  String.join (List.replicate level config.indent) ++ text ++ "\n"

namespace Counterpart

/-- The line that opens the member. -/
def header (className : String) (m : Counterpart) : String :=
  let typeParameters :=
    if m.typeParameters.isEmpty then "" else " " ++ TypeParameter.listText m.typeParameters
  let name := match m.kind with
    | .method name returnType => returnType.text ++ " " ++ name
    | .constructor => className
  let exceptions :=
    if m.exceptions.isEmpty then ""
    else " throws " ++ String.intercalate ", " (m.exceptions.map TypeRef.text)
  m.modifiers.text ++ typeParameters ++ " " ++ name ++ "(" ++
    String.intercalate ", " (m.parameters.map Parameter.text) ++ ")" ++ exceptions ++ " \x7b"

/-- The lines of the body. -/
def bodyLines (m : Counterpart) : Except Error (List String) := do
  let statements ← m.statements.mapM Statement.render
  return statements.flatMap Text.lines

/-- The member as it is written. -/
def render (config : Config) (className : String) (m : Counterpart) : Except Error String := do
  let body ← m.bodyLines
  return (if m.isOverride then config.line 1 "@Override" else "") ++
    config.line 1 (m.header className) ++ String.join (body.map (config.line 2)) ++
    config.line 1 "\x7d"

end Counterpart

namespace Subclass

/-- The line that opens the class. -/
def header (s : Subclass) : String :=
  s.modifiers.text ++ " class " ++ s.name ++ TypeParameter.listText s.typeParameters ++
    " extends " ++ s.superclass.text ++ " \x7b"

/-- The class as a compilation unit. -/
def render (config : Config) (s : Subclass) : Except Error String := do
  let members ← s.members.mapM (Counterpart.render config s.name)
  let package := if s.package = "" then "" else "package " ++ s.package ++ ";\n\n"
  return package ++ s.header ++ "\n" ++ String.intercalate "\n" members ++ "\x7d\n"

end Subclass

end TestDouble
