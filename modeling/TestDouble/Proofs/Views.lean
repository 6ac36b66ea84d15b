import TestDouble.CompilationUnit
import TestDouble.Proofs.DeclarationInverse

/-!
# Views of a syntax tree

A view erases all places of a tree and shows each raw text and each body through a function of its
own. So two trees can be compared up to places, up to what stands between the tokens of a text, or up
to what bodies hold.
-/

namespace TestDouble

/-- What is seen of the raw texts of a tree, those in bodies excepted, and of its bodies. -/
structure View where
  text : String → String
  body : Block → Block

/-- A fragment without its place. -/
def Fragment.through (text : String → String) (f : Fragment) : Fragment :=
  ⟨text f.text, .synthetic⟩

mutual

/-- A block without places, its texts seen through a function. -/
def Block.through (text : String → String) : Block → Block
  | ⟨statements, _⟩ => ⟨BodyStatement.allThrough text statements, .synthetic⟩

def BodyStatement.through (text : String → String) : BodyStatement → BodyStatement
  | .block block => .block (block.through text)
  | .fragment fragment => .fragment (fragment.through text)
  | .empty => .empty

def BodyStatement.allThrough (text : String → String) : List BodyStatement → List BodyStatement
  | [] => []
  | statement :: rest => statement.through text :: BodyStatement.allThrough text rest

end

theorem BodyStatement.allThrough_eq_map (text : String → String) (statements : List BodyStatement) :
    allThrough text statements = statements.map (through text) := by
  induction statements with
  | nil => rfl
  | cons statement rest ih => rw [allThrough, ih, List.map_cons]

theorem Block.through_mk (text : String → String) (statements : List BodyStatement) (span : Span) :
    Block.through text ⟨statements, span⟩ =
      ⟨statements.map (BodyStatement.through text), .synthetic⟩ := by
  rw [through, BodyStatement.allThrough_eq_map]

namespace View

/-- Bodies are seen as everything else. -/
def full (text : String → String) : View := ⟨text, Block.through text⟩

/-- All bodies look alike. -/
def outside (text : String → String) : View := ⟨text, fun _ => default⟩

/-- Bodies whose texts look alike look alike. -/
def Coarse (v : View) : Prop :=
  ∀ ⦃b b' : Block⦄, b.through v.text = b'.through v.text → v.body b = v.body b'

theorem full_coarse (text : String → String) : (full text).Coarse := fun _ _ same => same

theorem outside_coarse (text : String → String) : (outside text).Coarse := fun _ _ _ => rfl

end View

def AnnotationArgument.through (text : String → String) : AnnotationArgument → AnnotationArgument
  | .value raw => .value (text raw)
  | .named key raw => .named key (text raw)

def Annotation.through (text : String → String) (a : Annotation) : Annotation :=
  ⟨a.name, a.arguments.map (AnnotationArgument.through text), .synthetic⟩

def Qualifiers.through (text : String → String) (q : Qualifiers) : Qualifiers :=
  ⟨q.modifiers, q.annotations.map (·.through text)⟩

def Parameter.through (text : String → String) (p : Parameter) : Parameter :=
  ⟨p.modifiers, p.annotations.map (·.through text), p.type.withoutSpans, p.name, p.variadic,
    .synthetic⟩

def Declarator.through (text : String → String) (d : Declarator) : Declarator :=
  ⟨d.name, d.dimensions, d.initializer.map (Fragment.through text), .origin⟩

def Field.through (text : String → String) (f : Field) : Field :=
  ⟨f.modifiers, f.annotations.map (·.through text), f.type.withoutSpans, f.name,
    f.initializer.map (Fragment.through text), .synthetic⟩

def Method.through (v : View) (m : Method) : Method :=
  ⟨m.modifiers, m.annotations.map (·.through v.text),
    m.typeParameters.map TypeParameter.withoutSpans, m.returnType.withoutSpans, m.name,
    m.parameters.map (Parameter.through v.text), m.exceptions.map TypeRef.withoutSpans,
    m.body.map v.body, .synthetic⟩

def Constructor.through (v : View) (c : Constructor) : Constructor :=
  ⟨c.modifiers, c.annotations.map (·.through v.text),
    c.typeParameters.map TypeParameter.withoutSpans, c.name,
    c.parameters.map (Parameter.through v.text), c.exceptions.map TypeRef.withoutSpans,
    v.body c.body, .synthetic⟩

def Initializer.through (v : View) (i : Initializer) : Initializer :=
  ⟨i.isStatic, v.body i.body, .synthetic⟩

def NominalDecl.through (text : String → String) (d : NominalDecl) : NominalDecl :=
  ⟨d.kind, d.modifiers, d.annotations.map (·.through text), d.name, .synthetic⟩

mutual

def ClassDecl.through (v : View) : ClassDecl → ClassDecl
  | ⟨modifiers, annotations, name, typeParameters, superclass, interfaces, body, _⟩ =>
    ⟨modifiers, annotations.map (·.through v.text), name,
      typeParameters.map TypeParameter.withoutSpans, superclass.map TypeRef.withoutSpans,
      interfaces.map TypeRef.withoutSpans, BodyMember.allThrough v body, .synthetic⟩

def InterfaceDecl.through (v : View) : InterfaceDecl → InterfaceDecl
  | ⟨modifiers, annotations, name, typeParameters, interfaces, body, _⟩ =>
    ⟨modifiers, annotations.map (·.through v.text), name,
      typeParameters.map TypeParameter.withoutSpans, interfaces.map TypeRef.withoutSpans,
      BodyMember.allThrough v body, .synthetic⟩

/-- A declaration without places, its texts and bodies seen through a view. -/
def TypeDecl.through (v : View) : TypeDecl → TypeDecl
  | .classDecl decl => .classDecl (decl.through v)
  | .interfaceDecl decl => .interfaceDecl (decl.through v)
  | .nominal decl => .nominal (decl.through v.text)

def BodyMember.through (v : View) : BodyMember → BodyMember
  | .field f => .field (f.through v.text)
  | .method m => .method (m.through v)
  | .constructor c => .constructor (c.through v)
  | .initializer i => .initializer (i.through v)
  | .type decl => .type (decl.through v)

def BodyMember.allThrough (v : View) : List BodyMember → List BodyMember
  | [] => []
  | part :: rest => part.through v :: BodyMember.allThrough v rest

end

theorem BodyMember.allThrough_eq_map (v : View) (parts : List BodyMember) :
    allThrough v parts = parts.map (through v) := by
  induction parts with
  | nil => rfl
  | cons part rest ih => rw [allThrough, ih, List.map_cons]

def PackageDecl.withoutSpan (p : PackageDecl) : PackageDecl := { p with span := .synthetic }

def ImportDecl.withoutSpan (i : ImportDecl) : ImportDecl := { i with span := .synthetic }

/-- A unit without places, its texts and bodies seen through a view. -/
def CompilationUnit.through (v : View) (unit : CompilationUnit) : CompilationUnit :=
  ⟨unit.package.map PackageDecl.withoutSpan, unit.imports.map ImportDecl.withoutSpan,
    unit.types.map (TypeDecl.through v), .synthetic⟩

/-- What an interface adds to its members does not depend on places, texts or bodies. -/
theorem BodyMember.through_inInterface (v : View) (part : BodyMember) :
    part.inInterface.through v = (part.through v).inInterface := by
  cases part with
  | field f => simp [inInterface, through, Field.through]
  | method m =>
    obtain ⟨modifiers, annotations, typeParameters, returnType, name, parameters, exceptions, body,
      span⟩ := m
    -- Whether there is a body shows in every view, and nothing else of it matters.
    cases body <;> rfl
  | constructor c => simp [inInterface, through]
  | initializer i => simp [inInterface, through]
  | type decl => simp [inInterface, through]

end TestDouble
