import TestDouble.Proofs.LastTokens

/-!
# Trees of spans

What is read from a source is a tree whose nodes have spans; a tree of spans keeps nothing else of
it. `Between` says where such a tree stands among the tokens: a node spans what is passed between two
cursors, and its parts stand one behind the other on that way. The fields of one declaration are the
only parts that share tokens: each of them starts where the declaration does. They are also the only
nodes that may end with a literal in which a line breaks.
-/

namespace TestDouble

/-- The span of a node and the trees of its parts, in the order of the source. -/
inductive SpanTree where
  | node (isField : Bool) (span : Span) (parts : List SpanTree)

namespace SpanTree

def isField : SpanTree → Bool
  | node isField _ _ => isField

def span : SpanTree → Span
  | node _ span _ => span

end SpanTree

/-! ### The tree of what is read -/

def Annotation.tree (a : Annotation) : SpanTree := .node false a.span []

/-- The span of a fragment ends where the last of its tokens starts. -/
def Fragment.tree (f : Fragment) : SpanTree := .node false f.span []

mutual

def TypeRef.tree : TypeRef → SpanTree
  | ⟨_, arguments, _, none, span⟩ => .node false span (TypeArgument.trees arguments)
  | ⟨_, arguments, _, some outer, span⟩ =>
    .node false span (outer.tree :: TypeArgument.trees arguments)

/-- An argument that is a type has no span of its own. -/
def TypeArgument.tree : TypeArgument → SpanTree
  | .type type => type.tree
  | .wildcard span => .node false span []
  | .bounded _ bound span => .node false span [bound.tree]

def TypeArgument.trees : List TypeArgument → List SpanTree
  | [] => []
  | argument :: rest => argument.tree :: TypeArgument.trees rest

end

theorem TypeArgument.trees_eq_map (arguments : List TypeArgument) :
    trees arguments = arguments.map tree := by
  induction arguments with
  | nil => rfl
  | cons argument rest ih => rw [trees, ih, List.map_cons]

/-- What a type is made of: the type that encloses it, and its arguments. -/
def TypeRef.parts (t : TypeRef) : List SpanTree :=
  t.enclosing.toList.map tree ++ t.arguments.map TypeArgument.tree

theorem TypeRef.tree_eq (t : TypeRef) : t.tree = .node false t.span t.parts := by
  obtain ⟨name, arguments, dimensions, _ | outer, span⟩ := t
  · simp [tree, parts, TypeArgument.trees_eq_map]
  · simp [tree, parts, TypeArgument.trees_eq_map]

theorem TypeRef.tree_addDimensions (t : TypeRef) (n : Nat) : (t.addDimensions n).tree = t.tree := by
  rw [tree_eq, tree_eq]
  rfl

def TypeParameter.tree (p : TypeParameter) : SpanTree :=
  .node false p.span (p.bounds.map TypeRef.tree)

def Parameter.tree (p : Parameter) : SpanTree :=
  .node false p.span (p.annotations.map Annotation.tree ++ [p.type.tree])

mutual

def Block.tree : Block → SpanTree
  | ⟨statements, span⟩ => .node false span (BodyStatement.trees statements)

/-- The trees of several statements; an empty statement has no span. -/
def BodyStatement.trees : List BodyStatement → List SpanTree
  | [] => []
  | .block block :: rest => block.tree :: BodyStatement.trees rest
  | .fragment fragment :: rest => fragment.tree :: BodyStatement.trees rest
  | .empty :: rest => BodyStatement.trees rest

end

theorem Block.tree_eq (block : Block) :
    block.tree = .node false block.span (BodyStatement.trees block.statements) := by
  obtain ⟨statements, span⟩ := block
  rw [tree]

def Field.tree (f : Field) : SpanTree :=
  .node true f.span
    (f.annotations.map Annotation.tree ++ f.type.tree :: f.initializer.toList.map Fragment.tree)

def Method.tree (m : Method) : SpanTree :=
  .node false m.span (m.annotations.map Annotation.tree ++
    (m.typeParameters.map TypeParameter.tree ++ m.returnType.tree ::
      (m.parameters.map Parameter.tree ++ (m.exceptions.map TypeRef.tree ++
        m.body.toList.map Block.tree))))

def Constructor.tree (k : Constructor) : SpanTree :=
  .node false k.span (k.annotations.map Annotation.tree ++
    (k.typeParameters.map TypeParameter.tree ++ (k.parameters.map Parameter.tree ++
      (k.exceptions.map TypeRef.tree ++ [k.body.tree]))))

def Initializer.tree (i : Initializer) : SpanTree := .node false i.span [i.body.tree]

def NominalDecl.tree (n : NominalDecl) : SpanTree :=
  .node false n.span (n.annotations.map Annotation.tree)

mutual

def TypeDecl.tree : TypeDecl → SpanTree
  | .classDecl ⟨_, annotations, _, typeParameters, superclass, interfaces, body, span⟩ =>
    .node false span (annotations.map Annotation.tree ++
      (typeParameters.map TypeParameter.tree ++ (superclass.toList.map TypeRef.tree ++
        (interfaces.map TypeRef.tree ++ BodyMember.trees body))))
  | .interfaceDecl ⟨_, annotations, _, typeParameters, interfaces, body, span⟩ =>
    .node false span (annotations.map Annotation.tree ++
      (typeParameters.map TypeParameter.tree ++ (interfaces.map TypeRef.tree ++
        BodyMember.trees body)))
  | .nominal decl => decl.tree

/-- A nested type has no span beside that of its declaration. -/
def BodyMember.tree : BodyMember → SpanTree
  | .field f => f.tree
  | .method m => m.tree
  | .constructor k => k.tree
  | .initializer i => i.tree
  | .type decl => decl.tree

def BodyMember.trees : List BodyMember → List SpanTree
  | [] => []
  | part :: rest => part.tree :: BodyMember.trees rest

end

theorem BodyMember.trees_eq_map (parts : List BodyMember) : trees parts = parts.map tree := by
  induction parts with
  | nil => rfl
  | cons part rest ih => rw [trees, ih, List.map_cons]

/-- What an interface adds to its members are modifiers. -/
theorem BodyMember.tree_inInterface (part : BodyMember) : part.inInterface.tree = part.tree := by
  cases part with
  | field f => simp [inInterface, tree, Field.tree]
  | method m => simp [inInterface, tree, Method.tree]
  | constructor k => rfl
  | initializer i => rfl
  | type decl => rfl

def PackageDecl.tree (p : PackageDecl) : SpanTree := .node false p.span []

def ImportDecl.tree (i : ImportDecl) : SpanTree := .node false i.span []

/-- The trees of the package, the imports and the types of a unit. -/
def CompilationUnit.parts (unit : CompilationUnit) : List SpanTree :=
  unit.package.toList.map PackageDecl.tree ++ (unit.imports.map ImportDecl.tree ++
    unit.types.map TypeDecl.tree)

def CompilationUnit.tree (unit : CompilationUnit) : SpanTree := .node false unit.span unit.parts

/-! ### Where a tree stands -/

mutual

/-- The tree stands among the tokens that are passed between the two cursors. -/
inductive SpanTree.Between : Cursor → SpanTree → Cursor → Prop where
  | node {c c₁ d₁ d : Cursor} (isField : Bool) {parts : List SpanTree} :
      c.Leads c₁ → SpanTree.AllBetween c₁ parts d₁ → d₁.size < c₁.size →
      (isField = false → d₁.Unbroken) → d₁.Leads d →
      SpanTree.Between c (.node isField ⟨c₁.location, d₁.lastStop⟩ parts) d
  | fragment {c c₁ d₁ d : Cursor} {first : Token} {more : List Token} :
      c.Leads c₁ → c₁.Passes (first :: more) d₁ → d₁.Leads d →
      SpanTree.Between c (Fragment.ofTokens first more).tree d

/-- The trees stand one behind the other among the tokens that are passed between the two cursors,
but for fields that start at the same place. -/
inductive SpanTree.AllBetween : Cursor → List SpanTree → Cursor → Prop where
  | nil {c d : Cursor} : c.Leads d → SpanTree.AllBetween c [] d
  | cons {c c₁ d : Cursor} {tree : SpanTree} {trees : List SpanTree} :
      SpanTree.Between c tree c₁ → SpanTree.AllBetween c₁ trees d →
      SpanTree.AllBetween c (tree :: trees) d
  | fields {c c₁ d : Cursor} {start : Location} {fields trees : List SpanTree} : c.Leads c₁ →
      (∀ t ∈ fields, t.isField = true ∧ t.span.start = start) →
      (∀ t ∈ fields, SpanTree.Between c t c₁) → SpanTree.AllBetween c₁ trees d →
      SpanTree.AllBetween c (fields ++ trees) d

end

namespace SpanTree

variable {a b c : Cursor} {t : SpanTree} {ts : List SpanTree}

theorem Between.lead (between : Between b t c) (leads : a.Leads b) : Between a t c := by
  cases between with
  | node isField before parts shorter plain behind =>
    exact .node isField (leads.trans before) parts shorter plain behind
  | fragment before passes behind => exact .fragment (leads.trans before) passes behind

theorem Between.extend (between : Between a t b) (leads : b.Leads c) : Between a t c := by
  cases between with
  | node isField before parts shorter plain behind =>
    exact .node isField before parts shorter plain (behind.trans leads)
  | fragment before passes behind => exact .fragment before passes (behind.trans leads)

namespace AllBetween

theorem one (between : Between a t b) : AllBetween a [t] b := .cons between (.nil (.refl b))

theorem lead (all : AllBetween b ts c) (leads : a.Leads b) : AllBetween a ts c := by
  cases all with
  | nil behind => exact .nil (leads.trans behind)
  | cons first rest => exact .cons (first.lead leads) rest
  | fields way same each rest =>
    exact .fields (leads.trans way) same (fun t member => (each t member).lead leads) rest

theorem append {a b c : Cursor} {ts us : List SpanTree} :
    AllBetween a ts b → AllBetween b us c → AllBetween a (ts ++ us) c
  | .nil leads, second => second.lead leads
  | .cons first rest, second => .cons first (rest.append second)
  | .fields way same each rest, second => by
    rw [List.append_assoc]
    exact .fields way same each (rest.append second)

theorem extend (all : AllBetween a ts b) (leads : b.Leads c) : AllBetween a ts c := by
  have longer := all.append (.nil leads)
  rwa [List.append_nil] at longer

end AllBetween

mutual

theorem Between.leads {a b : Cursor} {t : SpanTree} : Between a t b → a.Leads b
  | .node _ before parts _ _ behind => before.trans (parts.leads.trans behind)
  | .fragment before passes behind => before.trans (.trans ⟨_, passes⟩ behind)

theorem AllBetween.leads {a b : Cursor} {ts : List SpanTree} : AllBetween a ts b → a.Leads b
  | .nil leads => leads
  | .cons first rest => first.leads.trans rest.leads
  | .fields way _ _ rest => way.trans rest.leads

end

end SpanTree

end TestDouble
