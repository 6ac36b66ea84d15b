import TestDouble.Proofs.SpanNesting
import TestDouble.Walk.Leaf

/-!
# The leaves of a unit in the order of the source

The leaves of a unit are told in two ways: which they are, and in which order they stand. Which they
are is read off the declarations, at whatever depth these are nested. Their order follows from where
the tree of spans stands among the tokens: each leaf is a node of that tree, and the list of leaves
picks nodes from the left to the right.
-/

namespace TestDouble

/-! ### Which leaves there are -/

namespace TypeDecl

def annotations : TypeDecl → List Annotation
  | classDecl c => c.annotations
  | interfaceDecl i => i.annotations
  | nominal n => n.annotations

def typeParameters : TypeDecl → List TypeParameter
  | classDecl c => c.typeParameters
  | interfaceDecl i => i.typeParameters
  | nominal _ => []

/-- The type that a class extends. -/
def superclass : TypeDecl → Option TypeRef
  | classDecl c => c.superclass
  | _ => none

/-- The types that a class implements or an interface extends. -/
def interfaces : TypeDecl → List TypeRef
  | classDecl c => c.interfaces
  | interfaceDecl i => i.interfaces
  | nominal _ => []

def body : TypeDecl → List BodyMember
  | classDecl c => c.body
  | interfaceDecl i => i.body
  | nominal _ => []

/-- The second declaration is the first or stands in its body, at any depth. -/
inductive Nests : TypeDecl → TypeDecl → Prop where
  | self (decl : TypeDecl) : Nests decl decl
  | inside {outer decl inner : TypeDecl} : .type decl ∈ outer.body → Nests decl inner →
      Nests outer inner

end TypeDecl

/-- The annotations and types of a member of a body that is no type itself. -/
inductive BodyMember.Mentions : BodyMember → Leaf → Prop where
  | fieldMarker {f : Field} {a : Annotation} : a ∈ f.annotations → Mentions (.field f) (.marker a)
  | fieldType (f : Field) : Mentions (.field f) (.type f.type)
  | methodMarker {m : Method} {a : Annotation} : a ∈ m.annotations →
      Mentions (.method m) (.marker a)
  | methodVariable {m : Method} {v : TypeParameter} : v ∈ m.typeParameters →
      Mentions (.method m) (.typeParameter v)
  | returnType (m : Method) : Mentions (.method m) (.type m.returnType)
  | methodParameterMarker {m : Method} {p : Parameter} {a : Annotation} : p ∈ m.parameters →
      a ∈ p.annotations → Mentions (.method m) (.marker a)
  | methodParameterType {m : Method} {p : Parameter} : p ∈ m.parameters →
      Mentions (.method m) (.type p.type)
  | methodException {m : Method} {t : TypeRef} : t ∈ m.exceptions → Mentions (.method m) (.type t)
  | constructorMarker {k : Constructor} {a : Annotation} : a ∈ k.annotations →
      Mentions (.constructor k) (.marker a)
  | constructorVariable {k : Constructor} {v : TypeParameter} : v ∈ k.typeParameters →
      Mentions (.constructor k) (.typeParameter v)
  | constructorParameterMarker {k : Constructor} {p : Parameter} {a : Annotation} :
      p ∈ k.parameters → a ∈ p.annotations → Mentions (.constructor k) (.marker a)
  | constructorParameterType {k : Constructor} {p : Parameter} : p ∈ k.parameters →
      Mentions (.constructor k) (.type p.type)
  | constructorException {k : Constructor} {t : TypeRef} : t ∈ k.exceptions →
      Mentions (.constructor k) (.type t)

/-- What a type declaration has itself or in a member of its body. -/
inductive TypeDecl.Mentions : TypeDecl → Leaf → Prop where
  | marker {decl : TypeDecl} {a : Annotation} : a ∈ decl.annotations → Mentions decl (.marker a)
  | typeVariable {decl : TypeDecl} {v : TypeParameter} : v ∈ decl.typeParameters →
      Mentions decl (.typeParameter v)
  | superclass {decl : TypeDecl} {t : TypeRef} : decl.superclass = some t → Mentions decl (.type t)
  | interface {decl : TypeDecl} {t : TypeRef} : t ∈ decl.interfaces → Mentions decl (.type t)
  | member {decl : TypeDecl} {part : BodyMember} {l : Leaf} : part ∈ decl.body → part.Mentions l →
      Mentions decl l

/-- What a unit has: its package, its imports, and what its types have, at any depth. -/
inductive CompilationUnit.Mentions (unit : CompilationUnit) : Leaf → Prop where
  | package {p : PackageDecl} : unit.package = some p → Mentions unit (.package p)
  | importing {i : ImportDecl} : i ∈ unit.imports → Mentions unit (.importing i)
  | type {top decl : TypeDecl} {l : Leaf} : top ∈ unit.types → top.Nests decl → decl.Mentions l →
      Mentions unit l

mutual

/-- The declaration and all those in its body, at any depth. -/
def TypeDecl.nested : TypeDecl → List TypeDecl
  | .classDecl ⟨modifiers, annotations, name, typeParameters, superclass, interfaces, body, span⟩ =>
    .classDecl ⟨modifiers, annotations, name, typeParameters, superclass, interfaces, body, span⟩ ::
      BodyMember.nestedIn body
  | .interfaceDecl ⟨modifiers, annotations, name, typeParameters, interfaces, body, span⟩ =>
    .interfaceDecl ⟨modifiers, annotations, name, typeParameters, interfaces, body, span⟩ ::
      BodyMember.nestedIn body
  | .nominal decl => [.nominal decl]

def BodyMember.nestedIn : List BodyMember → List TypeDecl
  | [] => []
  | .type decl :: rest => decl.nested ++ BodyMember.nestedIn rest
  | _ :: rest => BodyMember.nestedIn rest

end

theorem TypeDecl.nests_iff {decl inner : TypeDecl} :
    decl.Nests inner ↔ inner = decl ∨ ∃ nested, .type nested ∈ decl.body ∧ nested.Nests inner := by
  constructor
  · intro nests
    cases nests with
    | self => exact .inl rfl
    | inside listed nests => exact .inr ⟨_, listed, nests⟩
  · rintro (rfl | ⟨nested, listed, nests⟩)
    · exact .self inner
    · exact .inside listed nests

mutual

theorem TypeDecl.mem_nested_iff {inner : TypeDecl} : {decl : TypeDecl} →
    (inner ∈ decl.nested ↔ decl.Nests inner)
  | .classDecl ⟨m, as, n, ps, s, is, body, span⟩ => by
    rw [TypeDecl.nested, List.mem_cons, TypeDecl.nests_iff, BodyMember.mem_nestedIn_iff]
    rfl
  | .interfaceDecl ⟨m, as, n, ps, is, body, span⟩ => by
    rw [TypeDecl.nested, List.mem_cons, TypeDecl.nests_iff, BodyMember.mem_nestedIn_iff]
    rfl
  | .nominal n => by
    rw [TypeDecl.nested, List.mem_singleton, TypeDecl.nests_iff]
    simp [TypeDecl.body]

theorem BodyMember.mem_nestedIn_iff {inner : TypeDecl} : {parts : List BodyMember} →
    (inner ∈ BodyMember.nestedIn parts ↔ ∃ decl, .type decl ∈ parts ∧ decl.Nests inner)
  | [] => by simp [BodyMember.nestedIn]
  | .type decl :: rest => by
    rw [BodyMember.nestedIn, List.mem_append, TypeDecl.mem_nested_iff, BodyMember.mem_nestedIn_iff]
    simp [or_and_right, exists_or]
  | .field _ :: rest | .method _ :: rest | .constructor _ :: rest | .initializer _ :: rest => by
    rw [BodyMember.nestedIn, BodyMember.mem_nestedIn_iff]
    · simp
    · nofun

end

/-- A type in a body has the leaf at some depth. -/
def BodyMember.Reaches (part : BodyMember) (l : Leaf) : Prop :=
  ∃ decl inner, part = .type decl ∧ decl.Nests inner ∧ inner.Mentions l

theorem Field.mem_leaves_iff (f : Field) (l : Leaf) :
    l ∈ f.leaves ↔ (BodyMember.field f).Mentions l := by
  simp only [leaves, List.mem_append, List.mem_map, List.mem_singleton]
  constructor
  · rintro (⟨a, listed, rfl⟩ | rfl)
    · exact .fieldMarker listed
    · exact .fieldType f
  · intro mentions
    cases mentions with
    | fieldMarker listed => exact .inl ⟨_, listed, rfl⟩
    | fieldType => exact .inr rfl

theorem Method.mem_leaves_iff (m : Method) (l : Leaf) :
    l ∈ m.leaves ↔ (BodyMember.method m).Mentions l := by
  simp only [leaves, Parameter.leaves, List.mem_append, List.mem_map, List.mem_flatMap,
    List.mem_singleton]
  constructor
  · rintro ((((⟨a, listed, rfl⟩ | ⟨v, listed, rfl⟩) | rfl) | ⟨p, listed, ⟨a, marked, rfl⟩ | rfl⟩) |
      ⟨t, listed, rfl⟩)
    · exact .methodMarker listed
    · exact .methodVariable listed
    · exact .returnType m
    · exact .methodParameterMarker listed marked
    · exact .methodParameterType listed
    · exact .methodException listed
  · intro mentions
    cases mentions with
    | methodMarker listed => exact .inl (.inl (.inl (.inl ⟨_, listed, rfl⟩)))
    | methodVariable listed => exact .inl (.inl (.inl (.inr ⟨_, listed, rfl⟩)))
    | returnType => exact .inl (.inl (.inr rfl))
    | methodParameterMarker listed marked => exact .inl (.inr ⟨_, listed, .inl ⟨_, marked, rfl⟩⟩)
    | methodParameterType listed => exact .inl (.inr ⟨_, listed, .inr rfl⟩)
    | methodException listed => exact .inr ⟨_, listed, rfl⟩

theorem Constructor.mem_leaves_iff (k : Constructor) (l : Leaf) :
    l ∈ k.leaves ↔ (BodyMember.constructor k).Mentions l := by
  simp only [leaves, Parameter.leaves, List.mem_append, List.mem_map, List.mem_flatMap,
    List.mem_singleton]
  constructor
  · rintro (((⟨a, listed, rfl⟩ | ⟨v, listed, rfl⟩) | ⟨p, listed, ⟨a, marked, rfl⟩ | rfl⟩) |
      ⟨t, listed, rfl⟩)
    · exact .constructorMarker listed
    · exact .constructorVariable listed
    · exact .constructorParameterMarker listed marked
    · exact .constructorParameterType listed
    · exact .constructorException listed
  · intro mentions
    cases mentions with
    | constructorMarker listed => exact .inl (.inl (.inl ⟨_, listed, rfl⟩))
    | constructorVariable listed => exact .inl (.inl (.inr ⟨_, listed, rfl⟩))
    | constructorParameterMarker listed marked =>
      exact .inl (.inr ⟨_, listed, .inl ⟨_, marked, rfl⟩⟩)
    | constructorParameterType listed => exact .inl (.inr ⟨_, listed, .inr rfl⟩)
    | constructorException listed => exact .inr ⟨_, listed, rfl⟩

/-- The leaves of a declaration are what it has itself and what the members of its body have. -/
theorem TypeDecl.mem_leaves (decl : TypeDecl) (l : Leaf) :
    l ∈ decl.leaves ↔ (∃ a ∈ decl.annotations, .marker a = l) ∨
      (∃ v ∈ decl.typeParameters, .typeParameter v = l) ∨ (∃ t, decl.superclass = some t ∧ .type t = l) ∨
      (∃ t ∈ decl.interfaces, .type t = l) ∨ l ∈ BodyMember.allLeaves decl.body := by
  cases decl with
  | classDecl c =>
    obtain ⟨_, _, _, _, _, _, _, _⟩ := c
    simp [leaves, ClassDecl.leaves, annotations, typeParameters, superclass, interfaces, body]
  | interfaceDecl i =>
    obtain ⟨_, _, _, _, _, _, _⟩ := i
    simp [leaves, InterfaceDecl.leaves, annotations, typeParameters, superclass, interfaces, body]
  | nominal n =>
    simp [leaves, NominalDecl.leaves, annotations, typeParameters, superclass, interfaces, body,
      BodyMember.allLeaves]

/-- A declaration has a leaf at some depth, or a member of its body has. -/
theorem TypeDecl.reaches_iff (decl : TypeDecl) (l : Leaf) :
    (∃ inner, decl.Nests inner ∧ inner.Mentions l) ↔
      (∃ a ∈ decl.annotations, .marker a = l) ∨ (∃ v ∈ decl.typeParameters, .typeParameter v = l) ∨
      (∃ t, decl.superclass = some t ∧ .type t = l) ∨ (∃ t ∈ decl.interfaces, .type t = l) ∨
      ∃ part ∈ decl.body, part.Mentions l ∨ part.Reaches l := by
  constructor
  · rintro ⟨inner, nests, mentions⟩
    rcases nests_iff.mp nests with rfl | ⟨nested, listed, nests⟩
    · cases mentions with
      | marker listed => exact .inl ⟨_, listed, rfl⟩
      | typeVariable listed => exact .inr (.inl ⟨_, listed, rfl⟩)
      | superclass extends_ => exact .inr (.inr (.inl ⟨_, extends_, rfl⟩))
      | interface listed => exact .inr (.inr (.inr (.inl ⟨_, listed, rfl⟩)))
      | member listed mentions => exact .inr (.inr (.inr (.inr ⟨_, listed, .inl mentions⟩)))
    · exact .inr (.inr (.inr (.inr ⟨_, listed, .inr ⟨nested, inner, rfl, nests, mentions⟩⟩)))
  · rintro (⟨a, listed, rfl⟩ | ⟨v, listed, rfl⟩ | ⟨t, extends_, rfl⟩ | ⟨t, listed, rfl⟩ |
      ⟨part, listed, mentions | ⟨nested, inner, rfl, nests, mentions⟩⟩)
    · exact ⟨decl, .self decl, .marker listed⟩
    · exact ⟨decl, .self decl, .typeVariable listed⟩
    · exact ⟨decl, .self decl, .superclass extends_⟩
    · exact ⟨decl, .self decl, .interface listed⟩
    · exact ⟨decl, .self decl, .member listed mentions⟩
    · exact ⟨inner, .inside listed nests, mentions⟩

mutual

theorem TypeDecl.mem_leaves_iff (l : Leaf) : (decl : TypeDecl) →
    (l ∈ decl.leaves ↔ ∃ inner, decl.Nests inner ∧ inner.Mentions l)
  | .classDecl ⟨m, as, n, ps, s, is, body, span⟩ => by
    rw [TypeDecl.mem_leaves, TypeDecl.reaches_iff]
    rw [show (TypeDecl.classDecl ⟨m, as, n, ps, s, is, body, span⟩).body = body from rfl,
      BodyMember.mem_allLeaves_iff l body]
  | .interfaceDecl ⟨m, as, n, ps, is, body, span⟩ => by
    rw [TypeDecl.mem_leaves, TypeDecl.reaches_iff]
    rw [show (TypeDecl.interfaceDecl ⟨m, as, n, ps, is, body, span⟩).body = body from rfl,
      BodyMember.mem_allLeaves_iff l body]
  | .nominal n => by
    rw [TypeDecl.mem_leaves, TypeDecl.reaches_iff]
    simp [TypeDecl.body, BodyMember.allLeaves]

theorem BodyMember.mem_leaves_iff (l : Leaf) : (part : BodyMember) →
    (l ∈ part.leaves ↔ part.Mentions l ∨ part.Reaches l)
  | .field f => by
    have noType : ¬(BodyMember.field f).Reaches l := nofun
    rw [BodyMember.leaves, f.mem_leaves_iff, or_iff_left noType]
  | .method m => by
    have noType : ¬(BodyMember.method m).Reaches l := nofun
    rw [BodyMember.leaves, m.mem_leaves_iff, or_iff_left noType]
  | .constructor k => by
    have noType : ¬(BodyMember.constructor k).Reaches l := nofun
    rw [BodyMember.leaves, k.mem_leaves_iff, or_iff_left noType]
  | .initializer i => by
    rw [BodyMember.leaves]
    constructor
    · nofun
    · rintro (mentions | ⟨decl, inner, same, -⟩)
      · cases mentions
      · cases same
  | .type decl => by
    have noMember : ¬(BodyMember.type decl).Mentions l := nofun
    rw [BodyMember.leaves, decl.mem_leaves_iff l, or_iff_right noMember]
    constructor
    · rintro ⟨inner, nests, mentions⟩
      exact ⟨decl, inner, rfl, nests, mentions⟩
    · rintro ⟨_, inner, ⟨⟩, nests, mentions⟩
      exact ⟨inner, nests, mentions⟩

theorem BodyMember.mem_allLeaves_iff (l : Leaf) : (parts : List BodyMember) →
    (l ∈ BodyMember.allLeaves parts ↔ ∃ part ∈ parts, part.Mentions l ∨ part.Reaches l)
  | [] => by simp [BodyMember.allLeaves]
  | part :: rest => by
    rw [BodyMember.allLeaves, List.mem_append, BodyMember.mem_leaves_iff l part,
      BodyMember.mem_allLeaves_iff l rest]
    simp

end

theorem CompilationUnit.mem_leaves_iff (unit : CompilationUnit) (l : Leaf) :
    l ∈ unit.leaves ↔ unit.Mentions l := by
  simp only [leaves, List.mem_append, List.mem_map, List.mem_flatMap, Option.mem_toList,
    TypeDecl.mem_leaves_iff]
  constructor
  · rintro ((⟨p, here, rfl⟩ | ⟨i, listed, rfl⟩) | ⟨top, listed, decl, nests, mentions⟩)
    · exact .package here
    · exact .importing listed
    · exact .type listed nests mentions
  · intro mentions
    cases mentions with
    | package here => exact .inl (.inl ⟨_, here, rfl⟩)
    | importing listed => exact .inl (.inr ⟨_, listed, rfl⟩)
    | type listed nests mentions => exact .inr ⟨_, listed, _, nests, mentions⟩

/-! ### In which order they stand -/

namespace SpanTree

/-- Two fields of one declaration start at the same place. -/
def Twins (t u : SpanTree) : Prop :=
  t.isField = true ∧ u.isField = true ∧ t.span.start = u.span.start

mutual

/-- The leaves are picked from the nodes of the tree, from the left to the right and none from below
another; among the parts of a node from which leaves are picked there are no twins. -/
inductive Shows : SpanTree → List Leaf → Prop where
  | skipped (t : SpanTree) : Shows t []
  | whole {t : SpanTree} {l : Leaf} : l.span = t.span → Shows t [l]
  | parts {isField : Bool} {span : Span} {ts : List SpanTree} {ls : List Leaf} :
      ts.Pairwise (fun t u => ¬Twins t u) → ShowsAll ts ls → Shows (.node isField span ts) ls

/-- So they are from several trees, one after the other. -/
inductive ShowsAll : List SpanTree → List Leaf → Prop where
  | nil : ShowsAll [] []
  | cons {t : SpanTree} {ts : List SpanTree} {ls others : List Leaf} : Shows t ls →
      ShowsAll ts others → ShowsAll (t :: ts) (ls ++ others)

end

namespace ShowsAll

variable {ts us : List SpanTree} {ls ks : List Leaf}

theorem append (first : ShowsAll ts ls) (second : ShowsAll us ks) : ShowsAll (ts ++ us) (ls ++ ks) := by
  induction ts generalizing ls with
  | nil =>
    cases first
    exact second
  | cons t ts ih =>
    obtain _ | ⟨here, rest⟩ := first
    rw [List.append_assoc]
    exact .cons here (ih rest)

theorem skipped (ts : List SpanTree) : ShowsAll ts [] := by
  induction ts with
  | nil => exact .nil
  | cons t ts ih => exact .cons (.skipped t) ih

theorem skip (shows_ : ShowsAll ts ls) (us : List SpanTree) : ShowsAll (ts ++ us) ls := by
  have whole := shows_.append (skipped us)
  rwa [List.append_nil] at whole

/-- Where every item has a tree and leaves of its own, so have all together. -/
theorem flatMap {α : Type} {tree : α → SpanTree} {leaves : α → List Leaf} (items : List α)
    (each : ∀ x ∈ items, (tree x).Shows (leaves x)) :
    ShowsAll (items.map tree) (items.flatMap leaves) := by
  induction items with
  | nil => exact .nil
  | cons x items ih =>
    obtain ⟨here, others⟩ := List.forall_mem_cons.mp each
    exact .cons here (ih others)

theorem map {α : Type} (tree : α → SpanTree) (leaf : α → Leaf)
    (same : ∀ x, (leaf x).span = (tree x).span) (items : List α) :
    ShowsAll (items.map tree) (items.map leaf) := by
  rw [List.map_eq_flatMap (f := leaf)]
  exact flatMap items fun x _ => .whole (same x)

end ShowsAll

/-- A part that is no field has no twin. -/
theorem noTwins_cons {t : SpanTree} {us : List SpanTree} (noField : t.isField = false)
    (apart : us.Pairwise fun t u => ¬Twins t u) : (t :: us).Pairwise fun t u => ¬Twins t u := by
  refine List.pairwise_cons.mpr ⟨?_, apart⟩
  rintro u - ⟨isField, -⟩
  rw [noField] at isField
  cases isField

theorem noTwins_map_append {α : Type} {tree : α → SpanTree}
    (noField : ∀ x, (tree x).isField = false) (items : List α) {us : List SpanTree}
    (apart : us.Pairwise fun t u => ¬Twins t u) :
    (items.map tree ++ us).Pairwise fun t u => ¬Twins t u := by
  induction items with
  | nil => exact apart
  | cons x items ih => exact noTwins_cons (noField x) ih

theorem noTwins_map {α : Type} {tree : α → SpanTree} (noField : ∀ x, (tree x).isField = false)
    (items : List α) : (items.map tree).Pairwise fun t u => ¬Twins t u := by
  have apart := noTwins_map_append noField items .nil
  rwa [List.append_nil] at apart

/-- The leaves start one behind the other, all of them between the two cursors. -/
structure Ordered (c : Cursor) (ls : List Leaf) (d : Cursor) : Prop where
  increasing : ls.Pairwise fun l k => l.span.start.offset < k.span.start.offset
  starts : ∀ l ∈ ls, c.location.offset ≤ l.span.start.offset
  begins : ∀ l ∈ ls, l.span.start.offset < d.lastStop.offset

section

variable {tokens : List Token} {size : Nat} {b c d e : Cursor} {t : SpanTree} {ts : List SpanTree}
  {ls ks : List Leaf}

theorem Ordered.nil (c d : Cursor) : Ordered c [] d := ⟨.nil, nofun, nofun⟩

theorem Ordered.widen (inOrder : Token.InOrder tokens size) (stands : b.StandsIn tokens)
    (ordered : Ordered c ls d) (before : b.Leads c) (way : c.Leads d) (behind : d.Leads e) :
    Ordered b ls e := by
  have starts := inOrder.location_le stands before
  have ends := inOrder.lastStop_le ((stands.leads before).leads way) behind
  exact ⟨ordered.increasing, fun l listed => Nat.le_trans starts (ordered.starts l listed),
    fun l listed => Nat.lt_of_lt_of_le (ordered.begins l listed) ends⟩

/-- What starts before a cursor starts before all that starts behind it. -/
theorem Ordered.append (inOrder : Token.InOrder tokens size) (stands : b.StandsIn tokens)
    (first : Ordered b ls c) (rest : Ordered c ks d) (before : b.Leads c) (behind : c.Leads d) :
    Ordered b (ls ++ ks) d := by
  have gap := inOrder.lastStop_le_location (stands.leads before)
  have early := first.widen inOrder stands (.refl b) before behind
  have late := rest.widen inOrder stands before behind (.refl d)
  refine ⟨List.pairwise_append.mpr ⟨first.increasing, rest.increasing, ?_⟩, ?_, ?_⟩
  · intro l inFirst k inRest
    have ends := first.begins l inFirst
    have starts := rest.starts k inRest
    omega
  · intro l listed
    rcases List.mem_append.mp listed with inFirst | inRest
    · exact early.starts l inFirst
    · exact late.starts l inRest
  · intro l listed
    rcases List.mem_append.mp listed with inFirst | inRest
    · exact early.begins l inFirst
    · exact late.begins l inRest

mutual

/-- The leaves picked from a tree are in the order of the source. -/
theorem Between.ordered {c d : Cursor} {t : SpanTree} {ls : List Leaf}
    (inOrder : Token.InOrder tokens size) (stands : c.StandsIn tokens) :
    Between c t d → t.Shows ls → Ordered c ls d
  | _, .skipped _ => .nil c d
  | between, .whole (l := l) same => by
    -- A whole node starts between the two cursors.
    have settled := between.settled inOrder stands
    refine ⟨List.pairwise_singleton _ _, ?_, ?_⟩
    all_goals simp only [List.mem_singleton, forall_eq, same]
    · exact settled.starts
    · exact settled.begins
  | .node _ before parts _ _ behind, .parts apart all =>
    (parts.ordered inOrder (stands.leads before) all apart).widen inOrder stands before parts.leads
      behind
  | .fragment _ _ _, .parts _ all => by
    cases all
    exact .nil c d

theorem AllBetween.ordered {c d : Cursor} {ts : List SpanTree} {ls : List Leaf}
    (inOrder : Token.InOrder tokens size) (stands : c.StandsIn tokens) :
    AllBetween c ts d → ShowsAll ts ls → (ts.Pairwise fun t u => ¬Twins t u) → Ordered c ls d
  | .nil _, .nil, _ => .nil c d
  | .cons first rest, .cons here others, apart =>
    (first.ordered inOrder stands here).append inOrder stands
      (rest.ordered inOrder (stands.leads first.leads) others (List.pairwise_cons.mp apart).2)
      first.leads rest.leads
  | @AllBetween.fields _ c₁ _ start fields trees way same group rest, shows_, apart => by
    have standsThere := stands.leads way
    have here (t : SpanTree) (member : t ∈ fields) (ls : List Leaf) (shows_ : t.Shows ls) :
        Ordered c ls c₁ := (group t member).ordered inOrder stands shows_
    have behind (ls : List Leaf) (shows_ : ShowsAll trees ls)
        (apart : trees.Pairwise fun t u => ¬Twins t u) : Ordered c₁ ls d :=
      rest.ordered inOrder standsThere shows_ apart
    -- Without twins there is one field at most.
    match fields, shows_ with
    | [], shows_ => exact (behind _ shows_ apart).widen inOrder stands way rest.leads (.refl d)
    | [f], .cons first others =>
      have ordered := here f List.mem_cons_self _ first
      exact ordered.append inOrder stands (behind _ others (List.pairwise_cons.mp apart).2) way
        rest.leads
    | f :: g :: more, _ =>
      obtain ⟨isField, start₁⟩ := same f (by simp)
      obtain ⟨isField', start₂⟩ := same g (by simp)
      have twins : Twins f g := ⟨isField, isField', start₁.trans start₂.symm⟩
      exact absurd twins ((List.pairwise_cons.mp apart).1 g (by simp))

end

end

end SpanTree

open SpanTree (Shows ShowsAll Twins noTwins_cons noTwins_map noTwins_map_append)

/-! ### The leaves as nodes of the tree -/

@[simp]
theorem PackageDecl.isField_tree (p : PackageDecl) : p.tree.isField = false := rfl

@[simp]
theorem ImportDecl.isField_tree (i : ImportDecl) : i.tree.isField = false := rfl

@[simp]
theorem Annotation.isField_tree (a : Annotation) : a.tree.isField = false := rfl

@[simp]
theorem TypeRef.isField_tree (t : TypeRef) : t.tree.isField = false := by
  rw [tree_eq]
  rfl

@[simp]
theorem TypeParameter.isField_tree (v : TypeParameter) : v.tree.isField = false := rfl

@[simp]
theorem Parameter.isField_tree (p : Parameter) : p.tree.isField = false := rfl

@[simp]
theorem Fragment.isField_tree (f : Fragment) : f.tree.isField = false := rfl

@[simp]
theorem Block.isField_tree (b : Block) : b.tree.isField = false := by
  rw [tree_eq]
  rfl

theorem TypeDecl.isField_tree (decl : TypeDecl) : decl.tree.isField = false := by
  obtain ⟨⟨⟩⟩ | ⟨⟨⟩⟩ | n := decl <;> rw [tree] <;> rfl

theorem Annotation.showAll (as : List Annotation) :
    ShowsAll (as.map tree) (as.map Leaf.marker) :=
  .map tree .marker (fun _ => rfl) as

theorem TypeParameter.showAll (vs : List TypeParameter) :
    ShowsAll (vs.map tree) (vs.map Leaf.typeParameter) :=
  .map tree .typeParameter (fun _ => rfl) vs

theorem TypeRef.shows_tree (t : TypeRef) : t.tree.Shows [.type t] := by
  rw [tree_eq]
  exact .whole rfl

theorem TypeRef.showAll (ts : List TypeRef) : ShowsAll (ts.map tree) (ts.map Leaf.type) := by
  rw [List.map_eq_flatMap (f := Leaf.type)]
  exact .flatMap ts fun t _ => t.shows_tree

theorem Parameter.shows_tree (p : Parameter) : p.tree.Shows p.leaves := by
  refine .parts ?_ ?_
  · exact noTwins_map_append Annotation.isField_tree _ (noTwins_cons p.type.isField_tree .nil)
  · have markers := Annotation.showAll p.annotations
    exact markers.append (.cons p.type.shows_tree .nil)

theorem Field.shows_tree (f : Field) : f.tree.Shows f.leaves := by
  refine .parts ?_ ?_
  · apply noTwins_map_append Annotation.isField_tree
    apply noTwins_cons f.type.isField_tree
    exact noTwins_map Fragment.isField_tree _
  · have markers := Annotation.showAll f.annotations
    exact markers.append (.cons f.type.shows_tree (.skipped _))

theorem Method.shows_tree (m : Method) : m.tree.Shows m.leaves := by
  refine .parts ?_ ?_
  · apply noTwins_map_append Annotation.isField_tree
    apply noTwins_map_append TypeParameter.isField_tree
    apply noTwins_cons m.returnType.isField_tree
    apply noTwins_map_append Parameter.isField_tree
    apply noTwins_map_append TypeRef.isField_tree
    exact noTwins_map Block.isField_tree _
  · have markers := Annotation.showAll m.annotations
    have typeVariables := TypeParameter.showAll m.typeParameters
    have parameters := ShowsAll.flatMap m.parameters fun p _ => p.shows_tree
    have thrown := (TypeRef.showAll m.exceptions).skip (m.body.toList.map Block.tree)
    have whole := markers.append (typeVariables.append (.cons m.returnType.shows_tree
      (parameters.append thrown)))
    simpa only [leaves, List.append_assoc] using whole

theorem Constructor.shows_tree (k : Constructor) : k.tree.Shows k.leaves := by
  refine .parts ?_ ?_
  · apply noTwins_map_append Annotation.isField_tree
    apply noTwins_map_append TypeParameter.isField_tree
    apply noTwins_map_append Parameter.isField_tree
    apply noTwins_map_append TypeRef.isField_tree
    exact noTwins_cons k.body.isField_tree .nil
  · have markers := Annotation.showAll k.annotations
    have typeVariables := TypeParameter.showAll k.typeParameters
    have parameters := ShowsAll.flatMap k.parameters fun p _ => p.shows_tree
    have thrown := (TypeRef.showAll k.exceptions).skip [k.body.tree]
    have whole := markers.append (typeVariables.append (parameters.append thrown))
    simpa only [leaves, List.append_assoc] using whole

/-- Fields that start at the same place are those of one declaration. -/
def BodyMember.Together : BodyMember → BodyMember → Prop
  | .field f, .field g => f.span.start = g.span.start
  | _, _ => False

instance : (part other : BodyMember) → Decidable (part.Together other)
  | .field f, .field g => inferInstanceAs (Decidable (f.span.start = g.span.start))
  | .method _, _ | .constructor _, _ | .initializer _, _ | .type _, _ => isFalse nofun
  | .field _, .method _ | .field _, .constructor _ | .field _, .initializer _
  | .field _, .type _ => isFalse nofun

/-- Each field of the body is declared by itself. -/
def TypeDecl.FieldsApart (decl : TypeDecl) : Prop :=
  decl.body.Pairwise fun part other => ¬part.Together other

instance (decl : TypeDecl) : Decidable decl.FieldsApart :=
  inferInstanceAs (Decidable (decl.body.Pairwise fun part other => ¬part.Together other))

theorem TypeDecl.FieldsApart.noTwins {decl : TypeDecl} (apart : decl.FieldsApart) :
    (BodyMember.trees decl.body).Pairwise fun t u => ¬Twins t u := by
  rw [BodyMember.trees_eq_map, List.pairwise_map]
  have only (part : BodyMember) (isField : part.tree.isField = true) :
      ∃ f : Field, part = .field f ∧ part.tree.span = f.span := by
    cases part with
    | field f => exact ⟨f, rfl, rfl⟩
    | method m => cases isField
    | constructor k => cases isField
    | initializer i => cases isField
    | type decl =>
      rw [BodyMember.tree, decl.isField_tree] at isField
      cases isField
  -- Only fields have trees of fields.
  apply apart.imp
  rintro part other different ⟨isField, isField', together⟩
  obtain ⟨f, rfl, span⟩ := only part isField
  obtain ⟨g, rfl, span'⟩ := only other isField'
  rw [span, span'] at together
  exact different together

mutual

theorem TypeDecl.shows_tree : (decl : TypeDecl) → (∀ inner, decl.Nests inner → inner.FieldsApart) →
    decl.tree.Shows decl.leaves
  | .classDecl ⟨m, as, n, vs, s, is, body, span⟩, apart => by
    have markers := Annotation.showAll as
    have typeVariables := TypeParameter.showAll vs
    have members := BodyMember.showAll body fun decl listed inner nests => apart inner (.inside listed nests)
    have noTwins := (apart _ (.self _)).noTwins
    rw [TypeDecl.tree]
    refine .parts ?_ ?_
    · apply noTwins_map_append Annotation.isField_tree
      apply noTwins_map_append TypeParameter.isField_tree
      apply noTwins_map_append TypeRef.isField_tree
      exact noTwins_map_append TypeRef.isField_tree _ noTwins
    · have whole := markers.append (typeVariables.append ((TypeRef.showAll s.toList).append
        ((TypeRef.showAll is).append members)))
      simpa only [TypeDecl.leaves, ClassDecl.leaves, List.append_assoc] using whole
  | .interfaceDecl ⟨m, as, n, vs, is, body, span⟩, apart => by
    have markers := Annotation.showAll as
    have typeVariables := TypeParameter.showAll vs
    have members := BodyMember.showAll body fun decl listed inner nests => apart inner (.inside listed nests)
    have noTwins := (apart _ (.self _)).noTwins
    rw [TypeDecl.tree]
    refine .parts ?_ ?_
    · apply noTwins_map_append Annotation.isField_tree
      apply noTwins_map_append TypeParameter.isField_tree
      exact noTwins_map_append TypeRef.isField_tree _ noTwins
    · have whole := markers.append (typeVariables.append ((TypeRef.showAll is).append members))
      simpa only [TypeDecl.leaves, InterfaceDecl.leaves, List.append_assoc] using whole
  | .nominal n, _ => by
    have markers := Annotation.showAll n.annotations
    rw [TypeDecl.tree, TypeDecl.leaves]
    exact .parts (noTwins_map Annotation.isField_tree _) markers

theorem BodyMember.shows_tree : (part : BodyMember) →
    (∀ decl, part = .type decl → ∀ inner, decl.Nests inner → inner.FieldsApart) →
    part.tree.Shows part.leaves
  | .field f, _ => f.shows_tree
  | .method m, _ => m.shows_tree
  | .constructor k, _ => k.shows_tree
  | .initializer _, _ => .skipped _
  | .type decl, apart => decl.shows_tree (apart decl rfl)

theorem BodyMember.showAll : (parts : List BodyMember) →
    (∀ decl, .type decl ∈ parts → ∀ inner, decl.Nests inner → inner.FieldsApart) →
    ShowsAll (BodyMember.trees parts) (BodyMember.allLeaves parts)
  | [], _ => .nil
  | part :: rest, apart =>
    .cons (part.shows_tree fun decl same => apart decl (same ▸ List.mem_cons_self))
      (BodyMember.showAll rest fun decl listed => apart decl (List.mem_cons_of_mem _ listed))

end

namespace CompilationUnit

/-- Each field of the unit is declared by itself, in every body. -/
def FieldsApart (unit : CompilationUnit) : Prop :=
  ∀ top ∈ unit.types, ∀ decl, top.Nests decl → decl.FieldsApart

instance (unit : CompilationUnit) : Decidable unit.FieldsApart :=
  decidable_of_iff (∀ top ∈ unit.types, ∀ decl ∈ top.nested, decl.FieldsApart)
    (by simp only [FieldsApart, TypeDecl.mem_nested_iff])

theorem showAll (unit : CompilationUnit) (apart : unit.FieldsApart) :
    ShowsAll unit.parts unit.leaves := by
  have package := ShowsAll.map PackageDecl.tree .package (fun _ => rfl)
    unit.package.toList
  have imports := ShowsAll.map ImportDecl.tree .importing (fun _ => rfl) unit.imports
  have types := ShowsAll.flatMap unit.types fun top listed => top.shows_tree (apart top listed)
  have whole := package.append (imports.append types)
  simpa only [parts, leaves, List.append_assoc] using whole

/-- The leaves of a unit follow the source. Where each field is declared by itself, each leaf starts
behind the one before it; and the leaves are the package, the imports, and the annotations, the type
parameters and the types of all declarations and their members, at whatever depth these are nested. -/
theorem leaves_follow_source {source : String} {unit : CompilationUnit}
    (returned : (read source).outcome = .ok unit) (apart : unit.FieldsApart) :
    (unit.leaves.Pairwise fun l k => l.span.start.offset < k.span.start.offset) ∧
      ∀ l, l ∈ unit.leaves ↔ unit.Mentions l := by
  obtain ⟨tokens, types, lexed, whole⟩ := read_eq_ok returned
  have ended : (ofTokens tokens).2 = .ok unit := by rw [whole]
  obtain ⟨d, readAs⟩ := ofTokens_eq_ok_iff.mp ended
  have inOrder := Token.inOrder_of_ofSource lexed
  have noTwins : unit.parts.Pairwise fun t u => ¬Twins t u := by
    apply noTwins_map_append PackageDecl.isField_tree
    apply noTwins_map_append ImportDecl.isField_tree
    exact noTwins_map TypeDecl.isField_tree _
  have ordered := readAs.between.1.ordered inOrder ⟨0, Cursor.at_start tokens⟩ (unit.showAll apart)
    noTwins
  exact ⟨ordered.increasing, unit.mem_leaves_iff⟩

/-- A package, an import, a class with a type below it, a method with all that it can mention. -/
private def leafySource : String :=
  "package p; import q.R; @X class A<T> extends B implements C \x7b @Y int a = 1; int b; " ++
    "<S> Map<T, ?> f(@Z int p, S[] q) throws E \x7b g(); \x7d interface D \x7b D d(); \x7d \x7d"

theorem leaves_follow_source_sample :
    ∃ unit, (read leafySource).outcome = .ok unit ∧ unit.FieldsApart ∧ unit.leaves.length = 16 ∧
      (unit.leaves.Pairwise fun l k => l.span.start.offset < k.span.start.offset) ∧
      ∀ l, l ∈ unit.leaves ↔ unit.Mentions l := by
  have computed : (read leafySource).outcome.toOption.map (fun unit =>
      (decide unit.FieldsApart, unit.leaves.length)) = some (true, 16) := by
    have signs : leafySource.toList = _ :=
      Text.toList_of_parts String.toList_ofList String.toList_ofList
    rw [read, Token.ofSource, Piece.ofSource, signs]
    decide +kernel
  obtain ⟨unit, ended, facts⟩ := Option.map_eq_some_iff.mp computed
  obtain ⟨apart, length⟩ := Prod.mk.inj facts
  have returned := toOption_eq_some ended
  have apart := of_decide_eq_true apart
  exact ⟨unit, returned, apart, length, leaves_follow_source returned apart⟩

end CompilationUnit

end TestDouble
