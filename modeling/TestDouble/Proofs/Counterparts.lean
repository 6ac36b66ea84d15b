import Mathlib.Data.List.Forall2
import TestDouble.Proofs.Synthesis

/-!
# What a counterpart keeps

A subclass is compared with the body of its base class, part by part. `Counterparts` walks down the
body: a method or constructor that is not abstract has one counterpart, which `OfMethod` and
`OfConstructor` describe field by field, and every other part has none.
-/

namespace TestDouble

/-- The second parameter is the first one without its modifiers and annotations. -/
structure Parameter.CopiedTo (p q : Parameter) : Prop where
  name : q.name = p.name
  type : q.type = p.type
  variadic : q.variadic = p.variadic
  unmodified : ∀ m, q.modifiers.contains m = false
  unannotated : q.annotations = []

namespace Counterpart

/-- A member of a subclass stands for a method, with the given statements as its body. -/
structure OfMethod (config : Config) (statements : List Statement) (m : Method)
    (counterpart : Counterpart) : Prop where
  kind : counterpart.kind = .method m.name m.returnType
  modifiers : ∀ n, counterpart.modifiers.contains n = true ↔
    n = .publicAccess ∨
      (m.modifiers.contains n = true ∧ n ≠ .privateAccess ∧ n ≠ .protectedAccess)
  typeParameters : counterpart.typeParameters = m.typeParameters
  parameters : List.Forall₂ Parameter.CopiedTo m.parameters counterpart.parameters
  statements : counterpart.statements = statements
  overrides : counterpart.isOverride = true ↔ m.modifiers.contains .privateAccess = false
  inherited : m.modifiers.contains .privateAccess = false → counterpart.exceptions = m.exceptions
  permissive : m.modifiers.contains .privateAccess = true →
    counterpart.exceptions = [.named config.permissiveException]

/-- A member of a subclass stands for a constructor, with the given statements as its body. -/
structure OfConstructor (statements : List Statement) (c : Constructor)
    (counterpart : Counterpart) : Prop where
  kind : counterpart.kind = .constructor
  modifiers : ∀ n, counterpart.modifiers.contains n = true ↔ n = .publicAccess
  typeParameters : counterpart.typeParameters = c.typeParameters
  parameters : List.Forall₂ Parameter.CopiedTo c.parameters counterpart.parameters
  statements : counterpart.statements = statements
  unmarked : counterpart.isOverride = false
  exceptions : counterpart.exceptions = []

end Counterpart

/-- The members of a subclass, compared with the parts of the body of its base class: what is
neither a method nor a constructor has no counterpart, nor has what is abstract, and the others have
one each, in their order. -/
inductive Counterparts (config : Config) (supplied : Member → List Statement) :
    List BodyMember → List Counterpart → Prop where
  | nil : Counterparts config supplied [] []
  | field {f : Field} {parts : List BodyMember} {found : List Counterpart} :
      Counterparts config supplied parts found →
      Counterparts config supplied (.field f :: parts) found
  | initializer {i : Initializer} {parts : List BodyMember} {found : List Counterpart} :
      Counterparts config supplied parts found →
      Counterparts config supplied (.initializer i :: parts) found
  | type {decl : TypeDecl} {parts : List BodyMember} {found : List Counterpart} :
      Counterparts config supplied parts found →
      Counterparts config supplied (.type decl :: parts) found
  | abstractMethod {m : Method} {parts : List BodyMember} {found : List Counterpart} :
      m.modifiers.contains .abstractMember = true →
      Counterparts config supplied parts found →
      Counterparts config supplied (.method m :: parts) found
  | abstractConstructor {c : Constructor} {parts : List BodyMember} {found : List Counterpart} :
      c.modifiers.contains .abstractMember = true →
      Counterparts config supplied parts found →
      Counterparts config supplied (.constructor c :: parts) found
  | method {m : Method} {counterpart : Counterpart} {parts : List BodyMember}
      {found : List Counterpart} :
      m.modifiers.contains .abstractMember = false →
      counterpart.OfMethod config (supplied (.method m)) m →
      Counterparts config supplied parts found →
      Counterparts config supplied (.method m :: parts) (counterpart :: found)
  | constructor {c : Constructor} {counterpart : Counterpart} {parts : List BodyMember}
      {found : List Counterpart} :
      c.modifiers.contains .abstractMember = false →
      counterpart.OfConstructor (supplied (.constructor c)) c →
      Counterparts config supplied parts found →
      Counterparts config supplied (.constructor c :: parts) (counterpart :: found)

/-- A subclass extends a class, applied to its own type variables, and has its counterparts. -/
structure Subclass.Faithful (config : Config) (provider : Provider) (decl : ClassDecl)
    (home title : String) (s : Subclass) : Prop where
  package : s.package = home
  name : s.name = title
  modifiers : ∀ m, s.modifiers.contains m = true ↔ m = .publicAccess ∨ m = .finalMember
  typeParameters : s.typeParameters = decl.typeParameters
  superclass : s.superclass =
    ⟨decl.name, decl.typeParameters.map fun p => .type (.named p.name), 0, none, decl.span⟩
  members : Counterparts config (fun member => (provider decl title member).statements)
    decl.body s.members

namespace ModifierSet

theorem contains_opened (s : ModifierSet) (n : Modifier) :
    s.opened.contains n = true ↔
      n = .publicAccess ∨ (s.contains n = true ∧ n ≠ .privateAccess ∧ n ≠ .protectedAccess) := by
  simp only [opened, contains_insert, contains_erase, Bool.or_eq_true, Bool.and_eq_true,
    Bool.not_eq_true', decide_eq_true_eq, decide_eq_false_iff_not]
  grind

/-- A set made from a list has the modifiers of the list. -/
theorem contains_ofList (ms : List Modifier) (n : Modifier) :
    (ofList ms).contains n = true ↔ n ∈ ms := by
  suffices grows : ∀ s : ModifierSet, (ms.foldl insert s).contains n = true ↔
      s.contains n = true ∨ n ∈ ms by
    rw [ofList, grows, contains_empty]
    simp
  induction ms with
  | nil => simp
  | cons m ms ih =>
    intro s
    rw [List.foldl_cons, ih, contains_insert]
    simp only [Bool.or_eq_true, decide_eq_true_eq, List.mem_cons]
    grind

end ModifierSet

namespace Counterpart

theorem copiedTo_bare (p : Parameter) : p.CopiedTo (bare p) :=
  ⟨rfl, rfl, rfl, ModifierSet.contains_empty, rfl⟩

theorem copiedTo_map_bare (ps : List Parameter) :
    List.Forall₂ Parameter.CopiedTo ps (ps.map bare) := by
  rw [List.forall₂_map_right_iff, List.forall₂_same]
  exact fun p _ => copiedTo_bare p

theorem ofMethod_ofMethod (config : Config) (statements : List Statement) (m : Method) :
    (ofMethod m config.permissiveException statements).OfMethod config statements m where
  kind := rfl
  modifiers := m.modifiers.contains_opened
  typeParameters := rfl
  parameters := copiedTo_map_bare m.parameters
  statements := rfl
  overrides := by simp [ofMethod, Method.isPrivate]
  inherited := by
    intro visible
    simp [ofMethod, Method.isPrivate, visible]
  permissive := by
    intro hidden
    simp [ofMethod, Method.isPrivate, hidden]

theorem ofConstructor_ofConstructor (statements : List Statement) (c : Constructor) :
    (ofConstructor c statements).OfConstructor statements c where
  kind := rfl
  modifiers := fun n => by
    rw [ofConstructor, ModifierSet.contains_ofList, List.mem_singleton]
  typeParameters := rfl
  parameters := copiedTo_map_bare c.parameters
  statements := rfl
  unmarked := rfl
  exceptions := rfl

end Counterpart

/-- Collecting, filtering and rebuilding the members of a body gives its counterparts. -/
theorem counterparts_of_body (config : Config) (supplied : Member → List Statement)
    (parts : List BodyMember) :
    Counterparts config supplied parts
      (((parts.filterMap Member.ofBody?).filter Member.isEligible).map fun member =>
        Counterpart.ofMember config (supplied member) member) := by
  induction parts with
  | nil => exact .nil
  | cons part parts ih =>
    cases part with
    | field f => exact .field ih
    | initializer i => exact .initializer ih
    | type decl => exact .type ih
    | method m =>
      have eligible : (Member.method m).isEligible = !m.modifiers.contains .abstractMember := rfl
      simp only [List.filterMap_cons, Member.ofBody?, List.filter_cons, eligible]
      cases abstract : m.modifiers.contains .abstractMember with
      | true => exact .abstractMethod abstract ih
      | false => exact .method abstract (Counterpart.ofMethod_ofMethod ..) ih
    | constructor c =>
      -- A constructor is taken by the same test as a method, also when it is marked abstract.
      have eligible : (Member.constructor c).isEligible = !c.modifiers.contains .abstractMember :=
        rfl
      simp only [List.filterMap_cons, Member.ofBody?, List.filter_cons, eligible]
      cases abstract : c.modifiers.contains .abstractMember with
      | true => exact .abstractConstructor abstract ih
      | false => exact .constructor abstract (Counterpart.ofConstructor_ofConstructor ..) ih

/-- A synthesized subclass has exactly the counterparts of the members of its base class, each with
the statements that the provider gives for the member. -/
theorem Subclass.faithful_of_synthesized {config : Config} {provider : Provider} {decl : ClassDecl}
    {package name : String} {s : Subclass}
    (returned : (decl.synthesize config provider package name).outcome = .ok s) :
    s.Faithful config provider decl package name := by
  obtain rfl := ClassDecl.synthesize_eq_ok returned
  constructor
  case package => rfl
  case name => rfl
  case modifiers =>
    intro m
    rw [ClassDecl.subclass, ModifierSet.contains_ofList]
    simp
  case typeParameters => rfl
  case superclass => rfl
  case members =>
    exact counterparts_of_body config (fun member => (provider decl name member).statements)
      decl.body

/-- A base class with every kind of part: fields, initializers and nested types beside a
constructor and methods with each kind of access. -/
def Subclass.sampleBase : ClassDecl :=
  let type : TypeRef := .named "T"
  let parameter : Parameter :=
    ⟨.ofList [.finalMember], [⟨"Nullable", [], .synthetic⟩], type, "items", true, .synthetic⟩
  let method (modifiers : List Modifier) (name : String) : BodyMember :=
    .method ⟨.ofList modifiers, [], [⟨"T", [], .synthetic⟩], type, name, [parameter],
      [.named "IOException"], some default, .synthetic⟩
  ⟨.empty, [], "Store", [⟨"T", [.named "Item"], .synthetic⟩], none, [],
    [.field ⟨.empty, [], type, "size", none, .synthetic⟩,
     .initializer ⟨true, default, .synthetic⟩,
     .constructor ⟨.ofList [.protectedAccess], [], [], "Store", [parameter], [.named "IOException"],
       default, .synthetic⟩,
     method [.protectedAccess, .synchronizedMethod] "load",
     .type (.nominal ⟨.enumeration, .empty, [], "Mode", .synthetic⟩),
     method [.abstractMember] "reset",
     method [.privateAccess, .staticMember] "hide"], .synthetic⟩

theorem Subclass.faithful_to_sampleBase :
    ∃ s, (sampleBase.synthesize {} (.marking 2) "shop" "StoreTestable").outcome = .ok s ∧
      s.Faithful {} (.marking 2) sampleBase "shop" "StoreTestable" ∧ s.members.length = 3 := by
  have returned : (sampleBase.synthesize {} (.marking 2) "shop" "StoreTestable").outcome =
      .ok (sampleBase.subclass {} (.marking 2) "shop" "StoreTestable") := rfl
  exact ⟨_, returned, faithful_of_synthesized returned, rfl⟩

end TestDouble
