import Mathlib.Data.List.ProdSigma
import Mathlib.Data.Set.Finite.List
import Mathlib.Order.WellFounded
import TestDouble.Proofs.BoundChains
import TestDouble.Proofs.ForwardedCalls

/-!
# Erasure of parameter types

A private method is looked up by the erasures of its parameter types. What a name means depends on
where it is written: in a bound of the method's type variables it may be one of these or one of the
class's, in a bound of the class's only one of the class's. `ScopedType.ErasesTo` is erasure in this
sense. The class literals come from one joined list instead, in which every link of a chain is looked
up again. The main result `Forwarding.literals_erase` says that they are the erasures wherever the
joined list leads from link to link as the declarations do (`ScopedType.ReadAlike`). It need not: a
type variable of the method may hide one of the class that a bound of the class is meant for.

A type whose chain of bounds does not loop has exactly one erasure. There are finitely many places a
chain can come to, so a chain that returns to none of them ends.
-/

namespace TestDouble

open Relation (ReflTransGen TransGen)

/-- The type variable that a name denotes where the given lists of type variables are in sight,
innermost first, with the lists in sight of that variable's bounds. -/
def TypeParameter.resolve? : List (List TypeParameter) → String →
    Option (TypeParameter × List (List TypeParameter))
  | [], _ => none
  | scope :: outer, name =>
    match scope.find? (·.name == name) with
    | some p => some (p, scope :: outer)
    | none => resolve? outer name

/-- A type with the lists of type variables in sight where it is written, innermost first. -/
structure ScopedType where
  scopes : List (List TypeParameter)
  type : TypeRef

namespace ScopedType

/-- The type variable that the type is, if it is one. -/
def declaration? (t : ScopedType) : Option (TypeParameter × List (List TypeParameter)) :=
  TypeParameter.resolve? t.scopes t.type.rawName

/-- From a type variable to its first bound, in sight of what the declaration sees. -/
inductive BoundedBy : ScopedType → ScopedType → Prop
  | first {t : ScopedType} {p : TypeParameter} {seen : List (List TypeParameter)} {bound : TypeRef}
      {others : List TypeRef} (declared : t.declaration? = some (p, seen))
      (bounds : p.bounds = bound :: others) : BoundedBy t ⟨seen, bound⟩

/-- The erasure of a type: a type variable becomes the erasure of its first bound, or `Object` without
bounds, and any other type loses its type arguments. Array dimensions are kept. -/
inductive ErasesTo : ScopedType → String → Prop
  | other {t : ScopedType} (free : t.declaration? = none) : ErasesTo t t.type.erasure
  | unbounded {t : ScopedType} {p : TypeParameter} {seen : List (List TypeParameter)}
      (declared : t.declaration? = some (p, seen)) (bounds : p.bounds = []) :
      ErasesTo t ("Object" ++ TypeRef.brackets t.type.dimensions)
  | bounded {t : ScopedType} {p : TypeParameter} {seen : List (List TypeParameter)}
      {bound : TypeRef} {others : List TypeRef} {text : String}
      (declared : t.declaration? = some (p, seen)) (bounds : p.bounds = bound :: others)
      (first : ErasesTo ⟨seen, bound⟩ text) :
      ErasesTo t (text ++ TypeRef.brackets t.type.dimensions)

/-- The chain of bounds that starts at the type never comes back to where it was. -/
def Acyclic (t : ScopedType) : Prop :=
  ∀ b, ReflTransGen BoundedBy t b → ¬ TransGen BoundedBy b b

/-- Along the chain of bounds that starts at the type, a list of type variables leads from each link
to the next as the declarations do. -/
structure ReadAlike (scope : List TypeParameter) (t : ScopedType) : Prop where
  /-- Each link denotes the same type variable in the list, or none in both. -/
  sameVariable : ∀ b, ReflTransGen BoundedBy t b →
    scope.find? (·.name == b.type.rawName) = b.declaration?.map Prod.fst
  /-- No bound is an array. -/
  notArray : ∀ b, TransGen BoundedBy t b → b.type.dimensions = 0
  /-- Where the chain ends without a bound, `Object` is no type variable. -/
  object : ∀ b, ReflTransGen BoundedBy t b → ∀ p seen, b.declaration? = some (p, seen) →
    p.bounds = [] → BoundChain.Free scope "Object"

end ScopedType

/-- A name is resolved to a variable of the innermost list that is in sight of its bounds. -/
theorem TypeParameter.resolve?_spec {scopes seen : List (List TypeParameter)} {name : String}
    {p : TypeParameter} (declared : resolve? scopes name = some (p, seen)) :
    seen <:+ scopes ∧ ∃ scope outer, seen = scope :: outer ∧ p ∈ scope := by
  fun_induction resolve? scopes name with
  | case1 => cases declared
  | case2 scope outer name p' found =>
    cases declared
    exact ⟨List.suffix_rfl, scope, outer, rfl, List.mem_of_find?_eq_some found⟩
  | case3 scope outer name missing ih =>
    obtain ⟨suffix, innermost⟩ := ih declared
    exact ⟨suffix.trans (List.suffix_cons scope outer), innermost⟩

namespace ScopedType

/-! ### Chains that do not loop -/

/-- The first bounds of type variables. -/
def firstBounds (scope : List TypeParameter) : List TypeRef := scope.filterMap (·.bounds.head?)

/-- Every place that a chain can come to after its start. -/
def places (t : ScopedType) : List ScopedType :=
  (t.scopes.tails ×ˢ firstBounds t.scopes.flatten).map fun place => ⟨place.1, place.2⟩

theorem firstBounds_subset {scope scope' : List TypeParameter} (within : scope ⊆ scope') :
    firstBounds scope ⊆ firstBounds scope' := by
  intro bound listed
  obtain ⟨p, member, first⟩ := List.mem_filterMap.mp listed
  exact List.mem_filterMap.mpr ⟨p, within member, first⟩

theorem BoundedBy.sight {t b : ScopedType} (link : BoundedBy t b) :
    b.scopes <:+ t.scopes ∧
      ∃ scope outer, b.scopes = scope :: outer ∧ b.type ∈ firstBounds scope := by
  cases link with
  | @first p seen bound others declared bounds =>
    obtain ⟨suffix, scope, outer, innermost, listed⟩ := TypeParameter.resolve?_spec declared
    have first : p.bounds.head? = some bound := by rw [bounds]; rfl
    exact ⟨suffix, scope, outer, innermost, List.mem_filterMap.mpr ⟨p, listed, first⟩⟩

theorem suffix_of_chain {t b : ScopedType} (reached : ReflTransGen BoundedBy t b) :
    b.scopes <:+ t.scopes := by
  induction reached with
  | refl => exact List.suffix_rfl
  | tail _ link ih => exact link.sight.1.trans ih

theorem sight_of_chain {t b : ScopedType} (reached : TransGen BoundedBy t b) :
    b.scopes <:+ t.scopes ∧
      ∃ scope outer, b.scopes = scope :: outer ∧ b.type ∈ firstBounds scope := by
  obtain ⟨above, _, link⟩ := Relation.TransGen.tail'_iff.mp reached
  exact ⟨suffix_of_chain reached.to_reflTransGen, link.sight.2⟩

theorem mem_firstBounds_of_chain {t b : ScopedType} (reached : TransGen BoundedBy t b) :
    b.type ∈ firstBounds t.scopes.flatten := by
  obtain ⟨suffix, scope, outer, innermost, listed⟩ := sight_of_chain reached
  have inside : scope ∈ t.scopes := suffix.subset (innermost ▸ List.mem_cons_self)
  exact firstBounds_subset (fun p member => List.mem_flatten_of_mem inside member) listed

theorem mem_places_of_chain {t b : ScopedType} (reached : ReflTransGen BoundedBy t b) :
    b ∈ t :: t.places := by
  -- Only the start may be a type of any kind; further on there are first bounds alone.
  rcases Relation.reflTransGen_iff_eq_or_transGen.mp reached with rfl | further
  · exact List.mem_cons_self
  · have sees : b.scopes ∈ t.scopes.tails := (List.mem_tails _ _).mpr (suffix_of_chain reached)
    have place := List.mem_product.mpr ⟨sees, mem_firstBounds_of_chain further⟩
    exact List.mem_cons_of_mem t (List.mem_map.mpr ⟨(b.scopes, b.type), place, rfl⟩)

/-- A chain that does not loop ends, so every type on it has an erasure. -/
theorem exists_erasesTo {t : ScopedType} (acyclic : t.Acyclic) : ∃ text, t.ErasesTo text := by
  -- On finitely many types, going further along the chain is well-founded when it never returns.
  have finite : Finite {b // ReflTransGen BoundedBy t b} := by
    apply Set.Finite.to_subtype
    exact (List.finite_toSet (t :: t.places)).subset fun b reached => mem_places_of_chain reached
  let Below (b a : {b // ReflTransGen BoundedBy t b}) : Prop := TransGen BoundedBy a.1 b.1
  have transitive : IsTrans _ Below := ⟨fun _ _ _ first second => second.trans first⟩
  have irreflexive : Std.Irrefl Below := ⟨fun b loop => acyclic b.1 b.2 loop⟩
  have wellFounded : WellFounded Below := Finite.wellFounded_of_trans_of_irrefl Below
  suffices all : ∀ b : {b // ReflTransGen BoundedBy t b}, ∃ text, b.1.ErasesTo text from
    all ⟨t, .refl⟩
  intro b
  induction b using wellFounded.induction with
  | h b ih =>
    cases declared : b.1.declaration? with
    | none => exact ⟨_, .other declared⟩
    | some found =>
      obtain ⟨p, seen⟩ := found
      cases bounds : p.bounds with
      | nil => exact ⟨_, .unbounded declared bounds⟩
      | cons bound others =>
        have link : BoundedBy b.1 ⟨seen, bound⟩ := .first declared bounds
        obtain ⟨text, first⟩ := ih ⟨_, b.2.tail link⟩ (.single link)
        exact ⟨_, .bounded declared bounds first⟩

theorem ErasesTo.unique {t : ScopedType} {text text' : String} (erases : t.ErasesTo text)
    (erases' : t.ErasesTo text') : text = text' := by
  -- What the type denotes decides the rule, and the bound is the first one in both.
  induction erases generalizing text' with
  | other free =>
    cases erases' with
    | other _ => rfl
    | unbounded declared' _ => simp [free] at declared'
    | bounded declared' _ _ => simp [free] at declared'
  | unbounded declared bounds =>
    cases erases' with
    | other free' => simp [free'] at declared
    | unbounded _ _ => rfl
    | bounded declared' bounds' _ =>
      cases declared.symm.trans declared'
      cases bounds.symm.trans bounds'
  | bounded declared bounds _ ih =>
    cases erases' with
    | other free' => simp [free'] at declared
    | unbounded declared' bounds' =>
      cases declared.symm.trans declared'
      cases bounds.symm.trans bounds'
    | bounded declared' bounds' first' =>
      cases declared.symm.trans declared'
      cases bounds.symm.trans bounds'
      rw [ih first']

theorem BoundedBy.unique {t b c : ScopedType} (link : BoundedBy t b) (link' : BoundedBy t c) :
    b = c := by
  cases link with
  | first declared bounds =>
    cases link' with
    | first declared' bounds' =>
      cases declared.symm.trans declared'
      cases bounds.symm.trans bounds'
      rfl

/-- A type without a bound is on no loop, nor is one whose bound is on no loop. -/
theorem acyclic_of_bounds {t : ScopedType} (bounds : ∀ b, BoundedBy t b → b.Acyclic) :
    t.Acyclic := by
  intro b reached loop
  rcases reached.cases_head with rfl | ⟨bound, link, further⟩
  · obtain ⟨bound, link, back⟩ := Relation.TransGen.head'_iff.mp loop
    exact bounds bound link bound .refl (.tail' back link)
  · exact bounds bound link b further loop

/-- A type that has an erasure starts no chain that loops. -/
theorem ErasesTo.acyclic {t : ScopedType} {text : String} (erases : t.ErasesTo text) :
    t.Acyclic := by
  induction erases with
  | other free =>
    apply acyclic_of_bounds
    rintro b ⟨declared, _⟩
    simp [free] at declared
  | unbounded declared bounds =>
    apply acyclic_of_bounds
    rintro b ⟨declared', bounds'⟩
    cases declared.symm.trans declared'
    cases bounds.symm.trans bounds'
  | bounded declared bounds _ ih =>
    apply acyclic_of_bounds
    intro b link
    rw [← BoundedBy.unique (.first declared bounds) link]
    exact ih

/-! ### The joined list -/

theorem ReadAlike.bound {scope : List TypeParameter} {t b : ScopedType} (alike : ReadAlike scope t)
    (link : BoundedBy t b) : ReadAlike scope b where
  sameVariable c reached := alike.sameVariable c (.head link reached)
  notArray c reached := alike.notArray c (.head link reached)
  object c reached := alike.object c (.head link reached)

theorem ReadAlike.found {scope : List TypeParameter} {t : ScopedType} (alike : ReadAlike scope t)
    {p : TypeParameter} {seen : List (List TypeParameter)}
    (declared : t.declaration? = some (p, seen)) :
    scope.find? (·.name == t.type.rawName) = some p := by
  rw [alike.sameVariable t .refl, declared]
  rfl

open BoundChain (Free next next_of_found)

/-- A list that reads alike leads to the erasure. -/
theorem ErasesTo.iterate {scope : List TypeParameter} {t : ScopedType} {text : String}
    (erases : t.ErasesTo text) (alike : ReadAlike scope t) :
    ∃ steps, Free scope ((next scope)^[steps] t.type.rawName) ∧
      text = (next scope)^[steps] t.type.rawName ++ TypeRef.brackets t.type.dimensions := by
  induction erases with
  | @other t free =>
    have missing : Free scope t.type.rawName := by
      rw [Free, alike.sameVariable t .refl, free]
      rfl
    exact ⟨0, missing, rfl⟩
  | @unbounded t p seen declared bounds =>
    have step : next scope t.type.rawName = "Object" := by
      rw [next_of_found (alike.found declared), TypeParameter.bound, bounds]
    refine ⟨1, ?_, ?_⟩
    · rw [Function.iterate_one, step]
      exact alike.object t .refl p seen declared bounds
    · rw [Function.iterate_one, step]
  | @bounded t p seen bound others text declared bounds _ ih =>
    have link : BoundedBy t ⟨seen, bound⟩ := .first declared bounds
    have step : next scope t.type.rawName = bound.rawName := by
      rw [next_of_found (alike.found declared), TypeParameter.bound, bounds]
    -- The list goes on with the bare name of the bound, so the bound must have no dimensions.
    have plain : bound.dimensions = 0 := alike.notArray _ (.single link)
    obtain ⟨steps, free, rfl⟩ := ih (alike.bound link)
    have bare : TypeRef.brackets bound.dimensions = "" := by rw [plain]; rfl
    refine ⟨steps + 1, ?_, ?_⟩
    · rw [Function.iterate_succ_apply, step]
      exact free
    · rw [Function.iterate_succ_apply, step, bare, String.append_empty]

/-- Where a list reads alike, what it makes of a type is the type's erasure. -/
theorem erasedIn_of_readAlike {scope : List TypeParameter} {t : ScopedType} {text : String}
    (alike : ReadAlike scope t) (erases : t.ErasesTo text) : t.type.erasedIn scope = text := by
  obtain ⟨steps, free, rfl⟩ := erases.iterate alike
  exact TypeRef.erasedIn_of_free free

/-! ### Declarations that cannot be mistaken -/

theorem declaration?_map_fst (t : ScopedType) :
    t.declaration?.map Prod.fst = t.scopes.flatten.find? (·.name == t.type.rawName) := by
  rw [declaration?]
  fun_induction TypeParameter.resolve? t.scopes t.type.rawName with
  | case1 => rfl
  | case2 scope outer name p found => simp [found]
  | case3 scope outer name missing ih => simpa [missing] using ih

section

variable {own outer : List TypeParameter} {t : TypeRef}

/-- Two lists can be joined when no variable of the inner one is named in a bound of the outer one, no
bound is an array and no variable is called `Object`. -/
theorem readAlike_of_apart
    (apart : ∀ bound ∈ firstBounds outer, BoundChain.Free own bound.rawName)
    (notArray : ∀ bound ∈ firstBounds (own ++ outer), bound.dimensions = 0)
    (object : BoundChain.Free (own ++ outer) "Object") :
    ReadAlike (own ++ outer) ⟨[own, outer], t⟩ := by
  have joined : [own, outer].flatten = own ++ outer := by simp
  refine ⟨fun b reached => ?_, fun b reached => ?_, fun _ _ _ _ _ _ => object⟩
  · rw [declaration?_map_fst]
    -- A link is written in sight of both lists, or it is a bound of the outer one.
    rcases Relation.reflTransGen_iff_eq_or_transGen.mp reached with rfl | further
    · rw [joined]
    obtain ⟨suffix, scope, rest, innermost, listed⟩ := sight_of_chain further
    rw [innermost] at suffix ⊢
    rcases List.suffix_cons_iff.mp suffix with both | one
    · rw [both, joined]
    · rcases List.suffix_cons_iff.mp one with one | none
      · obtain ⟨rfl, rfl⟩ := List.cons.inj one
        have missing : own.find? (·.name == b.type.rawName) = none := apart _ listed
        rw [List.find?_append, missing]
        simp
      · cases List.suffix_nil.mp none
  · apply notArray
    rw [← joined]
    exact mem_firstBounds_of_chain reached

end

end ScopedType

namespace Forwarding

/-- The class literals that a private method is looked up with name the erasures of its parameter
types, one more dimension for a variable number of arguments. This holds for every parameter whose
type's bounds do not loop, so that there is exactly one erasure, and whose chain of bounds is the same
in the joined list of the method's and the class's type variables. -/
theorem literals_erase (decl : ClassDecl) {m : Method}
    (hidden : m.modifiers.contains .privateAccess = true) :
    ∃ literals : List String,
      (forward (some decl) (.method m)).statements.head?.map Statement.expand =
        some (.ok ("java.lang.reflect.Method superMethod = " ++
          call (holder decl m ++ ".getDeclaredMethod") (Text.Quoted.encode m.name :: literals))) ∧
      List.Forall₂ (fun p literal =>
        let t : ScopedType := ⟨[m.typeParameters, decl.typeParameters], p.type⟩
        t.Acyclic →
          (∃! text, t.ErasesTo text) ∧
          (t.ReadAlike (m.typeParameters ++ decl.typeParameters) →
            ∀ text, t.ErasesTo text →
              literal = text ++ (if p.variadic then "[]" else "") ++ ".class"))
        m.parameters literals := by
  let scope := m.typeParameters ++ decl.typeParameters
  refine ⟨m.parameters.map (classLiteral scope), ?_, ?_⟩
  · have expanded := expand_lookup decl m scope
    simp only [forward, Method.isPrivate, hidden, if_true, reflective, List.head?_cons,
      Option.map_some, Option.getD_some]
    rw [expanded]
  · rw [List.forall₂_map_right_iff, List.forall₂_same]
    intro p _ t acyclic
    obtain ⟨text, erases⟩ := ScopedType.exists_erasesTo acyclic
    refine ⟨⟨text, erases, fun other erases' => erases'.unique erases⟩, ?_⟩
    intro alike text erases
    rw [classLiteral, ← ScopedType.erasedIn_of_readAlike alike erases]

/-- `Box<T extends Number, U extends java.util.List<T>>`, without members. -/
def genericBox : ClassDecl :=
  ⟨.empty, [], "Box",
    [⟨"T", [.named "Number"], .synthetic⟩,
     ⟨"U", [⟨"java.util.List", [.type (.named "T")], 0, none, .synthetic⟩], .synthetic⟩],
    none, [], [], .synthetic⟩

/-- `private <K extends U, U> void put(T[] ts, K key, T... more)`, where `U` hides that of the class. -/
def hidingPut : Method :=
  let parameter (type : TypeRef) (name : String) (variadic : Bool) : Parameter :=
    ⟨.empty, [], type, name, variadic, .synthetic⟩
  ⟨.ofList [.privateAccess], [],
    [⟨"K", [.named "U"], .synthetic⟩, ⟨"U", [], .synthetic⟩], .named "void", "put",
    [parameter ((TypeRef.named "T").addDimensions 1) "ts" false, parameter (.named "K") "key" false,
     parameter (.named "T") "more" true], [], some default, .synthetic⟩

/-- Type variables of both lists, one of them hidden harmlessly; and a variable of the class whose
bound is another of the class, which a method hides: the erasure is `Object`, but the joined list leads
to what the method's variable is bounded by. -/
theorem literals_erase_of_hidden :
    (forward (some genericBox) (.method hidingPut)).statements.head?.map Statement.expand =
        some (.ok ("java.lang.reflect.Method superMethod = getClass().getSuperclass()" ++
          ".getDeclaredMethod(\"put\", Number[].class, Object.class, Number[].class)")) ∧
      let own : List TypeParameter := [⟨"T", [.named "Number"], .synthetic⟩]
      let outer : List TypeParameter := [⟨"T", [], .synthetic⟩, ⟨"U", [.named "T"], .synthetic⟩]
      ScopedType.ErasesTo ⟨[own, outer], .named "U"⟩ "Object" ∧
        (TypeRef.named "U").erasedIn (own ++ outer) = "Number" := by
  constructor
  · obtain ⟨literals, expanded, each⟩ := literals_erase genericBox (m := hidingPut) (by decide)
    let scopes := [hidingPut.typeParameters, genericBox.typeParameters]
    have alike (t : TypeRef) : ScopedType.ReadAlike scopes.flatten ⟨scopes, t⟩ :=
      ScopedType.readAlike_of_apart (by decide +kernel) (by decide +kernel) (by decide +kernel)
    have number (dimensions : Nat) :
        ScopedType.ErasesTo ⟨scopes, (TypeRef.named "T").addDimensions dimensions⟩
          ("Number" ++ TypeRef.brackets (0 + dimensions)) :=
      .bounded rfl rfl (.other rfl)
    have object : ScopedType.ErasesTo ⟨scopes, .named "K"⟩
        ("Object" ++ TypeRef.brackets 0 ++ TypeRef.brackets 0) :=
      .bounded rfl rfl (.unbounded rfl rfl)
    obtain ⟨ts, _, tsErased, others, rfl⟩ := List.forall₂_cons_left_iff.mp each
    obtain ⟨key, _, keyErased, last, rfl⟩ := List.forall₂_cons_left_iff.mp others
    obtain ⟨more, _, moreErased, none, rfl⟩ := List.forall₂_cons_left_iff.mp last
    cases none
    rw [expanded, (tsErased (number 1).acyclic).2 (alike _) _ (number 1),
      (keyErased object.acyclic).2 (alike _) _ object,
      (moreErased (number 0).acyclic).2 (alike _) _ (number 0)]
    decide +kernel
  · intro own outer
    have first : ScopedType.ErasesTo ⟨[outer], .named "T"⟩ ("Object" ++ TypeRef.brackets 0) :=
      .unbounded rfl rfl
    exact ⟨.bounded rfl rfl first, by decide +kernel⟩

end Forwarding

end TestDouble
