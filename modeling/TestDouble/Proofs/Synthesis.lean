import Mathlib.Data.List.Forall2
import TestDouble.Generation

/-!
# What a run synthesizes

A run that succeeds went through every one of its parts. So the subclass that a synthesis ends with
is the one that the class, the provider and the configuration determine, and a source gives one unit
for each of its classes, in their order.
-/

namespace TestDouble

theorem exists_mem_of_forall₂ {α β : Type} {R : α → β → Prop} {as : List α} {bs : List β}
    (each : List.Forall₂ R as bs) {b : β} (member : b ∈ bs) : ∃ a ∈ as, R a b := by
  induction each with
  | nil => cases member
  | @cons a _ _ _ related _ ih =>
    rcases List.mem_cons.mp member with rfl | later
    · exact ⟨a, List.mem_cons_self, related⟩
    · obtain ⟨a', listed, found⟩ := ih later
      exact ⟨a', List.mem_cons_of_mem _ listed, found⟩

theorem exists_forall₂ {α β : Type} {R : α → β → Prop} {as : List α}
    (each : ∀ a ∈ as, ∃ b, R a b) : ∃ bs, List.Forall₂ R as bs := by
  induction as with
  | nil => exact ⟨[], .nil⟩
  | cons a as ih =>
    obtain ⟨⟨b, related⟩, later⟩ := List.forall_mem_cons.mp each
    obtain ⟨bs, rest⟩ := ih later
    exact ⟨b :: bs, .cons related rest⟩

namespace Traced

variable {α β : Type}

theorem bind_eq_ok {first : Traced α} {next : α → Traced β} {value : β}
    (returned : (first >>= next).outcome = .ok value) :
    ∃ a, first.outcome = .ok a ∧ (next a).outcome = .ok value := by
  change (andThen first next).outcome = _ at returned
  unfold andThen at returned
  split at returned
  next => simp at returned
  next a ended => exact ⟨a, ended, returned⟩

private theorem mapFrom_eq_ok {f : α → Traced β} {items : List α} {events : List Event}
    {values results : List β} (returned : (mapFrom f items events values).outcome = .ok results) :
    ∃ others, results = values.reverse ++ others ∧
      List.Forall₂ (fun item value => (f item).outcome = .ok value) items others := by
  induction items generalizing events values with
  | nil =>
    cases returned
    exact ⟨[], (List.append_nil _).symm, .nil⟩
  | cons item items ih =>
    simp only [mapFrom] at returned
    split at returned
    next => simp at returned
    next value ended =>
      obtain ⟨others, rfl, each⟩ := ih returned
      exact ⟨value :: others, by simp, .cons ended each⟩

theorem mapAll_eq_ok {f : α → Traced β} {items : List α} {values : List β}
    (returned : (mapAll f items).outcome = .ok values) :
    List.Forall₂ (fun item value => (f item).outcome = .ok value) items values := by
  obtain ⟨others, rfl, each⟩ := mapFrom_eq_ok returned
  exact each

end Traced

theorem Counterpart.statements_ofMember (config : Config) (statements : List Statement)
    (member : Member) : (ofMember config statements member).statements = statements := by
  cases member <;> rfl

namespace ClassDecl

/-- The subclass that a class determines: a counterpart for every member that gets one. -/
def subclass (config : Config) (provider : Provider) (decl : ClassDecl) (package name : String) :
    Subclass :=
  ⟨package, name, .ofList [.publicAccess, .finalMember], decl.typeParameters, decl.asType,
    decl.eligibleMembers.map fun member =>
      Counterpart.ofMember config (provider decl name member).statements member⟩

theorem synthesize_eq_ok {config : Config} {provider : Provider} {decl : ClassDecl}
    {package name : String} {s : Subclass}
    (returned : (decl.synthesize config provider package name).outcome = .ok s) :
    s = decl.subclass config provider package name := by
  obtain ⟨members, collected, returned⟩ := Traced.bind_eq_ok returned
  obtain rfl : decl.eligibleMembers = members := Except.ok.inj collected
  split at returned
  next => simp [Traced.failed] at returned
  next =>
    obtain ⟨counterparts, rebuilt, returned⟩ := Traced.bind_eq_ok returned
    obtain ⟨_, _, finished⟩ := Traced.bind_eq_ok returned
    -- Rebuilding a member never fails, whatever is noted on the way.
    have each := (Traced.mapAll_eq_ok rebuilt).imp fun _ _ ended => Except.ok.inj ended
    have same : decl.eligibleMembers.map _ = counterparts :=
      List.forall₂_eq_eq_eq ▸ List.forall₂_map_left_iff.mpr each
    rw [subclass, same]
    exact (Except.ok.inj finished).symm

end ClassDecl

/-- The unit that is generated for a class of the given package. -/
structure GeneratedUnit.OfClass (config : Config) (provider : Provider) (package : String)
    (decl : ClassDecl) (generated : GeneratedUnit) : Prop where
  subclass : generated.subclass =
    decl.subclass config provider package (decl.name ++ config.classSuffix)
  source : generated.subclass.render config = .ok generated.source

theorem GeneratedUnit.ofSource_eq_ok {config : Config} {provider : Provider} {source : String}
    {units : List GeneratedUnit}
    (returned : (ofSource config provider source).outcome = .ok units) :
    ∃ unit, (CompilationUnit.read source).outcome = .ok unit ∧
      List.Forall₂ (OfClass config provider unit.packageName) unit.classes units := by
  obtain ⟨unit, read, returned⟩ := Traced.bind_eq_ok returned
  refine ⟨unit, read, (Traced.mapAll_eq_ok returned).imp fun decl generated ended => ?_⟩
  obtain ⟨s, synthesized, ended⟩ := Traced.bind_eq_ok ended
  obtain ⟨text, rendered, finished⟩ := Traced.bind_eq_ok ended
  obtain rfl := Except.ok.inj finished
  exact ⟨ClassDecl.synthesize_eq_ok synthesized, rendered⟩

theorem CompilationUnit.read_eq_ok {source : String} {unit : CompilationUnit}
    (returned : (read source).outcome = .ok unit) :
    ∃ tokens types, Token.ofSource source = .ok tokens ∧ ofTokens tokens = (types, .ok unit) := by
  unfold read at returned
  split at returned
  next => simp [Traced.failed] at returned
  next tokens lexed =>
    refine ⟨tokens, (ofTokens tokens).1, lexed, ?_⟩
    obtain ⟨_, _, returned⟩ := Traced.bind_eq_ok returned
    obtain ⟨_, _, ended⟩ := Traced.bind_eq_ok returned
    change (ofTokens tokens).2.mapError Error.parse = _ at ended
    cases outcome : (ofTokens tokens).2 with
    | error e =>
      rw [outcome] at ended
      cases ended
    | ok found =>
      rw [outcome] at ended
      obtain rfl := Except.ok.inj ended
      exact Prod.ext rfl outcome

end TestDouble
