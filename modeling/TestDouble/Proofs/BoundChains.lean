import Mathlib.Data.Finset.Card
import Mathlib.Data.Finset.Range
import Mathlib.Data.Nat.Find
import Mathlib.Logic.Function.Iterate
import Mathlib.Logic.Relation
import TestDouble.Provider

/-!
# Chains of bounds

A type variable stands for its first bound, which may be a type variable again. `resolveName` follows
such a chain for as many steps as there are type variables in scope, and one more. A chain that ends
has no name twice, so these steps are enough (`resolveName_of_free`): shadowed declarations and bounds
that loop only ever make a chain shorter than the list it runs through. A chain that does not end comes
back to a name it has been at. Both together are `TypeRef.erasedIn_follows_bounds`.
-/

namespace TestDouble

open Relation (ReflTransGen TransGen)

/-- What a type variable stands for: its first bound, or `Object` without bounds. -/
def TypeParameter.bound (p : TypeParameter) : String :=
  match p.bounds with
  | [] => "Object"
  | bound :: _ => bound.rawName

namespace BoundChain

/-- No type variable in scope has the name. -/
def Free (scope : List TypeParameter) (name : String) : Prop :=
  scope.find? (·.name == name) = none

instance (scope : List TypeParameter) : DecidablePred (Free scope) :=
  fun _ => inferInstanceAs (Decidable (_ = none))

/-- One step along a chain. A name that is free stays as it is. -/
def next (scope : List TypeParameter) (name : String) : String :=
  match scope.find? (·.name == name) with
  | none => name
  | some found => found.bound

variable {scope : List TypeParameter} {name : String}

theorem next_of_free (free : Free scope name) : next scope name = name := by
  rw [next, free]

theorem next_of_found {p : TypeParameter} (found : scope.find? (·.name == name) = some p) :
    next scope name = p.bound := by
  rw [next, found]

/-- From a free name on, a chain stands still. -/
theorem iterate_of_free (free : Free scope name) (steps : Nat) :
    (next scope)^[steps] name = name :=
  Function.iterate_fixed (next_of_free free) steps

/-- Where a chain stands at a free name, it stands at that name later on. -/
theorem iterate_eq_of_free {steps later : Nat} (free : Free scope ((next scope)^[steps] name))
    (le : steps ≤ later) : (next scope)^[later] name = (next scope)^[steps] name := by
  obtain ⟨more, rfl⟩ := Nat.exists_eq_add_of_le' le
  rw [Function.iterate_add_apply, iterate_of_free free]

theorem mem_names_of_not_free (declared : ¬ Free scope name) :
    name ∈ scope.map TypeParameter.name := by
  obtain ⟨p, found⟩ := Option.ne_none_iff_exists'.mp declared
  have named : p.name = name := by simpa using List.find?_some found
  exact List.mem_map.mpr ⟨p, List.mem_of_find?_eq_some found, named⟩

/-- A name that is met twice comes round again, so a free name is met before the second time. -/
theorem free_earlier {i j steps : Nat} (le : j ≤ steps)
    (same : (next scope)^[i] name = (next scope)^[j] name)
    (free : Free scope ((next scope)^[steps] name)) :
    Free scope ((next scope)^[steps - j + i] name) := by
  have whole : steps - j + j = steps := Nat.sub_add_cancel le
  rw [Function.iterate_add_apply, same, ← Function.iterate_add_apply, whole]
  exact free

/-- A chain that has met no free name in as many steps as there are type variables has met some name
twice. -/
theorem exists_repetition (declared : ∀ i ≤ scope.length, ¬Free scope ((next scope)^[i] name)) :
    ∃ i j, i < j ∧ j ≤ scope.length ∧ (next scope)^[i] name = (next scope)^[j] name := by
  have inNames : ∀ i ∈ Finset.range (scope.length + 1),
      (next scope)^[i] name ∈ (scope.map TypeParameter.name).toFinset := by
    intro i inside
    have le : i ≤ scope.length := Nat.le_of_lt_succ (Finset.mem_range.mp inside)
    exact List.mem_toFinset.mpr (mem_names_of_not_free (declared i le))
  have few : (scope.map TypeParameter.name).toFinset.card <
      (Finset.range (scope.length + 1)).card := calc
    (scope.map TypeParameter.name).toFinset.card ≤ (scope.map TypeParameter.name).length :=
      List.toFinset_card_le _
    _ = scope.length := List.length_map _
    _ < scope.length + 1 := Nat.lt_succ_self _
    _ = (Finset.range (scope.length + 1)).card := (Finset.card_range _).symm
  obtain ⟨i, inside, j, inside', different, same⟩ :=
    Finset.exists_ne_map_eq_of_card_lt_of_maps_to few inNames
  rw [Finset.mem_range, Nat.lt_succ_iff] at inside inside'
  rcases Nat.lt_or_gt_of_ne different with lt | gt
  · exact ⟨i, j, lt, inside', same⟩
  · exact ⟨j, i, gt, inside, same.symm⟩

/-- A chain that ever meets a free name meets one within as many steps as there are type variables. -/
theorem free_within_length {steps : Nat} (free : Free scope ((next scope)^[steps] name)) :
    Free scope ((next scope)^[scope.length] name) := by
  have ends : ∃ n, Free scope ((next scope)^[n] name) := ⟨steps, free⟩
  -- If the first free name came later, a name would be met twice before, and a free one earlier.
  have few : Nat.find ends ≤ scope.length := by
    by_contra later
    have declared (i : Nat) (le : i ≤ scope.length) : ¬Free scope ((next scope)^[i] name) :=
      Nat.find_min ends (by omega)
    obtain ⟨i, j, lt, le, same⟩ := exists_repetition declared
    have again := free_earlier (by omega) same (Nat.find_spec ends)
    exact Nat.find_min ends (by omega) again
  rw [iterate_eq_of_free (Nat.find_spec ends) few]
  exact Nat.find_spec ends

/-! ### Names that a chain leads to -/

/-- From the name of a type variable in scope, the first one of the name, to what it stands for. -/
inductive Step (scope : List TypeParameter) : String → String → Prop where
  | bound {name : String} {p : TypeParameter} (found : scope.find? (·.name == name) = some p) :
      Step scope name p.bound

theorem step_next (declared : ¬Free scope name) : Step scope name (next scope name) := by
  obtain ⟨p, found⟩ := Option.ne_none_iff_exists'.mp declared
  rw [next_of_found found]
  exact .bound found

/-- The names that a chain leads to are those where it stands after some number of steps. -/
theorem exists_iterate_of_reached {other : String} (reached : ReflTransGen (Step scope) name other) :
    ∃ steps, (next scope)^[steps] name = other := by
  induction reached with
  | refl => exact ⟨0, rfl⟩
  | tail _ step ih =>
    obtain ⟨steps, rfl⟩ := ih
    cases step with
    | bound found => exact ⟨steps + 1, by rw [Function.iterate_succ_apply', next_of_found found]⟩

theorem reached_iterate (scope : List TypeParameter) (name : String) (steps : Nat) :
    ReflTransGen (Step scope) name ((next scope)^[steps] name) := by
  induction steps with
  | zero => exact .refl
  | succ steps ih =>
    rw [Function.iterate_succ_apply']
    by_cases free : Free scope ((next scope)^[steps] name)
    · rwa [next_of_free free]
    · exact ih.tail (step_next free)

/-- A chain that meets no free name comes to a name that leads back to itself. -/
theorem exists_loop (endless : ∀ steps, ¬Free scope ((next scope)^[steps] name)) :
    ∃ other, ReflTransGen (Step scope) name other ∧ TransGen (Step scope) other other := by
  obtain ⟨i, j, lt, -, same⟩ := exists_repetition fun i _ => endless i
  obtain ⟨more, rfl⟩ := Nat.exists_eq_add_of_lt lt
  refine ⟨(next scope)^[i] name, reached_iterate scope name i, ?_⟩
  have around : (next scope)^[more] (next scope ((next scope)^[i] name)) =
      (next scope)^[i] name := by
    rw [← Function.iterate_succ_apply, ← Function.iterate_add_apply, same]
    congr 1
    omega
  have back := reached_iterate scope (next scope ((next scope)^[i] name)) more
  rw [around] at back
  exact .head' (step_next (endless i)) back

end BoundChain

open BoundChain (Free Step next next_of_found iterate_of_free iterate_eq_of_free free_within_length
  exists_iterate_of_reached reached_iterate exists_loop)

section

variable {scope : List TypeParameter} {name : String}

theorem resolveName_of_name_free (free : Free scope name) (steps : Nat) :
    resolveName scope name (steps + 1) = some name := by
  rw [resolveName, free]

theorem resolveName_of_found {p : TypeParameter}
    (found : scope.find? (·.name == name) = some p) (steps : Nat) :
    resolveName scope name (steps + 1) = resolveName scope p.bound steps := by
  rw [resolveName, found]
  rfl

/-- Following a name comes to the name where its chain then stands, if that is free. -/
theorem resolveName_eq (scope : List TypeParameter) (name : String) (steps : Nat) :
    resolveName scope name (steps + 1) =
      if Free scope ((next scope)^[steps] name) then some ((next scope)^[steps] name) else none := by
  -- A step moves the name along its chain, so the induction is for all names at once.
  induction steps generalizing name with
  | zero =>
    rw [Function.iterate_zero_apply]
    split
    next free => exact resolveName_of_name_free free 0
    next declared =>
      obtain ⟨p, found⟩ := Option.ne_none_iff_exists'.mp declared
      rw [resolveName_of_found found, resolveName]
  | succ steps ih =>
    by_cases free : Free scope name
    · rw [resolveName_of_name_free free, iterate_of_free free, if_pos free]
    · obtain ⟨p, found⟩ := Option.ne_none_iff_exists'.mp free
      rw [resolveName_of_found found, ih, Function.iterate_succ_apply, next_of_found found]

/-- However many steps a chain takes to a free name, it is followed all the way. -/
theorem resolveName_of_free {steps : Nat}
    (free : Free scope ((next scope)^[steps] name)) :
    resolveName scope name (scope.length + 1) = some ((next scope)^[steps] name) := by
  have within := free_within_length free
  have same : (next scope)^[scope.length] name = (next scope)^[steps] name := by
    rcases Nat.le_total steps scope.length with le | le
    · exact iterate_eq_of_free free le
    · exact (iterate_eq_of_free within le).symm
  rw [resolveName_eq, if_pos within, same]

/-- More steps than there are type variables make no difference. -/
theorem resolveName_of_length_lt {steps : Nat} (enough : scope.length < steps) :
    resolveName scope name steps = resolveName scope name (scope.length + 1) := by
  obtain ⟨later, rfl⟩ := Nat.exists_eq_add_of_lt enough
  rw [resolveName_eq, resolveName_eq]
  by_cases free : Free scope ((next scope)^[scope.length] name)
  · rw [iterate_eq_of_free free (Nat.le_add_right _ later)]
  · have never : ¬Free scope ((next scope)^[scope.length + later] name) :=
      fun ends => free (free_within_length ends)
    rw [if_neg never, if_neg free]

/-- The chain of a type decides what it is named in a class literal. -/
theorem TypeRef.erasedIn_of_free {t : TypeRef} {steps : Nat}
    (free : Free scope ((next scope)^[steps] t.rawName)) :
    t.erasedIn scope = (next scope)^[steps] t.rawName ++ brackets t.dimensions := by
  rw [erasedIn, resolveName_of_free free]
  rfl

end

/-- What a type is named in a class literal is where the chain of bounds from its name ends, however
long the chain is. If no name on the chain is free, the chain runs into a loop and the type is named
`Object`. A larger number of steps would give the same. -/
theorem TypeRef.erasedIn_follows_bounds (scope : List TypeParameter) (t : TypeRef) :
    (∀ name, ReflTransGen (Step scope) t.rawName name → Free scope name →
      t.erasedIn scope = name ++ brackets t.dimensions) ∧
    ((∀ name, ReflTransGen (Step scope) t.rawName name → ¬Free scope name) →
      t.erasedIn scope = "Object" ++ brackets t.dimensions ∧
      ∃ name, ReflTransGen (Step scope) t.rawName name ∧ TransGen (Step scope) name name) ∧
    ∀ steps, scope.length < steps →
      resolveName scope t.rawName steps = resolveName scope t.rawName (scope.length + 1) := by
  refine ⟨?_, ?_, fun steps => resolveName_of_length_lt⟩
  · intro name reached free
    obtain ⟨steps, rfl⟩ := exists_iterate_of_reached reached
    exact erasedIn_of_free free
  · intro endless
    have declared (steps : Nat) : ¬Free scope ((next scope)^[steps] t.rawName) :=
      endless _ (reached_iterate scope t.rawName steps)
    refine ⟨?_, exists_loop declared⟩
    rw [erasedIn, resolveName_eq, if_neg (declared _)]
    rfl

/-- `<A extends B, B extends C<A>, A extends D, C, Object extends Number>`, where the second `A` is
never found and `Object` is a type variable. -/
private def shadowingScope : List TypeParameter :=
  [⟨"A", [.named "B"], .synthetic⟩, ⟨"B", [⟨"C", [.type (.named "A")], 0, none, .synthetic⟩], .synthetic⟩,
   ⟨"A", [.named "D"], .synthetic⟩, ⟨"C", [], .synthetic⟩, ⟨"Object", [.named "Number"], .synthetic⟩]

/-- `<A extends B, B extends A>`. -/
private def loopingScope : List TypeParameter :=
  [⟨"A", [.named "B"], .synthetic⟩, ⟨"B", [.named "A"], .synthetic⟩]

/-- A chain through all that can be found, with `Object` on its way, and one that goes round. -/
theorem TypeRef.erasedIn_follows_bounds_of_shadowing_and_looping :
    ((named "A").addDimensions 2).erasedIn shadowingScope = "Number[][]" ∧
      ((named "A").addDimensions 1).erasedIn loopingScope = "Object[]" := by
  constructor
  · obtain ⟨ends, -⟩ := erasedIn_follows_bounds shadowingScope ((named "A").addDimensions 2)
    have stands : (next shadowingScope)^[4] "A" = "Number" := by decide +kernel
    have reached := reached_iterate shadowingScope "A" 4
    rw [stands] at reached
    exact ends "Number" reached (by decide +kernel)
  · obtain ⟨-, loops, -⟩ := erasedIn_follows_bounds loopingScope ((named "A").addDimensions 1)
    have around : ∀ name ∈ ["A", "B"], ¬Free loopingScope name ∧
        next loopingScope name ∈ ["A", "B"] := by decide +kernel
    have stays (steps : Nat) : (next loopingScope)^[steps] "A" ∈ ["A", "B"] := by
      induction steps with
      | zero => exact List.mem_cons_self
      | succ steps ih =>
        rw [Function.iterate_succ_apply']
        exact (around _ ih).2
    have endless : ∀ name, ReflTransGen (Step loopingScope) "A" name → ¬Free loopingScope name := by
      intro name reached
      obtain ⟨steps, rfl⟩ := exists_iterate_of_reached reached
      exact (around _ (stays steps)).1
    exact (loops endless).1

end TestDouble
