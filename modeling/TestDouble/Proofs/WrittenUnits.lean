import TestDouble.Proofs.MadeDirectories
import TestDouble.Proofs.UnitPlaces

/-!
# Units on the disk

While units are written, the input stays as it is, and each path that a unit was reported for holds
the source of the last unit that was: one unit written keeps this, and so do all of a run.
-/

namespace TestDouble

/-- The output directory, which is made when it is not there yet, is empty and outside the input,
and to make it leaves the input as it is. -/
structure Disk.Vacant (d : Disk) (input output : String) (made : Disk) (place : Place) : Prop where
  opens : d.makeDirectoryAt output = .ok (made, place)
  directory : made.HasDirectory place
  empty : made.listing place = []
  outside : ∀ source, d.find input = .ok source →
    ¬source <+: place ∧ made.entry? source = d.entry? source

namespace TreeState

variable {α : Type} {disk : Disk} {source place : Place} {output : String}
  {units more : List GeneratedUnit} {s s' : TreeState}

/-- What each item keeps, all items keep. -/
theorem each_keeps {f : α → TreeState → TreeState × Option Error} {items : List α}
    {P : List α → TreeState → Prop} (first : P [] s)
    (step : ∀ done item rest s s', items = done ++ item :: rest → P done s →
      f item s = (s', none) → P (done ++ [item]) s')
    (finished : each f items s = (s', none)) : P items s' := by
  have general : ∀ rest done s, items = done ++ rest → P done s → each f rest s = (s', none) →
      P items s' := by
    intro rest
    induction rest with
    | nil =>
      intro done s whole holds finished
      obtain ⟨rfl, _⟩ := Prod.mk.inj finished
      rwa [whole, List.append_nil]
    | cons item rest ih =>
      intro done s whole holds finished
      rw [each] at finished
      split at finished
      next s₁ did =>
        refine ih (done ++ [item]) s₁ ?_ (step done item rest s s₁ whole holds did) finished
        rw [whole, List.append_assoc, List.singleton_append]
      next failed =>
        -- A failure would be the result of the run.
        exact absurd finished (failed s')
  exact general items [] s rfl first finished

/-- The disk has room for the units below the output place, and that leaves the input alone. -/
structure HasRoom (disk : Disk) (source : Place) (output : String) (place : Place) (m : Disk) :
    Prop where
  leads : m.Leads (Disk.startOf output).1 (Path.steps output) place
  directory : m.HasDirectory place
  input : m.entry? source = disk.entry? source

/-- What holds while units are written. -/
structure Holds (disk : Disk) (source : Place) (output : String) (place : Place)
    (units : List GeneratedUnit) (s : TreeState) : Prop where
  filed : ∀ unit ∈ units, unit.subclass.IsFiled
  written : s.written = (units.map (·.target output)).reverse
  grown : disk.GrowsTo s.disk
  input : s.disk.entry? source = disk.entry? source
  opens : ∃ m, s.disk.makeDirectories (Disk.startOf output).1 (Path.steps output).reverse = .ok m ∧
    HasRoom disk source output place m ∧ s.disk.GrowsTo m ∧ (units ≠ [] → m = s.disk)
  found : ∀ unit ∈ units, s.disk.find (unit.target output) = .ok (unit.placeIn place)
  last : ∀ before unit after, units = before ++ unit :: after →
    (∀ later ∈ after, later.target output ≠ unit.target output) →
    s.disk.entry? (unit.placeIn place) = some (.text unit.source)

/-- No unit is written into the input or above it. -/
def Apart (source place : Place) : Prop :=
  ∀ unit : GeneratedUnit, unit.subclass.IsFiled →
    ¬source <+: unit.placeIn place ∧ ¬unit.placeIn place <+: source

namespace Holds

/-- Records are of no account. -/
theorem of_eq (holds : Holds disk source output place units s) (sameDisk : s'.disk = s.disk)
    (sameWritten : s'.written = s.written) : Holds disk source output place units s' := by
  obtain ⟨d, events, written⟩ := s
  obtain ⟨d', events', written'⟩ := s'
  obtain rfl : d' = d := sameDisk
  obtain rfl : written' = written := sameWritten
  exact ⟨holds.filed, holds.written, holds.grown, holds.input, holds.opens, holds.found, holds.last⟩

/-- The last unit with a path is the one that is added, or it was the last before and has another
path. -/
private theorem last_cases {unit g : GeneratedUnit} {before after : List GeneratedUnit}
    (whole : units ++ [g] = before ++ unit :: after) :
    unit = g ∨ ∃ after', units = before ++ unit :: after' ∧ after = after' ++ [g] := by
  rcases List.eq_nil_or_concat after with rfl | ⟨after', last, rfl⟩
  · exact .inl (List.cons.inj (List.append_inj' whole rfl).2).1.symm
  · rw [List.concat_eq_append, ← List.cons_append, ← List.append_assoc] at whole
    obtain ⟨rest, same⟩ := List.append_inj' whole rfl
    obtain rfl := (List.cons.inj same).1
    exact .inr ⟨after', rest, List.concat_eq_append⟩

theorem writeUnit (holds : Holds disk source output place units s) (apart : Apart source place)
    {g : GeneratedUnit} (filed : g.subclass.IsFiled)
    (finished : TreeState.writeUnit output g s = (s', none)) :
    Holds disk source output place (units ++ [g]) s' := by
  obtain ⟨m, opens, room, grown, same⟩ := holds.opens
  obtain ⟨sameStart, steps, called⟩ := GeneratedUnit.target_path filed output
  unfold TreeState.writeUnit at finished
  dsimp only at finished
  split at finished
  next => cases (Prod.mk.inj finished).2
  next d' written =>
    obtain ⟨rfl, _⟩ := Prod.mk.inj finished
    obtain ⟨rfl, grows, found⟩ := Disk.write_below opens room.leads room.directory sameStart steps
      called filed.names written
    -- All that happened to the disk is one put, apart from the input.
    obtain ⟨notBelow, notAbove⟩ := apart g filed
    have inputSame :=
      (Disk.entry?_put_of_apart m (.text g.source) notAbove notBelow).trans room.input
    have room' : HasRoom disk source output place (m.put (g.placeIn place) (.text g.source)) :=
      ⟨room.leads.mono grows, grows.directory _ room.directory, inputSame⟩
    constructor
    · rw [List.forall_mem_append, List.forall_mem_singleton]
      exact ⟨holds.filed, filed⟩
    · change _ :: s.written = _
      rw [holds.written, List.map_append, List.reverse_append]
      rfl
    · exact (holds.grown.trans grown).trans grows
    · exact inputSame
    · have opens' := Disk.makeDirectories_of_leads room'.leads room'.directory
      exact ⟨_, opens', room', .refl _, fun _ => rfl⟩
    · rw [List.forall_mem_append, List.forall_mem_singleton]
      exact ⟨fun unit listed => Disk.find_mono (grown.trans grows) (holds.found unit listed), found⟩
    · intro before unit after whole lastOne
      rcases last_cases whole with rfl | ⟨after', split, rfl⟩
      · exact m.entry?_put_self _ _
      · -- An earlier unit with another path stands apart from the one that is written.
        have listed : unit ∈ units := split ▸ List.mem_append_right _ List.mem_cons_self
        rw [List.forall_mem_append, List.forall_mem_singleton] at lastOne
        have stood := holds.last before unit after' split lastOne.1
        rw [← same (List.ne_nil_of_mem listed)] at stood
        have unitFiled := holds.filed unit listed
        exact (Disk.entry?_put_of_apart m (.text g.source)
          (GeneratedUnit.apart_of_target_ne filed unitFiled lastOne.2 place)
          (GeneratedUnit.apart_of_target_ne unitFiled filed lastOne.2.symm place)).trans stood

theorem writeUnits (holds : Holds disk source output place units s) (apart : Apart source place)
    (filed : ∀ unit ∈ more, unit.subclass.IsFiled)
    (finished : each (TreeState.writeUnit output) more s = (s', none)) :
    Holds disk source output place (units ++ more) s' := by
  refine each_keeps (P := fun done s => Holds disk source output place (units ++ done) s) ?_ ?_
    finished
  · rwa [List.append_nil]
  · intro done unit rest s s' whole holds finished
    rw [← List.append_assoc]
    refine holds.writeUnit apart (filed unit ?_) finished
    rw [whole]
    exact List.mem_append_right _ List.mem_cons_self

end Holds

end TreeState

end TestDouble
