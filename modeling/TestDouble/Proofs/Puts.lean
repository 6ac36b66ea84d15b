import Mathlib.Data.List.Infix
import TestDouble.Disk

/-!
# What stands where after a put

A put shows at its place and below it, makes directories of the places above it, and leaves all that
lies elsewhere as it was. To make a missing directory first and to put something below it then is
the same as to put it there at once. So a disk on which no directory is put away only grows.
-/

namespace TestDouble

namespace Entry

/-! ### Named entries -/

/-- Named entries with the one of the given name set, which is added when it is missing. -/
def set (name : String) (entry : Entry) (entries : List (String × Entry)) : List (String × Entry) :=
  match entries.lookup name with
  | some _ => replace name entry entries
  | none => (name, entry) :: entries

theorem lookup_cons_eq (name called : String) (entry : Entry) (entries : List (String × Entry)) :
    ((called, entry) :: entries).lookup name =
      if name = called then some entry else entries.lookup name := by
  rw [List.lookup_cons]
  split <;> simp_all

theorem lookup_replace (name other : String) (new : Entry) (entries : List (String × Entry)) :
    (replace name new entries).lookup other =
      if other = name then (entries.lookup name).map fun _ => new else entries.lookup other := by
  induction entries with
  | nil => simp [replace]
  | cons first entries ih =>
    obtain ⟨called, old⟩ := first
    change ((if called = name then (name, new) else (called, old)) ::
      replace name new entries).lookup other = _
    by_cases here : called = name
    · by_cases same : other = name <;> simp_all [lookup_cons_eq]
    · by_cases same : other = name
      · subst same
        simp_all [lookup_cons_eq, Ne.symm here]
      · simp_all [lookup_cons_eq]

theorem lookup_set_self (name : String) (new : Entry) (entries : List (String × Entry)) :
    (set name new entries).lookup name = some new := by
  unfold set
  split
  next found => rw [lookup_replace, if_pos rfl, found, Option.map_some]
  next => rw [lookup_cons_eq, if_pos rfl]

theorem lookup_set_of_ne {name other : String} (differ : other ≠ name) (new : Entry)
    (entries : List (String × Entry)) :
    (set name new entries).lookup other = entries.lookup other := by
  unfold set
  split
  next => rw [lookup_replace, if_neg differ]
  next => rw [lookup_cons_eq, if_neg differ]

private theorem replace_of_missing {name : String} {entries : List (String × Entry)}
    (missing : entries.lookup name = none) (new : Entry) : replace name new entries = entries := by
  induction entries with
  | nil => rfl
  | cons first entries ih =>
    obtain ⟨called, old⟩ := first
    rw [lookup_cons_eq] at missing
    split at missing
    next => cases missing
    next differ =>
      change (if called = name then (name, new) else (called, old)) :: replace name new entries = _
      rw [if_neg (Ne.symm differ), ih missing]

private theorem replace_replace (name : String) (first second : Entry)
    (entries : List (String × Entry)) :
    replace name second (replace name first entries) = replace name second entries := by
  rw [replace, replace, replace, List.map_map]
  refine List.map_congr_left fun e _ => ?_
  by_cases here : e.1 = name <;> simp [here]

/-- Of two entries set under one name the second counts. -/
theorem set_set (name : String) (first second : Entry) (entries : List (String × Entry)) :
    set name second (set name first entries) = set name second entries := by
  have there := lookup_set_self name first entries
  rw [set, there]
  cases found : entries.lookup name with
  | some old =>
    simp only [set, found]
    exact replace_replace name first second entries
  | none =>
    simp only [set, found]
    change (if name = name then (name, second) else _) :: replace name second entries = _
    rw [if_pos rfl, replace_of_missing found]

/-! ### Places below an entry -/

theorem get?_cons (e : Entry) (name : String) (rest : Place) :
    e.get? (name :: rest) = (e.entries.lookup name).bind fun next => next.get? rest := by
  rw [get?]
  cases e.entries.lookup name <;> rfl

theorem put_cons (e new : Entry) (name : String) (rest : Place) :
    e.put new (name :: rest) = directory
      (set name (((e.entries.lookup name).getD (directory [])).put new rest) e.entries) := by
  rw [put, set]
  cases e.entries.lookup name <;> rfl

theorem get?_append (e : Entry) (place below : Place) :
    e.get? (place ++ below) = (e.get? place).bind fun next => next.get? below := by
  induction place generalizing e with
  | nil => rfl
  | cons name place ih =>
    rw [List.cons_append, get?_cons, get?_cons]
    cases e.entries.lookup name with
    | none => rfl
    | some next => exact ih next

theorem isDirectory_iff {e : Entry} : e.isDirectory = true ↔ ∃ entries, e = directory entries := by
  cases e <;> simp [isDirectory]

/-- What has something below it is a directory. -/
theorem isDirectory_of_lookup {e next : Entry} {name : String}
    (found : e.entries.lookup name = some next) : e.isDirectory = true := by
  cases e with
  | directory => rfl
  | text content => cases found
  | binary => cases found

theorem get?_put_append (e new : Entry) (place below : Place) :
    (e.put new place).get? (place ++ below) = new.get? below := by
  induction place generalizing e with
  | nil => rfl
  | cons name place ih =>
    rw [List.cons_append, put_cons, get?_cons, entries, lookup_set_self, Option.bind_some, ih]

/-- Above the place of a put there are directories. -/
theorem get?_put_above (e new : Entry) (above : Place) (name : String) (rest : Place) :
    ∃ entries, (e.put new (above ++ name :: rest)).get? above = some (directory entries) := by
  induction above generalizing e with
  | nil =>
    rw [List.nil_append, put_cons]
    exact ⟨_, rfl⟩
  | cons first above ih =>
    rw [List.cons_append, put_cons, get?_cons, entries, lookup_set_self, Option.bind_some]
    exact ih _

theorem get?_put_of_apart (e new : Entry) {place other : Place} (notBelow : ¬place <+: other)
    (notAbove : ¬other <+: place) : (e.put new place).get? other = e.get? other := by
  induction place generalizing e other with
  | nil => exact absurd List.nil_prefix notBelow
  | cons name place ih =>
    cases other with
    | nil => exact absurd List.nil_prefix notAbove
    | cons first other =>
      rw [put_cons, get?_cons, get?_cons, entries]
      by_cases same : first = name
      · rw [same, List.prefix_cons_inj] at notBelow notAbove
        rw [same, lookup_set_self, Option.bind_some, ih _ notBelow notAbove]
        cases e.entries.lookup name with
        | some next => rfl
        | none =>
          -- Nothing is found in the directory that stands in for the missing one.
          cases other with
          | nil => exact absurd List.nil_prefix notAbove
          | cons => rfl
      · rw [lookup_set_of_ne same]

theorem put_put (e first second : Entry) (place below : Place) :
    (e.put first place).put second (place ++ below) = e.put (first.put second below) place := by
  -- On the way to the place the second put sets each name that the first one has set.
  induction place generalizing e with
  | nil => rfl
  | cons name place ih =>
    rw [List.cons_append, put_cons, put_cons, put_cons, entries, lookup_set_self, set_set,
      Option.getD_some, ih]

/-- What is put below a missing place makes the directory there. -/
theorem put_of_missing {e : Entry} {place : Place} (missing : e.get? place = none) (new : Entry)
    (below : Place) : e.put ((directory []).put new below) place = e.put new (place ++ below) := by
  induction place generalizing e with
  | nil => cases missing
  | cons name place ih =>
    rw [List.cons_append, put_cons, put_cons]
    rw [get?_cons] at missing
    cases found : e.entries.lookup name with
    | some next =>
      rw [found] at missing
      rw [Option.getD_some, ih missing]
    | none =>
      -- From here on all is missing, down to the place and below it.
      rw [Option.getD_none]
      cases place with
      | nil => rfl
      | cons => rw [ih rfl]

end Entry

namespace Disk

variable {d d' d'' : Disk} {place other : Place}

/-! ### Places of a disk -/

/-- There is a directory at a place. -/
def HasDirectory (d : Disk) (place : Place) : Prop :=
  ∃ entries, d.entry? place = some (.directory entries)

theorem entry?_of_get? {e : Entry} (found : d.root.get? place = some e) :
    d.entry? place = some e := by
  rw [Disk.entry?, found]

theorem hasDirectory_of_stands {e : Entry} (stands : d.entry? place = some e)
    (isDirectory : e.isDirectory = true) : d.HasDirectory place := by
  obtain ⟨entries, rfl⟩ := Entry.isDirectory_iff.mp isDirectory
  exact ⟨entries, stands⟩

/-- There is a directory above all that stands. -/
theorem get?_above {name : String} {below : Place} {e : Entry}
    (found : d.root.get? (place ++ name :: below) = some e) :
    ∃ entries, d.root.get? place = some (.directory entries) := by
  rw [Entry.get?_append, Option.bind_eq_some_iff] at found
  obtain ⟨directory, stands, found⟩ := found
  rw [Entry.get?_cons, Option.bind_eq_some_iff] at found
  obtain ⟨next, listed, _⟩ := found
  obtain ⟨entries, rfl⟩ := Entry.isDirectory_iff.mp (Entry.isDirectory_of_lookup listed)
  exact ⟨entries, stands⟩

theorem entry?_of_not_base (notBase : isBase place = false) :
    d.entry? place = d.root.get? place := by
  rw [Disk.entry?, notBase]
  cases d.root.get? place <;> rfl

/-- A name that leads on into a directory is not part of a base place. -/
theorem isBase_append_cons {name : String} (notUp : name ≠ "..") (notRoot : name ≠ "/")
    (above below : Place) : isBase (above ++ name :: below) = false := by
  rw [isBase, List.all_append, List.all_cons, beq_eq_false_iff_ne.mpr notUp, Bool.false_and,
    Bool.and_false, Bool.false_or]
  apply beq_eq_false_iff_ne.mpr
  intro same
  cases above with
  | nil => exact notRoot (List.cons.inj same).1
  | cons _ above => simp at same

/-- What stands below an entry of the disk stands on the disk. -/
theorem entry?_append {e below : Entry} (stands : d.entry? place = some e) {rest : Place}
    (found : e.get? rest = some below) : d.entry? (place ++ rest) = some below := by
  cases get : d.root.get? place with
  | some e' =>
    obtain rfl := Option.some.inj ((entry?_of_get? get).symm.trans stands)
    apply entry?_of_get?
    rw [Entry.get?_append, get, Option.bind_some, found]
  | none =>
    rw [Disk.entry?, get] at stands
    dsimp only at stands
    split at stands
    next base =>
      -- A base place that the disk does not list is empty.
      obtain rfl := Option.some.inj stands
      cases rest with
      | nil =>
        obtain rfl := Option.some.inj found
        rw [List.append_nil, Disk.entry?, get, if_pos base]
      | cons => cases found
    next => cases stands

theorem isBase_of_append (base : isBase (place ++ other) = true) : isBase place = true := by
  rw [isBase, Bool.or_eq_true, List.all_append, Bool.and_eq_true, beq_iff_eq] at base
  rw [isBase, Bool.or_eq_true, beq_iff_eq]
  rcases base with up | root
  · exact .inl up.1
  · rcases List.append_eq_singleton_iff.mp root with ⟨rfl, _⟩ | ⟨rfl, _⟩
    · exact .inl rfl
    · exact .inr rfl

/-! ### Growth -/

/-- All places of a disk are places of another, and its directories are directories there. -/
structure GrowsTo (d d' : Disk) : Prop where
  isSome : ∀ place, (d.root.get? place).isSome → (d'.root.get? place).isSome
  directory : ∀ place, d.HasDirectory place → d'.HasDirectory place

theorem GrowsTo.refl (d : Disk) : d.GrowsTo d := ⟨fun _ => id, fun _ => id⟩

theorem GrowsTo.trans (first : d.GrowsTo d') (second : d'.GrowsTo d'') : d.GrowsTo d'' :=
  ⟨fun place => second.isSome place ∘ first.isSome place,
    fun place => second.directory place ∘ first.directory place⟩

theorem entry?_put_append (d : Disk) (new : Entry) (place : Place) {rest : Place} {e : Entry}
    (found : new.get? rest = some e) : Disk.entry? (d.put place new) (place ++ rest) = some e := by
  apply entry?_of_get?
  rw [put, Entry.get?_put_append, found]

theorem entry?_put_self (d : Disk) (new : Entry) (place : Place) :
    Disk.entry? (d.put place new) place = some new := by
  simpa using d.entry?_put_append new place (show new.get? [] = some new by rfl)

theorem entry?_put_of_apart (d : Disk) (new : Entry) (notBelow : ¬place <+: other)
    (notAbove : ¬other <+: place) : Disk.entry? (d.put place new) other = d.entry? other := by
  rw [Disk.entry?, Disk.entry?, put, Entry.get?_put_of_apart _ _ notBelow notAbove]

/-- Of two places one is below the other or neither is. -/
theorem places_cases (place other : Place) :
    (∃ below, other = place ++ below) ∨ (∃ name below, place = other ++ name :: below) ∨
      (¬place <+: other ∧ ¬other <+: place) := by
  by_cases down : place <+: other
  · obtain ⟨below, rfl⟩ := down
    exact .inl ⟨below, rfl⟩
  · by_cases up : other <+: place
    · obtain ⟨below, rfl⟩ := up
      cases below with
      | nil => exact absurd (by rw [List.append_nil]) down
      | cons name below => exact .inr (.inl ⟨name, below, rfl⟩)
    · exact .inr (.inr ⟨down, up⟩)

/-- Nothing stands below a place without a directory. -/
theorem get?_below (vacant : ∀ e, d.root.get? place = some e → e.isDirectory = false)
    (name : String) (below : Place) : d.root.get? (place ++ name :: below) = none := by
  cases found : d.root.get? (place ++ name :: below) with
  | none => rfl
  | some e =>
    obtain ⟨entries, stands⟩ := get?_above found
    cases vacant _ stands

/-- A disk grows when something is put where no directory was. -/
theorem growsTo_put (new : Entry) (notBase : isBase place = false)
    (vacant : ∀ e, d.root.get? place = some e → e.isDirectory = false) :
    d.GrowsTo (d.put place new) := by
  constructor
  · intro other stood
    rcases places_cases place other with ⟨below, rfl⟩ | ⟨name, below, rfl⟩ | ⟨notBelow, notAbove⟩
    · cases below with
      | nil => rw [put, Entry.get?_put_append]; rfl
      | cons name below =>
        rw [get?_below vacant] at stood
        cases stood
    · obtain ⟨entries, found⟩ := Entry.get?_put_above d.root new other name below
      rw [put, found]
      rfl
    · rwa [put, Entry.get?_put_of_apart _ _ notBelow notAbove]
  · rintro other ⟨entries, stood⟩
    rcases places_cases place other with ⟨below, rfl⟩ | ⟨name, below, rfl⟩ | ⟨notBelow, notAbove⟩
    · -- No directory is at the place of the put or below it, and no base place is either.
      have notBaseBelow : isBase (place ++ below) = false :=
        Bool.eq_false_iff.mpr fun base => Bool.eq_false_iff.mp notBase (isBase_of_append base)
      rw [entry?_of_not_base notBaseBelow] at stood
      cases below with
      | nil =>
        rw [List.append_nil] at stood
        cases vacant _ stood
      | cons name below =>
        rw [get?_below vacant] at stood
        cases stood
    · obtain ⟨entries, found⟩ := Entry.get?_put_above d.root new other name below
      exact ⟨entries, entry?_of_get? found⟩
    · rw [HasDirectory, entry?_put_of_apart d new notBelow notAbove]
      exact ⟨entries, stood⟩

end Disk

end TestDouble
