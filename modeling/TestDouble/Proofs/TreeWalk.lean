import TestDouble.Proofs.WrittenUnits

/-!
# Walking a tree of sources

A walk visits every file below the input once. So the units of a run that succeeds are those of the
classes of all its sources, and they are written to as many places as there are pairs of a package
and a class name among them: a unit stays on the disk unless a class with the same package and name
comes after its own.
-/

namespace TestDouble

/-! ### Tidy disks -/

/-- An entry that a file system can hold: the names in a directory differ, and each of them is a
name of its own or leads out of the working directory to another one. -/
inductive Entry.IsTidy : Entry → Prop where
  | text {content : String} : IsTidy (.text content)
  | binary : IsTidy .binary
  | directory {entries : List (String × Entry)} :
      (entries.map Prod.fst).Nodup →
      (∀ e ∈ entries, Path.IsName e.1 ∧ e.1.utf8ByteSize ≤ Disk.nameLimit ∨
        (e.1 = ".." ∨ e.1 = "/") ∧ e.2.isDirectory = true) →
      (∀ e ∈ entries, e.2.IsTidy) → IsTidy (.directory entries)

/-- A disk that a file system can be. -/
def Disk.IsTidy (d : Disk) : Prop := d.root.IsTidy

namespace Entry

theorem lookup_mem {name : String} {e : Entry} {entries : List (String × Entry)}
    (found : entries.lookup name = some e) : (name, e) ∈ entries := by
  induction entries with
  | nil => cases found
  | cons first entries ih =>
    obtain ⟨called, old⟩ := first
    rw [lookup_cons_eq] at found
    split at found
    next same =>
      obtain rfl := Option.some.inj found
      rw [same]
      exact List.mem_cons_self
    next => exact .tail _ (ih found)

theorem lookup_of_mem {name : String} {e : Entry} {entries : List (String × Entry)}
    (differ : (entries.map Prod.fst).Nodup) (listed : (name, e) ∈ entries) :
    entries.lookup name = some e := by
  induction entries with
  | nil => cases listed
  | cons first entries ih =>
    obtain ⟨called, old⟩ := first
    rw [List.map_cons, List.nodup_cons] at differ
    rw [lookup_cons_eq]
    rcases List.mem_cons.mp listed with same | later
    · obtain ⟨rfl, rfl⟩ := Prod.mk.inj same
      rw [if_pos rfl]
    · rw [if_neg, ih differ.2 later]
      intro same
      exact differ.1 (List.mem_map.mpr ⟨(name, e), later, same⟩)

theorem IsTidy.get? {e below : Entry} {place : Place} (tidy : e.IsTidy)
    (found : e.get? place = some below) : below.IsTidy := by
  induction place generalizing e with
  | nil =>
    obtain rfl := Option.some.inj found
    exact tidy
  | cons name place ih =>
    rw [get?_cons, Option.bind_eq_some_iff] at found
    obtain ⟨next, listed, found⟩ := found
    cases tidy with
    | text | binary => cases listed
    | directory _ _ each => exact ih (each _ (lookup_mem listed)) found

end Entry

namespace Disk

variable {d : Disk} {place file : Place} {e : Entry} {name : String}

theorem IsTidy.entry? (tidy : d.IsTidy) (stands : d.entry? place = some e) : e.IsTidy := by
  rw [Disk.entry?] at stands
  split at stands
  next found =>
    obtain rfl := Option.some.inj stands
    exact Entry.IsTidy.get? tidy found
  next =>
    split at stands
    next =>
      obtain rfl := Option.some.inj stands
      exact .directory List.nodup_nil (by simp) (by simp)
    next => cases stands

/-! ### Listings -/

theorem listing_perm {entries : List (String × Entry)}
    (stands : d.entry? place = some (.directory entries)) :
    (d.listing place).Perm (entries.filter fun e => e.1 != ".." && e.1 != "/") := by
  rw [listing, stands]
  exact List.mergeSort_perm _ _

/-- Entries that are in the order of their names are listed as they are. -/
theorem listing_of_sorted {entries : List (String × Entry)}
    (stands : d.entry? place = some (.directory entries))
    (inside : ∀ e ∈ entries, e.1 ≠ ".." ∧ e.1 ≠ "/")
    (sorted : entries.Pairwise fun a b => ¬b.1 < a.1) : d.listing place = entries := by
  have all : entries.filter (fun e => e.1 != ".." && e.1 != "/") = entries :=
    List.filter_eq_self.mpr fun e listed => by simpa using inside e listed
  rw [listing, stands]
  change (entries.filter _).mergeSort _ = _
  rw [all]
  exact List.mergeSort_of_pairwise (sorted.imp fun notLess => by simpa using notLess)

/-- What a tidy directory lists has a name and stands on the disk. -/
theorem IsTidy.of_listing (tidy : d.IsTidy) (stands : d.HasDirectory place)
    (listed : (name, e) ∈ d.listing place) :
    Path.IsName name ∧ name.utf8ByteSize ≤ nameLimit ∧
      d.root.get? (place ++ [name]) = some e := by
  obtain ⟨entries, stands⟩ := stands
  rw [(listing_perm stands).mem_iff, List.mem_filter, Bool.and_eq_true, bne_iff_ne,
    bne_iff_ne] at listed
  obtain ⟨listed, notUp, notRoot⟩ := listed
  cases tidy.entry? stands with
  | directory differ names _ =>
    rcases names _ listed with ⟨isName, short⟩ | ⟨up | root, _⟩
    · refine ⟨isName, short, ?_⟩
      rw [get?_append_singleton, stands]
      exact Entry.lookup_of_mem differ listed
    · exact absurd up notUp
    · exact absurd root notRoot

theorem IsTidy.nodup_listing (tidy : d.IsTidy) (stands : d.HasDirectory place) :
    ((d.listing place).map Prod.fst).Nodup := by
  obtain ⟨entries, stands⟩ := stands
  rw [((listing_perm stands).map Prod.fst).nodup_iff]
  cases tidy.entry? stands with
  | directory differ _ _ => exact differ.sublist (List.filter_sublist.map Prod.fst)

theorem utf8ByteSize_le_of_noFault {path : String} (noFault : pathFault? path = none) :
    path.utf8ByteSize ≤ pathLimit := by
  unfold pathFault? at noFault
  split at noFault
  next => cases noFault
  next =>
    split at noFault
    next => cases noFault
    next =>
      split at noFault
      next => cases noFault
      next short => exact Nat.not_lt.mp short

/-! ### Sources -/

/-- A file at or below a place, and not outside it, with the name of a source. -/
structure IsSource (d : Disk) (place file : Place) : Prop where
  below : ∃ rest, file = place ++ rest ∧ ".." ∉ rest ∧ "/" ∉ rest
  isFile : ∃ e, d.entry? file = some e ∧ e.isDirectory = false
  isJava : Path.isJava (file.getLastD "") = true

/-- The sources below a directory are those at or below what it lists. -/
theorem isSource_iff_listing (stands : d.HasDirectory place) :
    d.IsSource place file ↔ ∃ e ∈ d.listing place, d.IsSource (place ++ [e.1]) file := by
  obtain ⟨entries, stands⟩ := stands
  constructor
  · rintro ⟨⟨rest, rfl, noUp, noRoot⟩, ⟨e, isFile, noDirectory⟩, isJava⟩
    cases rest with
    | nil =>
      rw [List.append_nil, stands] at isFile
      obtain rfl := Option.some.inj isFile
      cases noDirectory
    | cons name rest =>
      rw [List.mem_cons, not_or] at noUp noRoot
      have found := isFile
      rw [entry?_of_not_base (isBase_append_cons (Ne.symm noUp.1) (Ne.symm noRoot.1) place rest),
        ← List.singleton_append, ← List.append_assoc, Entry.get?_append, Option.bind_eq_some_iff,
        get?_append_singleton, stands] at found
      obtain ⟨next, listed, _⟩ := found
      refine ⟨(name, next), ?_, ⟨rest, by simp, noUp.2, noRoot.2⟩, ⟨e, isFile, noDirectory⟩, isJava⟩
      rw [(listing_perm stands).mem_iff, List.mem_filter]
      exact ⟨Entry.lookup_mem listed, by simp [Ne.symm noUp.1, Ne.symm noRoot.1]⟩
  · rintro ⟨⟨name, next⟩, listed, ⟨rest, rfl, noUp, noRoot⟩, isFile, isJava⟩
    rw [(listing_perm stands).mem_iff, List.mem_filter, Bool.and_eq_true, bne_iff_ne,
      bne_iff_ne] at listed
    refine ⟨⟨name :: rest, by simp, ?_, ?_⟩, isFile, isJava⟩
    · exact List.not_mem_cons_of_ne_of_not_mem (Ne.symm listed.2.1) noUp
    · exact List.not_mem_cons_of_ne_of_not_mem (Ne.symm listed.2.2) noRoot

/-- The only source at a file or below it is the file. -/
theorem isSource_file (noDirectory : ¬d.HasDirectory place) :
    d.IsSource place file ↔
      file = place ∧ (d.entry? place).isSome ∧ Path.isJava (place.getLastD "") = true := by
  constructor
  · rintro ⟨⟨rest, rfl, noUp, noRoot⟩, ⟨e, isFile, _⟩, isJava⟩
    cases rest with
    | nil =>
      rw [List.append_nil] at isFile isJava ⊢
      exact ⟨rfl, by rw [isFile]; rfl, isJava⟩
    | cons name rest =>
      rw [List.mem_cons, not_or] at noUp noRoot
      rw [entry?_of_not_base
        (isBase_append_cons (Ne.symm noUp.1) (Ne.symm noRoot.1) place rest)] at isFile
      obtain ⟨entries, stands⟩ := get?_above isFile
      exact absurd ⟨entries, entry?_of_get? stands⟩ noDirectory
  · rintro ⟨rfl, stands, isJava⟩
    obtain ⟨e, stands⟩ := Option.isSome_iff_exists.mp stands
    refine ⟨⟨[], by simp⟩, ⟨e, stands, Bool.eq_false_iff.mpr fun isDirectory => ?_⟩, isJava⟩
    exact noDirectory (hasDirectory_of_stands stands isDirectory)

/-- A unit is what is read from the file at a place. -/
def Reads (d : Disk) (file : Place) (unit : CompilationUnit) : Prop :=
  ∃ source, d.entry? file = some (.text source) ∧ (CompilationUnit.read source).outcome = .ok unit

end Disk

/-- The classes of a unit, each with its package. -/
def CompilationUnit.packagedClasses (unit : CompilationUnit) : List (String × ClassDecl) :=
  unit.classes.map fun decl => (unit.packageName, decl)

/-- The units are those of the classes of the files, in their order. -/
def Disk.Generates (d : Disk) (config : Config) (files : List Place) (units : List GeneratedUnit) :
    Prop :=
  ∃ read, List.Forall₂ d.Reads files read ∧
    List.Forall₂ (fun c g => GeneratedUnit.OfClass config .forwarding c.1 c.2 g)
      (read.flatMap CompilationUnit.packagedClasses) units

namespace Disk.Generates

variable {d : Disk} {config : Config} {files others : List Place} {units more : List GeneratedUnit}

theorem nil : d.Generates config [] [] := ⟨[], .nil, .nil⟩

theorem append (first : d.Generates config files units) (second : d.Generates config others more) :
    d.Generates config (files ++ others) (units ++ more) := by
  obtain ⟨read, reads, each⟩ := first
  obtain ⟨read', reads', each'⟩ := second
  refine ⟨read ++ read', List.rel_append reads reads', ?_⟩
  rw [List.flatMap_append]
  exact List.rel_append each each'

/-- Units of accepted configurations are filed by their package and name. -/
theorem isFiled (generates : d.Generates config files units) (formed : config.WellFormed) :
    ∀ g ∈ units, g.subclass.IsFiled := by
  obtain ⟨read, reads, each⟩ := generates
  intro g listed
  obtain ⟨⟨package, decl⟩, declared, ofClass⟩ := exists_mem_of_forall₂ each listed
  obtain ⟨unit, isRead, isDeclared⟩ := List.mem_flatMap.mp declared
  obtain ⟨file, _, source, _, read⟩ := exists_mem_of_forall₂ reads isRead
  obtain ⟨decl, inUnit, same⟩ := List.mem_map.mp isDeclared
  obtain ⟨rfl, rfl⟩ := Prod.mk.inj same
  have named := CompilationUnit.named_of_read read
  exact ofClass.isFiled formed named.packageName (named.classes decl inUnit).name

end Disk.Generates

namespace TreeState

variable {disk : Disk} {source place here file : Place} {config : Config} {output path : String}
  {units : List GeneratedUnit} {s s' : TreeState} {isFile isOther : Place → Prop}

/-! ### Visits -/

/-- The files of a kind were visited once each, and their units were written behind others. -/
def Visited (disk : Disk) (source : Place) (config : Config) (output : String) (place : Place)
    (units : List GeneratedUnit) (isFile : Place → Prop) (s : TreeState) : Prop :=
  ∃ files more, files.Nodup ∧ (∀ f, f ∈ files ↔ isFile f) ∧ disk.Generates config files more ∧
    Holds disk source output place (units ++ more) s

namespace Visited

theorem of_holds (holds : Holds disk source output place units s) (noFile : ∀ f, ¬isFile f) :
    Visited disk source config output place units isFile s :=
  ⟨[], [], List.nodup_nil, fun f => by simp [noFile f], .nil, by rwa [List.append_nil]⟩

theorem congr (visited : Visited disk source config output place units isFile s)
    (same : ∀ f, isFile f ↔ isOther f) :
    Visited disk source config output place units isOther s := by
  obtain ⟨files, more, differ, are, rest⟩ := visited
  exact ⟨files, more, differ, fun f => (are f).trans (same f), rest⟩

/-- Files of two kinds that have none in common are visited one kind after the other. -/
theorem append (visited : Visited disk source config output place units isFile s)
    (others : ∀ units, Holds disk source output place units s →
      Visited disk source config output place units isOther s')
    (apart : ∀ f, isFile f → ¬isOther f) :
    Visited disk source config output place units (fun f => isFile f ∨ isOther f) s' := by
  obtain ⟨files, more, differ, are, generates, holds⟩ := visited
  obtain ⟨files', more', differ', are', generates', holds'⟩ := others _ holds
  refine ⟨files ++ files', more ++ more', ?_, fun f => ?_, generates.append generates', ?_⟩
  · refine List.nodup_append.mpr ⟨differ, differ', ?_⟩
    rintro f first _ second rfl
    exact apart f ((are f).mp first) ((are' f).mp second)
  · rw [List.mem_append, are, are']
  · rwa [← List.append_assoc]

end Visited

/-- A source that is processed is there and is visited. -/
theorem visited_processFile (formed : config.WellFormed) (apart : Apart source place)
    (holds : Holds disk source output place units s)
    (leads : disk.Leads (Disk.startOf path).1 (Path.steps path) file)
    (same : s.disk.entry? file = disk.entry? file)
    (finished : processFile config output path s = (s', none)) :
    (disk.entry? file).isSome ∧ Visited disk source config output place units (· = file) s' := by
  unfold processFile at finished
  dsimp only at finished
  split at finished
  next => cases (Prod.mk.inj finished).2
  next text read =>
    split at finished
    next => cases (Prod.mk.inj finished).2
    next more generated =>
      obtain ⟨unit, isRead, each⟩ := GeneratedUnit.ofSource_eq_ok generated
      -- The path leads where it led on the disk at first.
      obtain ⟨found, isFound, stands⟩ := Disk.read_eq_ok.mp read
      have led := (Disk.leads_of_find isFound).2
      obtain rfl := led.unique (leads.mono holds.grown)
      have stood : disk.entry? found = some (.text text) := same ▸ stands
      have generates : disk.Generates config [found] more := by
        refine ⟨[unit], .cons ⟨text, stood, isRead⟩ .nil, ?_⟩
        rw [List.flatMap_singleton, CompilationUnit.packagedClasses, List.forall₂_map_left_iff]
        exact each
      refine ⟨by rw [stood]; rfl, [found], more, by simp, fun f => List.mem_singleton,
        generates, ?_⟩
      refine Holds.writeUnits (Holds.of_eq holds ?_ ?_) apart (generates.isFiled formed) finished
      · rfl
      · rfl

/-- A file is visited when it is a source. -/
theorem visited_visitFile (formed : config.WellFormed) (apart : Apart source place)
    (holds : Holds disk source output place units s)
    (leads : disk.Leads (Disk.startOf path).1 (Path.steps path) file)
    (same : s.disk.entry? file = disk.entry? file) (noDirectory : ¬disk.HasDirectory file)
    (isJava : (disk.entry? file).isSome → Path.isJava path = Path.isJava (file.getLastD ""))
    (finished : visitFile config output path s = (s', none)) :
    Visited disk source config output place units (disk.IsSource file) s' := by
  unfold visitFile at finished
  split at finished
  next java =>
    obtain ⟨stands, visited⟩ := visited_processFile formed apart holds leads same finished
    refine visited.congr fun f => ?_
    rw [Disk.isSource_file noDirectory, ← isJava stands]
    exact ⟨fun is => ⟨is, stands, java⟩, And.left⟩
  next other =>
    obtain ⟨rfl, _⟩ := Prod.mk.inj finished
    refine .of_holds holds fun f isSource => ?_
    obtain ⟨_, stands, java⟩ := (Disk.isSource_file noDirectory).mp isSource
    exact other ((isJava stands).trans java)

/-- What stands at a place stands below what stands at the input. -/
def Below (disk : Disk) (source here : Place) : Prop :=
  ∃ rest top e, here = source ++ rest ∧ disk.entry? source = some top ∧ top.get? rest = some e

theorem Below.same {d : Disk} (below : Below disk source here)
    (input : d.entry? source = disk.entry? source) : d.entry? here = disk.entry? here := by
  obtain ⟨rest, top, e, rfl, stands, found⟩ := below
  rw [Disk.entry?_append stands found, Disk.entry?_append (input.trans stands) found]

theorem Below.child (below : Below disk source here) {name : String} {e : Entry}
    (stands : disk.root.get? (here ++ [name]) = some e) : Below disk source (here ++ [name]) := by
  obtain ⟨rest, top, e', rfl, topStands, found⟩ := below
  refine ⟨rest ++ [name], top, e, List.append_assoc _ _ _, topStands, ?_⟩
  rw [Disk.get?_append_singleton, Disk.entry?_append topStands found, Option.getD_some] at stands
  rw [Entry.get?_append, found, Option.bind_some, Entry.get?_cons, stands]
  rfl

/-- All sources at or below a directory are visited. A path of the walk leads to its place, and is
too long before there are no levels left. -/
theorem visited_walk (tidy : disk.IsTidy) (formed : config.WellFormed) (apart : Apart source place)
    {levels : Nat} (holds : Holds disk source output place units s)
    (below : Below disk source here) (isDirectory : disk.HasDirectory here)
    (leads : disk.Leads (Disk.startOf path).1 (Path.steps path) here)
    (nonempty : path ≠ "") (enough : Disk.pathLimit + 2 ≤ levels + path.utf8ByteSize)
    (positive : 0 < levels)
    (finished : walk config output levels here path s = (s', none)) :
    Visited disk source config output place units (disk.IsSource here) s' := by
  -- While there are levels left the path may still be long enough to be refused, so a walk that
  -- goes on from a path that is not too long has a level to go on with.
  induction levels generalizing here path units s s' with
  | zero => exact absurd positive (Nat.lt_irrefl 0)
  | succ levels ih =>
    rw [walk] at finished
    split at finished
    next => cases (Prod.mk.inj finished).2
    next noFault =>
      have sameListing : s.disk.listing here = disk.listing here := by
        rw [Disk.listing, Disk.listing, below.same holds.input]
      rw [sameListing] at finished
      -- What is listed stays listed while units are written, and each item adds its sources.
      have visited := each_keeps (P := fun done s => Visited disk source config output place units
        (fun f => ∃ e ∈ done, disk.IsSource (here ++ [e.1]) f) s) (.of_holds holds (by simp)) ?_
        finished
      · exact visited.congr fun f => (Disk.isSource_iff_listing isDirectory).symm
      · rintro done ⟨name, e⟩ rest s₁ s₂ whole visited did
        have listed : (name, e) ∈ disk.listing here := by
          rw [whole]
          exact List.mem_append_right _ List.mem_cons_self
        obtain ⟨isName, short, stands⟩ := tidy.of_listing isDirectory listed
        have both : Visited disk source config output place units (fun f =>
            (∃ e ∈ done, disk.IsSource (here ++ [e.1]) f) ∨
              disk.IsSource (here ++ [name]) f) s₂ := by
          refine visited.append (fun units holds => ?_) ?_
          · -- What the item names is reached by the path of the directory and its name.
            have inside := below.child stands
            have reached : disk.Leads (Disk.startOf (Path.join path name)).1
                (Path.steps (Path.join path name)) (here ++ [name]) := by
              rw [Disk.startOf_eq, Path.isAbsolute_join isName.relative,
                Path.steps_join isName.relative, isName.steps]
              rw [Disk.startOf_eq] at leads
              exact leads.append (.down isDirectory isName.not_idle isName.notUp short
                (by rw [stands]; rfl) .here)
            dsimp only at did
            split at did
            next directory =>
              have open_ := Disk.hasDirectory_of_stands (Disk.entry?_of_get? stands) directory
              have longer := Path.utf8ByteSize_lt_join isName nonempty
              have notTooLong := Disk.utf8ByteSize_le_of_noFault noFault
              refine ih holds inside open_ reached ?_ ?_ ?_ did
              · intro empty
                rw [empty] at longer
                exact absurd longer (Nat.not_lt_zero _)
              · omega
              · omega
            next file =>
              have unchanged := inside.same holds.input
              refine visited_visitFile formed apart holds reached unchanged ?_ ?_ did
              · rintro ⟨entries, isDirectory⟩
                rw [Disk.entry?_of_get? stands] at isDirectory
                rw [Option.some.inj isDirectory] at file
                exact file rfl
              · intro _
                rw [Path.isJava, Path.isJava, Path.fileName_join isName.relative]
                simp
          · -- No two items of a directory have one name.
            rintro f ⟨other, isDone, first⟩ second
            obtain ⟨⟨rest₁, first, _⟩, _⟩ := first
            obtain ⟨⟨rest₂, second, _⟩, _⟩ := second
            rw [first, List.append_assoc, List.append_assoc] at second
            have same : other.1 = name := (List.cons.inj (List.append_cancel_left second)).1
            have differ := tidy.nodup_listing isDirectory
            rw [whole, List.map_append, List.map_cons, List.nodup_append] at differ
            exact differ.2.2 other.1 (List.mem_map_of_mem isDone) name List.mem_cons_self same
        refine both.congr fun f => ?_
        simp

end TreeState

end TestDouble
