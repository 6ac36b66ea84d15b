import Mathlib.Data.List.Nodup
import TestDouble.Proofs.TreeWalk

/-!
# Which units stay on the disk

A run on a tree of sources writes one unit for each of their classes, and what is on the disk
afterwards is, for each path, the unit that was reported for it last. So all units are kept exactly
when no two of the classes have the same package and the same name.
-/

namespace TestDouble

namespace Disk

variable {d made : Disk} {place source : Place} {input output path : String}

/-! ### Where files are found -/

/-- What leads out of the working directory, if it is there, is a directory. -/
private theorem IsTidy.isDirectory_up (tidy : d.IsTidy) (open_ : d.HasDirectory place)
    (stands : (d.entry? (place ++ [".."])).isSome) : d.HasDirectory (place ++ [".."]) := by
  obtain ⟨entries, isOpen⟩ := open_
  obtain ⟨e, stands⟩ := Option.isSome_iff_exists.mp stands
  have below := d.get?_append_singleton place ".."
  rw [isOpen, Option.getD_some, Entry.entries] at below
  cases found : d.root.get? (place ++ [".."]) with
  | some e' =>
    have listed := Entry.lookup_mem (below.symm.trans found)
    cases tidy.entry? isOpen with
    | directory _ names _ =>
      rcases names _ listed with ⟨isName, _⟩ | ⟨_, isDirectory⟩
      · exact absurd rfl isName.notUp
      · exact hasDirectory_of_stands (entry?_of_get? found) isDirectory
  | none =>
    -- A place out of the working directory that is not listed is an empty directory.
    rw [Disk.entry?, found] at stands
    rw [HasDirectory, Disk.entry?, found]
    dsimp only at stands ⊢
    split at stands
    next base => exact ⟨[], if_pos base⟩
    next => cases stands

/-- To go up leads to a directory. -/
private theorem IsTidy.isDirectory_above (tidy : d.IsTidy) (open_ : d.HasDirectory place)
    (stands : (d.entry? (above place.reverse).reverse).isSome) :
    d.HasDirectory (above place.reverse).reverse := by
  cases trail : place.reverse with
  | nil =>
    obtain rfl := List.reverse_eq_nil_iff.mp trail
    exact tidy.isDirectory_up open_ stands
  | cons name rest =>
    have chars : place = rest.reverse ++ [name] := by
      rw [List.reverse_eq_iff.mp trail, List.reverse_cons]
    rw [trail] at stands
    by_cases up : name = ".."
    · rw [up] at stands chars ⊢
      have climbed : (above (".." :: rest)).reverse = place ++ [".."] := by
        rw [chars, above, List.reverse_cons, List.reverse_cons]
      rw [climbed] at stands ⊢
      exact tidy.isDirectory_up open_ stands
    · by_cases root : name = "/"
      · rw [root] at chars ⊢
        have stays : (above ("/" :: rest)).reverse = place := by
          rw [chars, above, List.reverse_cons]
        rwa [stays]
      · have dropped : above (name :: rest) = rest := by
          unfold above
          split <;> simp_all
        obtain ⟨entries, isOpen⟩ := open_
        rw [chars, Disk.entry?_of_not_base (isBase_append_cons up root _ [])] at isOpen
        obtain ⟨inner, found⟩ := get?_above isOpen
        rw [dropped]
        exact ⟨inner, entry?_of_get? found⟩

/-- A file that is found has the name that the path ends with. -/
theorem IsTidy.isJava_of_find (tidy : d.IsTidy) (found : d.find path = .ok place)
    (noDirectory : ¬d.HasDirectory place) (stands : (d.entry? place).isSome) :
    Path.isJava path = Path.isJava (place.getLastD "") := by
  obtain ⟨before, cut⟩ := Path.segments_fileName path
  have noSlash : '/' ∉ (Path.fileName path).toList :=
    Path.noSlash_of_mem_segments (cut ▸ List.mem_append_right _ List.mem_cons_self)
  have again : Path.fileName (Path.fileName path) = Path.fileName path := by
    change String.ofList (Text.afterLast '/' (Path.fileName path).toList) = _
    rw [Text.afterLast_of_not_mem noSlash, String.ofList_toList]
  have same : Path.isJava path = Path.isJava (Path.fileName path) := by
    rw [Path.isJava, Path.isJava, again]
  rw [find_eq (leads_of_find found).1, cut] at found
  obtain ⟨directory, _, last⟩ := (leads_of_follow (startOf_base path) found).split
  rw [same]
  generalize Path.fileName path = name at last
  cases last with
  | idle open_ _ later =>
    cases later
    exact absurd open_ noDirectory
  | up open_ later =>
    cases later
    exact absurd (tidy.isDirectory_above open_ stands) noDirectory
  | down _ _ _ _ _ later =>
    cases later
    simp

/-- A directory that is there, empty and outside the input is vacant. -/
theorem vacant_of_empty (found : d.find output = .ok place)
    (empty : d.entry? place = some (.directory []))
    (outside : ∀ source, d.find input = .ok source → ¬source <+: place) :
    d.Vacant input output d place := by
  have noFault := (leads_of_find found).1
  have isDirectory : d.HasDirectory place := ⟨[], empty⟩
  have nonempty : output ≠ "" := by
    rintro rfl
    cases noFault
  have followed := found
  rw [find_eq noFault, startOf_eq] at followed
  have leads := leads_of_follow (startOf_eq output ▸ startOf_base output) followed
  refine ⟨?_, isDirectory, listing_of_sorted empty (by simp) .nil,
    fun source isFound => ⟨outside source isFound, rfl⟩⟩
  rw [makeDirectoryAt, if_neg nonempty, noFault, startOf_eq]
  simp only [makeDirectories_of_leads leads isDirectory, followed, bind, Except.bind]
  rfl

/-- A directory that is vacant is apart from the input: what is written below it is not written
into the input, and what is there is not below it. -/
theorem Vacant.apart {e : Entry} (vacant : d.Vacant input output made place)
    (found : d.find input = .ok source) (stands : d.entry? source = some e) :
    TreeState.Apart source place := by
  obtain ⟨outside, same⟩ := vacant.outside source found
  -- The input would be listed in the output directory if it were below it.
  have notInside : ∀ name rest, Path.IsName name → source ≠ place ++ name :: rest := by
    rintro name rest isName rfl
    obtain ⟨entries, isOpen⟩ := vacant.directory
    have below := same.trans stands
    rw [entry?_of_not_base (isBase_append_cons isName.notUp isName.not_root place rest),
      ← List.singleton_append, ← List.append_assoc, Entry.get?_append, Option.bind_eq_some_iff,
      get?_append_singleton, isOpen] at below
    obtain ⟨next, listed, _⟩ := below
    have member : (name, next) ∈ made.listing place := by
      rw [(listing_perm isOpen).mem_iff, List.mem_filter]
      exact ⟨Entry.lookup_mem listed, by simp [isName.notUp, isName.not_root]⟩
    rw [vacant.empty] at member
    cases member
  intro unit filed
  rw [GeneratedUnit.placeIn, List.append_assoc]
  have names := filed.names
  obtain ⟨first, others, chars⟩ :
      ∃ first others, unit.subclass.directories ++ [unit.subclass.fileName] = first :: others :=
    List.exists_cons_of_ne_nil (by simp)
  rw [chars] at names ⊢
  constructor
  · intro above
    rcases List.prefix_or_prefix_of_prefix above (List.prefix_append place (first :: others)) with
      up | ⟨rest, rfl⟩
    · exact outside up
    · cases rest with
      | nil => exact outside (by rw [List.append_nil])
      | cons name rest =>
        rw [List.prefix_append_right_inj] at above
        exact notInside name rest (names name (above.subset List.mem_cons_self)) rfl
  · rintro ⟨more, rfl⟩
    exact notInside first (others ++ more) (names first List.mem_cons_self) (by simp)

/-- A directory that is vacant has room for units. -/
theorem Vacant.holds (vacant : d.Vacant input output made place)
    (found : d.find input = .ok source) :
    TreeState.Holds d source output place [] { disk := d } := by
  obtain ⟨opens, leads⟩ := makeDirectoryAt_eq_ok vacant.opens
  have notRoot : ∀ s ∈ Path.steps output, s ≠ "/" := by
    rintro s listed rfl
    exact Path.noSlash_of_mem_segments (List.mem_filter.mp listed).1 (by decide)
  exact {
    filed := by simp
    written := rfl
    grown := .refl d
    input := rfl
    opens := ⟨made, opens, ⟨leads, vacant.directory, (vacant.outside source found).2⟩,
      growsTo_makeDirectories (startOf_base output) notRoot opens, fun some => absurd rfl some⟩
    found := by simp
    last := by simp }

end Disk

namespace TreeState

variable {disk made : Disk} {source place : Place} {config : Config} {input output : String}
  {s s' : TreeState}

/-- All sources at or below the input are visited by a run that succeeds. -/
theorem visited_generate (tidy : disk.IsTidy) (formed : config.WellFormed)
    (vacant : disk.Vacant input output made place)
    (finished : generate config input output disk = (s, none)) :
    ∃ source, disk.find input = .ok source ∧
      Visited disk source config output place [] (disk.IsSource source) s := by
  unfold generate at finished
  split at finished
  next => cases (Prod.mk.inj finished).2
  next source found =>
    refine ⟨source, found, ?_⟩
    have holds := vacant.holds found
    obtain ⟨noFault, leads⟩ := Disk.leads_of_find found
    have some := Disk.isSome_of_find found
    obtain ⟨e, stands⟩ := Option.isSome_iff_exists.mp some
    have apart := vacant.apart found stands
    -- The input is a directory, which is walked, or a file, which is visited by itself.
    split at finished
    next entries isDirectory =>
      have nonempty : input ≠ "" := by
        rintro rfl
        cases noFault
      have size : input.utf8ByteSize ≠ 0 := mt String.utf8ByteSize_eq_zero_iff.mp nonempty
      refine visited_walk tidy formed apart holds ⟨[], e, e, ?_, stands, rfl⟩
        ⟨entries, isDirectory⟩ leads nonempty ?_ (Nat.succ_pos _) finished
      · rw [List.append_nil]
      · omega
    next noDirectory =>
      have isFile : ¬disk.HasDirectory source := fun ⟨entries, open_⟩ => noDirectory entries open_
      exact visited_visitFile formed apart holds leads rfl isFile
        (tidy.isJava_of_find found isFile) finished

/-! ### Paths and classes -/

/-- Where two views of the items tell the same items apart, they show no item twice together. -/
private theorem nodup_map_iff {α β γ : Type} {f : α → β} {g : α → γ} {items : List α}
    (same : ∀ a ∈ items, ∀ b ∈ items, f a = f b ↔ g a = g b) :
    (items.map f).Nodup ↔ (items.map g).Nodup := by
  rw [List.Nodup, List.Nodup, List.pairwise_map, List.pairwise_map]
  exact List.Pairwise.iff_of_mem fun {a b} first second => not_congr (same a first b second)

/-- Units have different paths exactly when their classes differ in package or name. -/
private theorem nodup_targets_iff {classes : List (String × ClassDecl)} {units : List GeneratedUnit}
    (each : List.Forall₂ (fun c g => GeneratedUnit.OfClass config .forwarding c.1 c.2 g)
      classes units)
    (filed : ∀ unit ∈ units, unit.subclass.IsFiled) (output : String) :
    (units.map (·.target output)).Nodup ↔ (classes.map fun c => (c.1, c.2.name)).Nodup := by
  have names : classes.map (fun c => (c.1, c.2.name ++ config.classSuffix)) =
      units.map fun g => (g.subclass.package, g.subclass.name) := by
    rw [← List.forall₂_eq_eq_eq, List.forall₂_map_left_iff, List.forall₂_map_right_iff]
    refine each.imp fun c g ofClass => ?_
    rw [ofClass.subclass]
    rfl
  calc (units.map (·.target output)).Nodup
      ↔ (units.map fun g => (g.subclass.package, g.subclass.name)).Nodup := by
        refine nodup_map_iff fun g first other second => ?_
        rw [GeneratedUnit.target_eq_iff (filed g first) (filed other second), Prod.mk.injEq]
    _ ↔ (classes.map fun c => (c.1, c.2.name ++ config.classSuffix)).Nodup := by rw [names]
    _ ↔ (classes.map fun c => (c.1, c.2.name)).Nodup := by
        refine nodup_map_iff fun c _ other _ => ?_
        rw [Prod.mk.injEq, Prod.mk.injEq, String.append_left_inj]

/-- After the run the last unit that was reported for a path is read there. -/
theorem Holds.read_last {units before after : List GeneratedUnit} {unit : GeneratedUnit}
    (holds : Holds disk source output place units s) (split : units = before ++ unit :: after)
    (lastOne : ∀ later ∈ after, later.target output ≠ unit.target output) :
    s.disk.read (unit.target output) = .ok unit.source := by
  have listed : unit ∈ units := split ▸ List.mem_append_right _ List.mem_cons_self
  exact Disk.read_eq_ok.mpr ⟨_, holds.found unit listed, holds.last before unit after split lastOne⟩

/-- A run that succeeds reports one path for each class of the sources at or below the input, each
source once, and what is read at a path afterwards is the source of the last unit that was reported
for it. No path is reported twice, and each is read as the unit it was reported for, exactly when no
two of the classes have the same package and the same name. -/
theorem units_kept_on_disk {lookup : String → Option String}
    (accepted : Config.ofEnvironment lookup = .ok config) (tidy : disk.IsTidy)
    (vacant : disk.Vacant input output made place)
    (finished : generate config input output disk = (s, none)) :
    ∃ source files read units, disk.find input = .ok source ∧
      files.Nodup ∧ (∀ f, f ∈ files ↔ disk.IsSource source f) ∧
      List.Forall₂ disk.Reads files read ∧
      List.Forall₂ (fun c g => GeneratedUnit.OfClass config .forwarding c.1 c.2 g)
        (read.flatMap CompilationUnit.packagedClasses) units ∧
      s.written.reverse = units.map (·.target output) ∧
      (∀ before unit after, units = before ++ unit :: after →
        (∀ later ∈ after, later.target output ≠ unit.target output) →
        s.disk.read (unit.target output) = .ok unit.source) ∧
      (s.written.Nodup ↔
        ((read.flatMap CompilationUnit.packagedClasses).map fun c => (c.1, c.2.name)).Nodup) ∧
      (s.written.Nodup → ∀ unit ∈ units, s.disk.read (unit.target output) = .ok unit.source) := by
  have formed := Config.wellFormed_of_environment accepted
  obtain ⟨source, found, files, units, differ, are, generates, holds⟩ :=
    visited_generate tidy formed vacant finished
  rw [List.nil_append] at holds
  have filed := generates.isFiled formed
  obtain ⟨read, reads, each⟩ := generates
  -- Paths are reported last one first.
  have written : s.written.reverse = units.map (·.target output) := by
    rw [holds.written, List.reverse_reverse]
  refine ⟨source, files, read, units, found, differ, are, reads, each, written,
    fun before unit after => holds.read_last, ?_, fun distinct unit listed => ?_⟩
  · rw [← List.nodup_reverse, written]
    exact nodup_targets_iff each filed output
  · -- With no path twice, every unit is the last one with its path.
    obtain ⟨before, after, split⟩ := List.append_of_mem listed
    refine holds.read_last split fun later isLater same => ?_
    rw [← List.nodup_reverse, written, split, List.map_append, List.map_cons,
      List.nodup_append] at distinct
    exact (List.nodup_cons.mp distinct.2.1).1 (List.mem_map.mpr ⟨later, isLater, same⟩)

/-! ### Two trees -/

/-- A run on a directory visits its entries in their order when they are in the order of names. -/
private theorem generate_of_sorted {entries : List (String × Entry)}
    (found : disk.find input = .ok source) (stands : disk.entry? source = some (.directory entries))
    (inside : ∀ e ∈ entries, e.1 ≠ ".." ∧ e.1 ≠ "/")
    (sorted : entries.Pairwise fun a b => ¬b.1 < a.1) :
    generate config input output disk = each (fun e =>
      if e.2.isDirectory then
        walk config output Disk.pathLimit (source ++ [e.1]) (Path.join input e.1)
      else visitFile config output (Path.join input e.1)) entries { disk } := by
  unfold generate
  rw [found]
  dsimp only
  rw [stands]
  dsimp only
  rw [walk, (Disk.leads_of_find found).1]
  dsimp only
  rw [Disk.listing_of_sorted stands inside sorted]

private def noVariables : String → Option String := fun _ => none

/-- Classes of two packages, two of them with one name, and a file that is no source. -/
private def shop : Disk := ⟨.directory [("in", .directory
  [("README.md", .text "not java"),
    ("Util.java", .text "class Util \x7b static void help() \x7b \x7d \x7d"),
    ("shop", .directory [("Cart.java", .text ("package shop; " ++
      "class Cart \x7b int size() \x7b return 0; \x7d \x7d class Util \x7b \x7d"))])])]⟩

private theorem shop_isTidy : shop.IsTidy := by
  refine .directory (by decide) (by decide +kernel) ?_
  rw [List.forall_mem_singleton]
  refine .directory (by decide) (by decide +kernel) ?_
  rw [List.forall_mem_cons, List.forall_mem_cons, List.forall_mem_singleton]
  refine ⟨.text, .text, .directory (by decide) (by decide +kernel) ?_⟩
  rw [List.forall_mem_singleton]
  exact .text

/-- The three classes of the shop have three paths, and each of them is kept. -/
theorem units_kept_on_disk_shop :
    Config.ofEnvironment noVariables = .ok {} ∧ shop.IsTidy ∧
      shop.Vacant "in" "out" (shop.put ["out"] (.directory [])) ["out"] ∧
      (generate {} "in" "out" shop).2 = none ∧
      ∃ units : List GeneratedUnit, (generate {} "in" "out" shop).1.written.reverse =
          units.map (GeneratedUnit.target "out") ∧ units.length = 3 ∧
        ∀ unit ∈ units, (generate {} "in" "out" shop).1.disk.read (unit.target "out") =
          .ok unit.source := by
  have accepted : Config.ofEnvironment noVariables = .ok {} := by rfl
  have stands := shop.entry?_put_self (.directory []) ["out"]
  have vacant : shop.Vacant "in" "out" (shop.put ["out"] (.directory [])) ["out"] := by
    refine ⟨rfl, ⟨[], stands⟩, Disk.listing_of_sorted stands (by simp) .nil, fun source found => ?_⟩
    obtain rfl : ["in"] = source := Except.ok.inj found
    exact ⟨by decide, rfl⟩
  have computed : (generate {} "in" "out" shop).2.isNone = true ∧
      (generate {} "in" "out" shop).1.written =
        ["out/shop/UtilTestable.java", "out/shop/CartTestable.java", "out/UtilTestable.java"] := by
    rw [@generate_of_sorted shop ["in"] _ _ _ _ rfl rfl (by decide) (by decide +kernel)]
    decide +kernel
  have finished := Option.isNone_iff_eq_none.mp computed.1
  obtain ⟨_, _, _, units, _, _, _, _, _, written, _, _, kept⟩ :=
    units_kept_on_disk accepted shop_isTidy vacant (Prod.ext rfl finished)
  have length := congrArg List.length written
  rw [computed.2, List.length_map] at length
  refine ⟨accepted, shop_isTidy, vacant, finished, units, written, length.symm, kept ?_⟩
  rw [computed.2]
  decide

/-- Two sources that declare one class of the same package, and an empty directory. -/
private def twins : Disk := ⟨.directory [("in", .directory
  [("a", .directory [("A.java", .text "class A \x7b \x7d")]),
    ("b", .directory [("A.java", .text "class A \x7b void m() \x7b \x7d \x7d")])]),
  ("out", .directory [])]⟩

private theorem twins_isTidy : twins.IsTidy := by
  have source (text : String) : (Entry.directory [("A.java", .text text)]).IsTidy := by
    have named : Path.IsName "A.java" ∧ "A.java".utf8ByteSize ≤ Disk.nameLimit := by
      decide +kernel
    exact .directory (List.nodup_cons.mpr ⟨List.not_mem_nil, .nil⟩)
      (List.forall_mem_singleton.mpr (.inl named)) (List.forall_mem_singleton.mpr .text)
  refine .directory (by decide) (by decide +kernel) ?_
  rw [List.forall_mem_cons, List.forall_mem_singleton]
  refine ⟨.directory (by decide) (by decide +kernel) ?_, .directory (by decide) (by simp) (by simp)⟩
  rw [List.forall_mem_cons, List.forall_mem_singleton]
  exact ⟨source _, source _⟩

private def lostText : String := "public final class ATestable extends A \x7b\n\x7d\n"

private def keptText : String :=
  "public final class ATestable extends A \x7b\n    @Override\n    public void m() \x7b\n" ++
    "        super.m();\n    \x7d\n\x7d\n"

/-- Of two classes with the same package and name both units are reported, for one path, and only
the second is there afterwards. -/
theorem unit_lost_to_its_twin :
    Config.ofEnvironment noVariables = .ok {} ∧ twins.IsTidy ∧
      twins.Vacant "in" "out" twins ["out"] ∧ (generate {} "in" "out" twins).2 = none ∧
      ¬(generate {} "in" "out" twins).1.written.Nodup ∧
      ∃ units, (GeneratedUnit.ofSource {} .forwarding "class A \x7b \x7d").outcome = .ok units ∧
        units.length = 1 ∧
        ∀ unit ∈ units, unit.target "out" ∈ (generate {} "in" "out" twins).1.written ∧
          (generate {} "in" "out" twins).1.disk.read (unit.target "out") ≠ .ok unit.source := by
  have computed : (generate {} "in" "out" twins).2.isNone = true ∧
      (generate {} "in" "out" twins).1.written = ["out/ATestable.java", "out/ATestable.java"] ∧
      ((generate {} "in" "out" twins).1.disk.read "out/ATestable.java").toOption =
        some keptText := by
    rw [@generate_of_sorted twins ["in"] _ _ _ _ rfl rfl (by decide) (by decide +kernel)]
    decide +kernel
  have generated : (GeneratedUnit.ofSource {} .forwarding "class A \x7b \x7d").outcome.toOption.map
      (List.map fun g => (g.target "out", g.source)) = some [("out/ATestable.java", lostText)] := by
    decide +kernel
  have vacant : twins.Vacant "in" "out" twins ["out"] := by
    refine Disk.vacant_of_empty rfl rfl fun source found => ?_
    obtain rfl : ["in"] = source := Except.ok.inj found
    decide
  obtain ⟨finished, written, read⟩ := computed
  obtain ⟨units, ended, shown⟩ := Option.map_eq_some_iff.mp generated
  refine ⟨rfl, twins_isTidy, vacant, Option.isNone_iff_eq_none.mp finished, by rw [written]; decide,
    units, toOption_eq_some ended, by simpa using congrArg List.length shown, fun unit listed => ?_⟩
  have member := List.mem_map_of_mem (f := fun g => (g.target "out", g.source)) listed
  rw [shown, List.mem_singleton] at member
  obtain ⟨target, text⟩ := Prod.mk.inj member
  rw [target, text, written]
  refine ⟨List.mem_cons_self, fun same => ?_⟩
  rw [same] at read
  exact absurd (Option.some.inj read) (by decide)

end TreeState

end TestDouble
