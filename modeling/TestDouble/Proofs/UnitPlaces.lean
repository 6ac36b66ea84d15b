import TestDouble.Proofs.EnvironmentNames
import TestDouble.Proofs.PathSteps

/-!
# Where units are written

The path of a unit is made of its package and its name: a directory for each part of the package,
and a file with the name of the class. The parts are words, which hold neither dots nor slashes, so
the path tells package and name apart, and no unit is written where another one needs a directory.
-/

namespace TestDouble

namespace Text

variable {separator : Char}

theorem pieces_ne_nil (separator : Char) (text : List Char) : pieces separator text ≠ [] := by
  obtain ⟨before, cut⟩ := pieces_afterLast separator text
  rw [cut]
  simp

/-- A text consists of its pieces, with a separator between two. -/
theorem intercalate_pieces (separator : Char) (text : List Char) :
    [separator].intercalate (pieces separator text) = text := by
  have general : ∀ text piece,
      [separator].intercalate (piecesFrom separator text piece []) = piece.reverse ++ text := by
    intro text
    induction text with
    | nil =>
      intro piece
      rw [piecesFrom, List.reverse_singleton, List.intercalate_singleton, List.append_nil]
    | cons c text ih =>
      intro piece
      rw [piecesFrom]
      split
      next here =>
        rw [piecesFrom_read, List.reverse_singleton, List.singleton_append]
        obtain ⟨first, rest, cut⟩ := List.exists_cons_of_ne_nil (pieces_ne_nil separator text)
        change piecesFrom separator text [] [] = _ at cut
        rw [cut, List.intercalate_cons_cons, ← cut, ih, here]
        simp
      next => rw [ih, List.reverse_cons, List.append_assoc, List.singleton_append]
  exact general text []

theorem pieces_inj {text other : List Char} :
    pieces separator text = pieces separator other ↔ text = other := by
  refine ⟨fun same => ?_, fun same => by rw [same]⟩
  rw [← intercalate_pieces separator text, same, intercalate_pieces]

end Text

theorem IsWord.isName {w : String} (word : IsWord w) : Path.IsName w where
  nonempty := by
    rintro rfl
    exact word.nonempty rfl
  noSlash := Munch.not_mem_of_isWord word (by decide)
  notHere := by
    rintro rfl
    exact word.dot_not_mem (by decide)
  notUp := by
    rintro rfl
    exact word.dot_not_mem (by decide)

theorem Path.IsName.fileName {name : String} (isName : IsName name) : fileName name = name := by
  rw [Path.fileName, Text.afterLast_of_not_mem isName.noSlash, String.ofList_toList]

namespace Subclass

variable {s t : Subclass}

/-- The directories that the file of a class lies in, below the output directory. -/
def directories (s : Subclass) : List String :=
  ((Text.pieces '.' s.package.toList).filter (!·.isEmpty)).map String.ofList

/-- The name of the file of a class. -/
def fileName (s : Subclass) : String := s.name ++ ".java"

/-- What the path of a class is made of is fit for a path. -/
structure IsFiled (s : Subclass) : Prop where
  package : s.package ≠ "" → Dotted IsWord s.package
  name : '/' ∉ s.name.toList

namespace IsFiled

/-- No part of a package is empty, and the parts of none are none. -/
theorem pieces (filed : s.IsFiled) :
    (Text.pieces '.' s.package.toList).filter (!·.isEmpty) =
      if s.package = "" then [] else Text.pieces '.' s.package.toList := by
  split
  next none =>
    rw [none]
    rfl
  next declared =>
    have words := (dotted_iff fun w word => word.dot_not_mem).mp (filed.package declared)
    refine List.filter_eq_self.mpr fun part listed => ?_
    have nonempty := (words part listed).nonempty
    rw [String.toList_ofList] at nonempty
    simpa using nonempty

theorem directories (filed : s.IsFiled) : ∀ n ∈ s.directories, IsWord n := by
  intro n listed
  rw [Subclass.directories, filed.pieces] at listed
  obtain ⟨part, isPart, rfl⟩ := List.mem_map.mp listed
  split at isPart
  next => cases isPart
  next declared =>
    exact (dotted_iff fun w word => word.dot_not_mem).mp (filed.package declared) part isPart

theorem fileName (filed : s.IsFiled) : Path.IsName s.fileName := by
  have chars : s.fileName.toList = s.name.toList ++ ['.', 'j', 'a', 'v', 'a'] := by
    rw [Subclass.fileName, String.toList_append]
    rfl
  have length : 5 ≤ s.fileName.toList.length := by
    rw [chars, List.length_append]
    exact Nat.le_add_left 5 _
  constructor
  · intro empty
    rw [empty] at length
    exact absurd length (by decide)
  · rw [chars, List.mem_append, not_or]
    exact ⟨filed.name, by decide⟩
  · intro here
    rw [here] at length
    exact absurd length (by decide)
  · intro up
    rw [up] at length
    exact absurd length (by decide)

theorem names (filed : s.IsFiled) : ∀ n ∈ s.directories ++ [s.fileName], Path.IsName n := by
  rw [List.forall_mem_append, List.forall_mem_singleton]
  exact ⟨fun n listed => (filed.directories n listed).isName, filed.fileName⟩

/-- The path of a class below the output directory leads through its directories to its file. -/
theorem relativePath (filed : s.IsFiled) :
    Path.isAbsolute s.relativePath = false ∧
      Path.steps s.relativePath = s.directories ++ [s.fileName] ∧
      Path.fileName s.relativePath = s.fileName := by
  have areNames : ∀ n ∈ (Text.pieces '.' s.package.toList).filter (!·.isEmpty) ++
      [s.fileName.toList], Path.IsName (String.ofList n) := by
    intro n listed
    apply filed.names
    rw [Subclass.directories, ← String.ofList_toList (s := s.fileName), ← List.map_singleton,
      ← List.map_append]
    exact List.mem_map_of_mem listed
  obtain ⟨relative, steps⟩ := Path.joinAll_names _ areNames
  refine ⟨relative, ?_, ?_⟩
  · rw [Subclass.relativePath, ← Subclass.fileName, steps, List.map_append, List.map_singleton,
      String.ofList_toList]
    rfl
  · rw [Subclass.relativePath, ← Subclass.fileName, Path.joinAll_append, String.ofList_toList,
      Path.fileName_join filed.fileName.relative, filed.fileName.fileName]

/-- Directories and file tell the package and the name. -/
theorem eq_of_place (filed : s.IsFiled) (other : t.IsFiled)
    (same : s.directories ++ [s.fileName] = t.directories ++ [t.fileName]) :
    s.package = t.package ∧ s.name = t.name := by
  obtain ⟨directories, file⟩ := List.append_inj' same rfl
  constructor
  · rw [Subclass.directories, Subclass.directories, filed.pieces, other.pieces] at directories
    have parts := List.map_injective_iff.mpr (fun _ _ => String.ofList_injective) directories
    split at parts <;> split at parts
    next none none' => rw [none, none']
    next => exact absurd parts.symm (Text.pieces_ne_nil _ _)
    next => exact absurd parts (Text.pieces_ne_nil _ _)
    next => exact String.toList_inj.mp (Text.pieces_inj.mp parts)
  · have chars := String.toList_inj.mpr (List.cons.inj file).1
    rw [Subclass.fileName, Subclass.fileName, String.toList_append, String.toList_append] at chars
    exact String.toList_inj.mp (List.append_cancel_right chars)

/-- No file of a class stands where another class has a directory. -/
theorem eq_of_prefix (other : t.IsFiled)
    (below : s.directories ++ [s.fileName] <+: t.directories ++ [t.fileName]) :
    s.directories ++ [s.fileName] = t.directories ++ [t.fileName] := by
  obtain ⟨rest, whole⟩ := below
  rcases List.eq_nil_or_concat rest with rfl | ⟨before, last, rfl⟩
  · rwa [List.append_nil] at whole
  · rw [List.concat_eq_append, ← List.append_assoc] at whole
    have directories := (List.append_inj' whole rfl).1
    have isDirectory : s.fileName ∈ t.directories := by
      rw [← directories]
      simp
    -- The name of a file has a dot, and that of a directory has none.
    exact absurd (by simp [Subclass.fileName]) (other.directories _ isDirectory).dot_not_mem

end IsFiled

end Subclass

namespace GeneratedUnit

variable {g other : GeneratedUnit}

/-- The path that a unit is written to. -/
def target (output : String) (g : GeneratedUnit) : String :=
  Path.join output g.subclass.relativePath

/-- The place of a unit below the place of the output directory. -/
def placeIn (output : Place) (g : GeneratedUnit) : Place :=
  output ++ g.subclass.directories ++ [g.subclass.fileName]

theorem target_path (filed : g.subclass.IsFiled) (output : String) :
    Path.isAbsolute (g.target output) = Path.isAbsolute output ∧
      Path.steps (g.target output) =
        Path.steps output ++ g.subclass.directories ++ [g.subclass.fileName] ∧
      Path.fileName (g.target output) = g.subclass.fileName := by
  obtain ⟨relative, steps, file⟩ := filed.relativePath
  refine ⟨Path.isAbsolute_join relative output, ?_, ?_⟩
  · rw [target, Path.steps_join relative, steps, List.append_assoc]
  · rw [target, Path.fileName_join relative, file]

/-- Two units are written to one path exactly when package and name are the same. -/
theorem target_eq_iff (filed : g.subclass.IsFiled) (otherFiled : other.subclass.IsFiled)
    (output : String) : g.target output = other.target output ↔
      g.subclass.package = other.subclass.package ∧ g.subclass.name = other.subclass.name := by
  constructor
  · intro same
    have steps := (target_path otherFiled output).2.1
    rw [← same, (target_path filed output).2.1, List.append_assoc, List.append_assoc] at steps
    exact filed.eq_of_place otherFiled (List.append_cancel_left steps)
  · rintro ⟨package, name⟩
    rw [target, target, Subclass.relativePath, Subclass.relativePath, package, name]

/-- Units of different paths are written to places of which none is below the other. -/
theorem apart_of_target_ne (filed : g.subclass.IsFiled) (otherFiled : other.subclass.IsFiled)
    {output : String} (differ : g.target output ≠ other.target output) (place : Place) :
    ¬g.placeIn place <+: other.placeIn place := by
  intro below
  rw [placeIn, placeIn, List.append_assoc, List.append_assoc, List.prefix_append_right_inj] at below
  exact differ ((target_eq_iff filed otherFiled output).mpr
    (filed.eq_of_place otherFiled (otherFiled.eq_of_prefix below)))

/-- The units of the classes of a source are filed by words, whatever suffix is accepted. -/
theorem OfClass.isFiled {config : Config} {provider : Provider} {package : String}
    {decl : ClassDecl} (ofClass : g.OfClass config provider package decl)
    (formed : config.WellFormed) (packaged : package ≠ "" → Dotted IsWord package)
    (named : IsWord decl.name) : g.subclass.IsFiled := by
  have noSlash : Config.continuesIdentifier '/' = false := by decide +kernel
  rw [ofClass.subclass, ClassDecl.subclass]
  constructor
  · exact packaged
  · rw [String.toList_append, List.mem_append, not_or]
    refine ⟨named.isName.noSlash, fun listed => ?_⟩
    have continues := formed.classSuffix '/' listed
    rw [noSlash] at continues
    cases continues

end GeneratedUnit

end TestDouble
