import TestDouble.CompilationUnit.Reader
import TestDouble.Disk
import TestDouble.Subclass.Rendering

/-!
# Generation

From a source to the subclasses of its classes, and from a tree of sources to a tree of subclasses.
-/

namespace TestDouble

/-- A subclass and its rendered source. -/
structure GeneratedUnit where
  subclass : Subclass
  source : String

namespace Subclass

/-- The path of the class below an output directory: a directory for each part of the package. -/
def relativePath (s : Subclass) : String :=
  let directories := (Text.pieces '.' s.package.toList).filter (!·.isEmpty)
  Path.joinAll (directories ++ [(s.name ++ ".java").toList])

end Subclass

namespace GeneratedUnit

/-- Generate the subclass of every class of a source, each in the package of its class. -/
def ofSource (config : Config) (provider : Provider) (source : String) :
    Traced (List GeneratedUnit) := do
  let unit ← CompilationUnit.read source
  Traced.mapAll (fun decl => do
    let subclass ←
      decl.synthesize config provider unit.packageName (decl.name ++ config.classSuffix)
    let text ← .silent (subclass.render config)
    return ⟨subclass, text⟩) unit.classes

/-- Generate the subclass of one class of a source, in the given package and with the given name. -/
def ofClass (config : Config) (source className package name : String) : Traced String := do
  let unit ← CompilationUnit.read source
  match unit.findClass? className with
  | none => .failed (.classNotFound (unit.qualifiedName className))
  | some decl =>
    .log .debug ("generating " ++ name ++ " from " ++ unit.qualifiedName className)
    let subclass ← decl.synthesize config .forwarding package name
    .silent (subclass.render config)

end GeneratedUnit

/-- How far the generation for a tree has come: the disk, the trace and the paths written, the last
two with the last one first. -/
structure TreeState where
  disk : Disk
  events : List Event := []
  written : List String := []

namespace TreeState

/-- The state with one more record. -/
def log (s : TreeState) (level : Level) (message : String) : TreeState :=
  { s with events := .record ⟨level, message⟩ :: s.events }

/-- The records so far, in order. -/
def records (s : TreeState) : List Record := s.events.reverse.filterMap Event.record?

/-- Do something for each item in order, up to the first failure. -/
def each {α : Type} (f : α → TreeState → TreeState × Option Error) :
    List α → TreeState → TreeState × Option Error
  | [], s => (s, none)
  | item :: rest, s =>
    match f item s with
    | (s, none) => each f rest s
    | failed => failed

/-- Write a unit below the output directory. -/
def writeUnit (output : String) (unit : GeneratedUnit) (s : TreeState) :
    TreeState × Option Error :=
  let target := Path.join output unit.subclass.relativePath
  match s.disk.write target unit.source with
  | .error fault => (s, some (.file fault))
  | .ok disk =>
    ({ s with disk, written := target :: s.written }.log .info ("wrote " ++ target), none)

/-- Generate the units of a source file and write them. -/
def processFile (config : Config) (output path : String) (s : TreeState) :
    TreeState × Option Error :=
  let s := s.log .debug ("generating from " ++ path)
  match s.disk.read path with
  | .error fault => (s, some (.file fault))
  | .ok source =>
    let run := GeneratedUnit.ofSource config .forwarding source
    let s := { s with events := run.events.reverse ++ s.events }
    match run.outcome with
    | .error error => (s, some error)
    | .ok units => each (writeUnit output) units s

/-- Generate for a file if it is a source. -/
def visitFile (config : Config) (output path : String) (s : TreeState) :
    TreeState × Option Error :=
  if Path.isJava path then processFile config output path s else (s, none)

/-- Visit all below a directory, given its place and the path it was reached by, in the order of the
names and for at most the given number of levels. A directory is listed when it is entered; what
its entries are is known from the list. -/
def walk (config : Config) (output : String) :
    Nat → Place → String → TreeState → TreeState × Option Error
  | 0, _, _, s => (s, none)
  | levels + 1, place, path, s =>
    match Disk.pathFault? path with
    | some fault => (s, some (.visit path fault))
    | none =>
      each (fun (name, entry) =>
        if entry.isDirectory then
          walk config output levels (place ++ [name]) (Path.join path name)
        else visitFile config output (Path.join path name)) (s.disk.listing place) s

/-- Generate for every source at or below a path, and write below the output directory. A path
grows with every level, so there are no more levels than a path may have bytes. -/
def generate (config : Config) (input output : String) (disk : Disk) : TreeState × Option Error :=
  match disk.find input with
  | .error fault => ({ disk }, some (.visit input fault))
  | .ok place =>
    match disk.entry? place with
    | some (.directory _) => walk config output (Disk.pathLimit + 1) place input { disk }
    | _ => visitFile config output input { disk }

end TreeState

end TestDouble
