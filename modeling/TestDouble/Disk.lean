import TestDouble.Error
import TestDouble.Path

/-!
# A file system

A disk is a tree of entries. A place is the list of names that lead to an entry from the working
directory; it starts with `/` when it is counted from the root, and with `..` when it lies outside.
Operations fail the way the system's own do.
-/

namespace TestDouble

/-- The names that lead to an entry. -/
abbrev Place := List String

/-- What can stand at a place. Only text can be read; the bytes of other files do not matter. -/
inductive Entry where
  | directory (entries : List (String × Entry))
  | text (content : String)
  | binary

namespace Entry

instance : Inhabited Entry := ⟨binary⟩

/-- Whether this is a directory. -/
def isDirectory : Entry → Bool
  | directory _ => true
  | text _ | binary => false

/-- The text of a file that holds one. -/
def text? : Entry → Option String
  | text content => some content
  | directory _ | binary => none

/-- What a directory holds, by name. A file holds nothing. -/
def entries : Entry → List (String × Entry)
  | directory entries => entries
  | text _ | binary => []

/-- Named entries with another one in the stead of that of the given name. -/
def replace (name : String) (entry : Entry) (entries : List (String × Entry)) :
    List (String × Entry) :=
  entries.map fun (other, old) => if other = name then (name, entry) else (other, old)

/-- What stands at a place below. -/
def get? : Entry → Place → Option Entry
  | e, [] => some e
  | e, name :: rest =>
    match e.entries.lookup name with
    | some next => next.get? rest
    | none => none

/-- The entry with another one put at a place below; directories that are missing are made. -/
def put (e : Entry) (new : Entry) : Place → Entry
  | [] => new
  | name :: rest =>
    match e.entries.lookup name with
    | some next => directory (replace name (next.put new rest) e.entries)
    | none => directory ((name, (directory []).put new rest) :: e.entries)

end Entry

/-- A file system, seen from the working directory. -/
structure Disk where
  root : Entry
  deriving Inhabited

namespace Disk

/-- The disk with nothing on it. -/
def empty : Disk := ⟨.directory []⟩

/-- Whether a place is a directory on every disk: the working directory, those above it, the root.
-/
def isBase (place : Place) : Bool := place.all (· == "..") || place == ["/"]

/-- What stands at a place. -/
def entry? (d : Disk) (place : Place) : Option Entry :=
  match d.root.get? place with
  | some entry => some entry
  | none => if isBase place then some (.directory []) else none

/-- Put an entry at a place, in the stead of what was there. -/
def put (d : Disk) (place : Place) (entry : Entry) : Disk := ⟨d.root.put entry place⟩

/-- The place above a place, both with the last name first. -/
def above : List String → List String
  | [] => [".."]
  | ".." :: rest => ".." :: ".." :: rest
  | "/" :: rest => "/" :: rest
  | _ :: rest => rest

/-- The longest name that an entry may have, in bytes. -/
def nameLimit : Nat := 255

/-- The longest path that may be asked for, in bytes. -/
def pathLimit : Nat := 4095

/-- What is wrong with a path whatever is on the disk: it may hold no NUL, it may not be empty, and
there is a limit to its length. -/
def pathFault? (path : String) : Option FileFault :=
  if path.toList.contains '\x00' then some .badName
  else if path = "" then some .missing
  else if pathLimit < path.utf8ByteSize then some .nameTooLong
  else none

/-- Where a path starts, and its segments from there. -/
def startOf (path : String) : Place × List String :=
  if Path.isAbsolute path then (["/"], Path.segments path) else ([], Path.segments path)

/-- Whether a segment of a path leads nowhere else. -/
def isIdle (segment : String) : Bool := segment == "" || segment == "."

/-- The place that segments lead to, if there is an entry there, from a place given with its last
name first and the entry at it. -/
def followFrom (d : Disk) : List String → Entry → List String → Except FileFault Place
  | trail, _, [] => .ok trail.reverse
  | trail, entry, segment :: rest =>
    if !entry.isDirectory then .error .notDirectory
    else if isIdle segment then followFrom d trail entry rest
    else if segment = ".." then
      followFrom d (above trail) ((d.entry? (above trail).reverse).getD (.directory [])) rest
    else if nameLimit < segment.utf8ByteSize then .error .nameTooLong
    else
      match entry.entries.lookup segment with
      | some next => followFrom d (segment :: trail) next rest
      | none => .error .missing

/-- The place that segments lead to from a base place, if there is an entry there. -/
def follow (d : Disk) (start : Place) (segments : List String) : Except FileFault Place :=
  d.followFrom start.reverse ((d.entry? start).getD (.directory [])) segments

/-- The place of the entry at a path. -/
def find (d : Disk) (path : String) : Except FileFault Place :=
  match pathFault? path with
  | some fault => .error fault
  | none =>
    let (place, segments) := startOf path
    d.follow place segments

/-- The text of the file at a path. -/
def read (d : Disk) (path : String) : Except FileFault String := do
  match d.entry? (← d.find path) with
  | some (.text content) => return content
  | some .binary => throw .notText
  | some (.directory _) => throw .isDirectory
  | none => throw .missing

/-- What a directory holds, in the order of the names. The names that lead outside the working
directory are left out. -/
def listing (d : Disk) (directory : Place) : List (String × Entry) :=
  match d.entry? directory with
  | some entry =>
    let inside := entry.entries.filter fun e => e.1 != ".." && e.1 != "/"
    inside.mergeSort fun a b => !decide (b.1 < a.1)
  | none => []

/-- Make a directory of the given name in the one that segments lead to. One that is there already
is as good as a new one. -/
def makeOne (d : Disk) (start : Place) (segments : List String) (name : String) :
    Except FileFault Disk := do
  let place ← d.follow start segments
  match d.entry? place with
  | some (.directory entries) =>
    if name = ".." then return d
    else if nameLimit < name.utf8ByteSize then throw .nameTooLong
    else
      match entries.lookup name with
      | none => return d.put (place ++ [name]) (.directory [])
      | some (.directory _) => return d
      | some _ => throw .alreadyThere
  | _ => throw .notDirectory

/-- Make the directory that segments, last one first, lead to from a base place. The directories
above it are made only when it cannot be made without them. -/
def makeDirectories (d : Disk) (start : Place) : List String → Except FileFault Disk
  | [] => .ok d
  | segment :: outer =>
    if isIdle segment then makeDirectories d start outer
    else
      match d.makeOne start outer.reverse segment with
      | .error .missing => do
        let made ← makeDirectories d start outer
        made.makeOne start outer.reverse segment
      | result => result

/-- Make the directory at a path and those above it, and return its place. The empty path is the
working directory. -/
def makeDirectoryAt (d : Disk) (path : String) : Except FileFault (Disk × Place) :=
  if path = "" then .ok (d, [])
  else
    match pathFault? path with
    | some fault => .error fault
    | none => do
      let (start, segments) := startOf path
      let made ← d.makeDirectories start segments.reverse
      return (made, ← made.follow start segments)

/-- Put a file at a path, making the directories above it. A directory cannot be replaced. -/
def putFile (d : Disk) (path : String) (file : Entry) : Except FileFault Disk := do
  let (made, directory) ← d.makeDirectoryAt (Path.parent path)
  let name := Path.fileName path
  match pathFault? path with
  | some fault => throw fault
  | none =>
    if nameLimit < name.utf8ByteSize then throw .nameTooLong
    match made.entry? (directory ++ [name]) with
    | some (.directory _) => throw .isDirectory
    | _ => return made.put (directory ++ [name]) file

/-- Write a text to a path, making the directories above it. -/
def write (d : Disk) (path content : String) : Except FileFault Disk :=
  d.putFile path (.text content)

/-- Make a directory and those above it. -/
def makeDirectory (d : Disk) (path : String) : Except FileFault Disk :=
  (d.makeDirectoryAt path).map Prod.fst

/-- The path that leads to a place. -/
def pathTo : Place → String
  | "/" :: rest => "/" ++ String.intercalate "/" rest
  | place => String.intercalate "/" place

/-- Whether a place is in or below the working directory. -/
def isInside (place : Place) : Bool := place.head? != some "/" && place.head? != some ".."

/-- The source at a path in or below the working directory, unless another disk holds the same
text there: the path from the working directory and the text. -/
def sourceNotIn? (d other : Disk) (path : String) : Option (String × String) :=
  match d.find path with
  | .error _ => none
  | .ok place =>
    match (d.entry? place).bind Entry.text? with
    | none => none
    | some content =>
      if isInside place && Path.isJava (pathTo place) &&
          (other.entry? place).bind Entry.text? != some content then
        some (pathTo place, content)
      else none

end Disk

end TestDouble
