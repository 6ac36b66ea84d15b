import TestDouble.Text.Trim

/-!
# Paths

Paths are texts with slashes between their segments and are kept as they were given.
-/

namespace TestDouble.Path

/-- Whether a path starts at the root of the file system. -/
def isAbsolute (path : String) : Bool := path.toList.head? == some '/'

/-- A path below a base, both the base and the result with their last character first. An absolute
path stands by itself. -/
def below (base path : List Char) : List Char :=
  match path, base with
  | '/' :: _, _ | _, [] => path.reverse
  | _, '/' :: _ => path.reverse ++ base
  | _, _ => path.reverse ++ '/' :: base

/-- A path below another. -/
def join (base path : String) : String :=
  String.ofList (below base.toList.reverse path.toList).reverse

/-- Paths one below the other. -/
def joinAll (paths : List (List Char)) : String := String.ofList (paths.foldl below []).reverse

/-- The segments of a path between its slashes, some of them empty. -/
def segments (path : String) : List String := (Text.pieces '/' path.toList).map String.ofList

/-- What follows the last slash. -/
def fileName (path : String) : String := String.ofList (Text.afterLast '/' path.toList)

/-- Segments, last one first, from the last one that leads somewhere; the first one of all is kept.
-/
def withoutIdle : List String → List String
  | segment :: before :: rest =>
    if segment = "" || segment = "." then withoutIdle (before :: rest)
    else segment :: before :: rest
  | segments => segments

/-- The path of the directory that a file is in. -/
def parent (path : String) : String :=
  match withoutIdle (segments path).reverse.tail with
  | [] => ""
  | [""] => "/"
  | segments => String.intercalate "/" segments.reverse

/-- Whether the file name ends in `.java` and has something before that. -/
def isJava (path : String) : Bool :=
  match Text.withoutEnding? ".java".toList (fileName path).toList with
  | some stem => !stem.isEmpty
  | none => false

end TestDouble.Path
