import TestDouble.CommandLine.Run

/-!
# The program

The files that a command needs are read into a disk, the command is run on it, and the files that
it wrote there are written back.
-/

namespace TestDouble.Main

/-- The path that a command reads from. -/
def inputOf : Command → Option String
  | .generate input _ _ => some input
  | .members input => some input
  | .lex input _ => some input
  | .version | .help _ => none

/-- The disk with what an operation on it gives, or as it is when the operation fails. -/
def kept (disk : Disk) (result : Except FileFault Disk) : Disk :=
  match result with
  | .ok changed => changed
  | .error _ => disk

/-- Add the file at a path to the disk. -/
def loadFile (disk : Disk) (path : String) : IO Disk := do
  let bytes ← IO.FS.readBinFile path
  return kept disk <| match String.fromUTF8? bytes with
    | some text => disk.write path text
    | none => disk.putFile path .binary

/-- Add what is at a path and below to the disk, for at most the given number of levels. Links
below the path are not followed. -/
def load : Nat → Disk → String → IO Disk
  | 0, disk, _ => return disk
  | levels + 1, disk, path => do
    match ← (IO.FS.realPath path).toBaseIO with
    | .error _ => return disk
    | .ok location =>
      if ← location.isDir then
        let mut loaded := kept disk (disk.makeDirectory path)
        for entry in ← location.readDir do
          if (← entry.path.symlinkMetadata).type != .symlink then
            loaded ← load levels loaded (Path.join path entry.fileName)
        return loaded
      else loadFile disk path

/-- Write a text to a file, making the directories above it. -/
def store (path text : String) : IO Unit := do
  if Path.parent path != "" then IO.FS.createDirAll (Path.parent path)
  IO.FS.writeFile path text

/-- The settings of the environment that the program looks at. -/
def environment : IO (List (String × String)) := do
  let names := ["TESTABLE_INDENT", "TESTABLE_PERMISSIVE_EXCEPTION", "TESTABLE_CLASS_SUFFIX",
    "TESTABLE_DEBUG"]
  names.filterMapM fun name => do return (← IO.getEnv name).map (name, ·)

/-- Run the program on the files there are. -/
def run (arguments : List String) : IO UInt32 := do
  let before ← match (CommandLine.parse? arguments).bind inputOf with
    | some path => load Disk.pathLimit .empty path
    | none => pure .empty
  let settings ← environment
  let outcome := CommandLine.run arguments (fun name => settings.lookup name) before
  for path in outcome.written do
    if let .ok text := outcome.disk.read path then store path text
  IO.print outcome.output
  IO.eprint outcome.complaint
  return outcome.code.toUInt32

end TestDouble.Main

def main (arguments : List String) : IO UInt32 := TestDouble.Main.run arguments
