import TestDouble.CommandLine.Arguments
import TestDouble.Generation

/-!
# Running a command

A command is run on a disk. The outcome is what the program leaves behind: an exit code, the texts
on its two outputs, and the disk.
-/

namespace TestDouble.CommandLine

/-- What a run of the program leaves behind. -/
structure Outcome where
  code : Nat
  output : String
  complaint : String
  disk : Disk
  /-- The paths that were written, in order. -/
  written : List String := []

/-- A failure as it is reported: what was attempted, and the reasons behind it, nearest first. -/
structure Report where
  message : String
  causes : List String := []

namespace Report

/-- A text whose further lines are indented. -/
def indented (indent text : String) : String :=
  String.ofList (text.toList.flatMap fun c => if c = '\n' then '\n' :: indent.toList else [c])

/-- The causes from the given number on, one line each. -/
def numbered : Nat → List String → String
  | _, [] => ""
  | n, cause :: rest =>
    "\n    " ++ toString n ++ ": " ++ indented "       " cause ++ numbered (n + 1) rest

/-- The text of a report. Several causes are numbered from zero, a single one is not. -/
def text (r : Report) : String :=
  "Error: " ++ r.message ++
    (match r.causes with
      | [] => ""
      | [cause] => "\n\nCaused by:\n    " ++ indented "    " cause
      | causes => "\n\nCaused by:" ++ numbered 0 causes) ++ "\n"

/-- The report of a failure by itself. -/
def ofError (e : Error) : Report := ⟨e.message, e.causes⟩

/-- The report of a failure in the course of something. -/
def during (attempt : String) (e : Error) : Report := ⟨attempt, e.message :: e.causes⟩

end Report

/-- The lines of a listing as one text. -/
def listing (lines : List String) : String := String.join (lines.map (· ++ "\n"))

/-- A class and its members, abstract ones marked. -/
def memberLines (unit : CompilationUnit) (decl : ClassDecl) : List String :=
  unit.qualifiedName decl.name :: decl.members.map fun m =>
    "  " ++ m.modifiers.text ++ " " ++ m.signature ++
      (if m.isAbstract then " (abstract, skipped)" else "")

/-- A token, with its place or its text. -/
def tokenLine (locations : Bool) (t : Token) : String :=
  if locations then t.kind.name ++ " at " ++ t.location.text
  else t.kind.name ++ ": '" ++ t.text ++ "'"

/-- List the members of the classes in a file. -/
def listMembers (disk : Disk) (input : String) : Except Report String :=
  match disk.read input with
  | .error fault => .error ⟨"cannot read " ++ input, [fault.message]⟩
  | .ok source =>
    match (CompilationUnit.read source).outcome with
    | .error error => .error (.ofError error)
    | .ok unit => .ok (listing (unit.classes.flatMap (memberLines unit)))

/-- List the tokens of a file. -/
def listTokens (disk : Disk) (input : String) (locations : Bool) : Except Report String :=
  match disk.read input with
  | .error fault => .error ⟨fault.message, []⟩
  | .ok source =>
    match Token.ofSource source with
    | .error piece => .error ⟨"Lexical error: " ++ piece.complaint, []⟩
    | .ok tokens => .ok (listing (tokens.map (tokenLine locations)))

/-- Generate for a file or a tree; the disk may have changed also when this fails. -/
def generate (lookup : String → Option String) (disk : Disk) (input : String)
    (output : Option String) (verbose : Bool) : TreeState × Except Report String :=
  match Config.ofEnvironment lookup with
  | .error fault => ({ disk }, .error (.ofError (.config fault)))
  | .ok config =>
    let directory := output.getD "."
    match TreeState.generate config input directory disk with
    | (state, some error) =>
      (state, .error (.during ("failed to generate from " ++ input) error))
    | (state, none) =>
      let written := state.written.reverse
      (state, .ok (listing ((if verbose then written else []) ++
        ["Generated " ++ toString written.length ++ " class(es) into " ++ directory])))

/-- The name and number of the program. -/
def versionLine : String := "testable-gen 0.1.0\n"

/-- What can be asked of the program. -/
def helpText : Option String → String
  | some "generate" => listing
    ["Generate a testable subclass for every class in a file or directory", "",
     "Usage: testable-gen generate [OPTIONS] <PATH>", "",
     "Arguments:", "  <PATH>  Input .java file or source directory", "",
     "Options:", "  -o, --output <DIR>  Output directory for generated sources",
     "  -v, --verbose       Verbose output", "  -h, --help          Print help"]
  | some "members" => listing
    ["List the members of each class and which of them get a counterpart", "",
     "Usage: testable-gen members <FILE>", "",
     "Arguments:", "  <FILE>  Input .java file", "",
     "Options:", "  -h, --help  Print help"]
  | some "lex" => listing
    ["Lexically analyze a .java file", "",
     "Usage: testable-gen lex [OPTIONS] <FILE>", "",
     "Arguments:", "  <FILE>  Input .java file", "",
     "Options:", "  -l, --locations  Show token locations", "  -h, --help       Print help"]
  | _ => listing
    ["Generate testable subclasses from Java sources", "",
     "Usage: testable-gen <COMMAND>", "",
     "Commands:",
     "  generate  Generate a testable subclass for every class in a file or directory",
     "  members   List the members of each class and which of them get a counterpart",
     "  lex       Lexically analyze a .java file",
     "  help      Print this message or the help of the given subcommand(s)", "",
     "Options:", "  -h, --help     Print help", "  -V, --version  Print version"]

/-- The outcome of a command that gave a text or a report. -/
def Outcome.of (disk : Disk) : Except Report String → Outcome
  | .ok text => { code := 0, output := text, complaint := "", disk }
  | .error report => { code := 1, output := "", complaint := report.text, disk }

/-- Run a command. -/
def execute (lookup : String → Option String) (disk : Disk) : Command → Outcome
  | .generate input output verbose =>
    let (state, result) := generate lookup disk input output verbose
    { Outcome.of state.disk result with written := state.written.reverse }
  | .members input => .of disk (listMembers disk input)
  | .lex input locations => .of disk (listTokens disk input locations)
  | .version => .of disk (.ok versionLine)
  | .help topic => .of disk (.ok (helpText topic))

/-- Run the program. Arguments that cannot be understood give the exit code two. -/
def run (arguments : List String) (lookup : String → Option String) (disk : Disk) : Outcome :=
  match parse? arguments with
  | none => { code := 2, output := "", complaint := helpText none, disk }
  | some command => execute lookup disk command

end TestDouble.CommandLine
