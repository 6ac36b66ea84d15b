/-!
# Arguments of the command line

Three commands, each with one path and a few options. Options may stand before or after the path;
short ones may be joined, and their value may follow directly or behind an equals sign.
-/

namespace TestDouble

/-- What the program is asked to do. -/
inductive Command where
  | generate (input : String) (output : Option String) (verbose : Bool)
  | members (input : String)
  | lex (input : String) (locations : Bool)
  | version
  | help (topic : Option String)
  deriving DecidableEq, Repr, Inhabited

namespace CommandLine

/-- What is known of a command's options and how many values they take. -/
structure Grammar where
  flag : Option (Char × String)
  valued : Option (Char × String)
  deriving Inhabited

/-- The options of a command; `none` when there is no such command. -/
def grammar? : String → Option Grammar
  | "generate" => some ⟨some ('v', "verbose"), some ('o', "output")⟩
  | "members" => some ⟨none, none⟩
  | "lex" => some ⟨some ('l', "locations"), none⟩
  | _ => none

/-- What was found among the arguments of a command so far. -/
structure Found where
  path : Option String := none
  value : Option String := none
  flag : Bool := false
  helpWanted : Bool := false
  deriving DecidableEq, Repr, Inhabited

namespace Found

/-- Take a path; there may be only one, and it may not be empty. -/
def addPath? (f : Found) (path : String) : Option Found :=
  if path = "" || f.path.isSome then none else some { f with path := some path }

/-- Take the value of the option; there may be only one, and it may not be empty. -/
def addValue? (f : Found) (value : String) : Option Found :=
  if value = "" || f.value.isSome then none else some { f with value := some value }

/-- Take the flag; it may be given only once. -/
def addFlag? (f : Found) : Option Found := if f.flag then none else some { f with flag := true }

end Found

/-- Whether an argument is read as options rather than as a value. -/
def isOption (argument : String) : Bool :=
  match argument.toList with
  | '-' :: _ :: _ => true
  | _ => false

/-- What joined short options mean: the state behind them, and whether the value of the last one is
still to come. -/
def shortOptions? (g : Grammar) : List Char → Found → Option (Found × Bool)
  | [], f => some (f, false)
  | c :: rest, f =>
    if c = 'h' then some ({ f with helpWanted := true }, false)
    else if g.flag.any (·.1 = c) then
      match f.addFlag? with
      | some f => shortOptions? g rest f
      | none => none
    else if g.valued.any (·.1 = c) then
      match rest with
      | [] => some (f, true)
      | '=' :: value => (f.addValue? (String.ofList value)).map (·, false)
      | value => (f.addValue? (String.ofList value)).map (·, false)
    else none

/-- What a long option means; an equals sign divides its name from its value. -/
def longOption? (g : Grammar) (text : List Char) (f : Found) : Option (Found × Bool) :=
  let name := String.ofList (text.takeWhile (· ≠ '='))
  match text.dropWhile (· ≠ '=') with
  | [] =>
    if name = "help" then some ({ f with helpWanted := true }, false)
    else if g.flag.any (·.2 = name) then f.addFlag?.map (·, false)
    else if g.valued.any (·.2 = name) then some (f, true)
    else none
  | _ :: value =>
    if g.valued.any (·.2 = name) then (f.addValue? (String.ofList value)).map (·, false) else none

/-- Read the arguments behind a command. A request for help ends the reading. -/
def readArguments? (g : Grammar) : List String → Found → Option Found
  | [], f => some f
  | "--" :: rest, f => rest.foldlM Found.addPath? f
  | argument :: rest, f =>
    match argument.toList with
    | '-' :: '-' :: name => finish? rest (longOption? g name f)
    | '-' :: c :: more => finish? rest (shortOptions? g (c :: more) f)
    | _ =>
      match f.addPath? argument with
      | some f => readArguments? g rest f
      | none => none
where
  /-- Go on behind an option, whose value may be the next argument. -/
  finish? : List String → Option (Found × Bool) → Option Found
    | _, none => none
    | rest, some (f, false) => if f.helpWanted then some f else readArguments? g rest f
    | [], some (_, true) => none
    | value :: rest, some (f, true) =>
      if isOption value then none
      else
        match f.addValue? value with
        | some f => readArguments? g rest f
        | none => none

/-- The command that was found; its path has to be given. -/
def command? (name : String) (f : Found) : Option Command :=
  if f.helpWanted then some (.help (some name))
  else
    match f.path with
    | none => none
    | some path =>
      match name with
      | "generate" => some (.generate path f.value f.flag)
      | "members" => some (.members path)
      | "lex" => some (.lex path f.flag)
      | _ => none

/-- The command that arguments ask for; `none` when they cannot be understood. -/
def parse? : List String → Option Command
  | [] => none
  | first :: rest =>
    match first.toList with
    | '-' :: 'V' :: _ => some .version
    | '-' :: 'h' :: _ => some (.help none)
    | _ =>
      if first = "--version" then some .version
      else if first = "--help" then some (.help none)
      else if first = "help" then
        match rest with
        | [] => some (.help none)
        | [topic] =>
          if topic = "help" || (grammar? topic).isSome then some (.help (some topic)) else none
        | _ => none
      else
        match grammar? first with
        | none => none
        | some g => (readArguments? g rest {}).bind (command? first)

end CommandLine

end TestDouble
