import TestDouble.Error
import TestDouble.Text.Quoted

/-!
# Statement templates

A statement is a template with arguments. In a template `$L`, `$N`, `$S` and `$T` are placeholders
for the arguments in order and `$$` is a dollar sign. `$L` takes any argument as it is; the others
take only an argument of their own kind, and `$S` quotes it. What an argument holds is never read
as a template again.
-/

namespace TestDouble

/-- What an argument is meant to be. -/
inductive ArgumentKind where
  | literal
  | name
  | string
  | type
  deriving DecidableEq, Repr, Inhabited

namespace ArgumentKind

/-- The letter of the placeholder for this kind. -/
def letter : ArgumentKind → Char
  | literal => 'L'
  | name => 'N'
  | string => 'S'
  | type => 'T'

/-- The kind whose placeholder has the given letter. -/
def ofLetter? : Char → Option ArgumentKind
  | 'L' => some literal
  | 'N' => some name
  | 'S' => some string
  | 'T' => some type
  | _ => none

end ArgumentKind

/-- An argument of a statement template. -/
structure Argument where
  kind : ArgumentKind
  text : String
  deriving DecidableEq, Repr, Inhabited

/-- What a placeholder of the given kind puts in place of an argument; `none` when it does not
take the argument. -/
def Argument.fill? (placeholder : ArgumentKind) (a : Argument) : Option String :=
  match placeholder with
  | .literal => some a.text
  | .string => if a.kind = .string then some (Text.Quoted.encode a.text) else none
  | _ => if a.kind = placeholder then some a.text else none

/-- A template and its arguments. -/
structure Statement where
  template : String
  arguments : List Argument
  deriving DecidableEq, Repr, Inhabited

namespace Statement

/-- The template that stands for a text: its dollar signs are doubled. -/
def escape (code : String) : String :=
  String.ofList (code.toList.flatMap fun c => if c = '$' then ['$', '$'] else [c])

/-- A statement that is just code. -/
def code (code : String) : Statement := ⟨escape code, []⟩

/-- Fill in the rest of a template from the arguments left, behind the `used` arguments and the
text written so far. -/
def fill : List Char → List Argument → (used : Nat) → String → Except TemplateFault String
  | '$' :: '$' :: rest, arguments, used, written => fill rest arguments used (written.push '$')
  | '$' :: letter :: rest, arguments, used, written =>
    match ArgumentKind.ofLetter? letter with
    | none => .error (.unknownPlaceholder letter)
    | some kind =>
      match arguments with
      | [] => .error (.missingArgument (used + 1) letter)
      | argument :: others =>
        match argument.fill? kind with
        | none => .error (.wrongKind letter argument.kind.letter argument.text)
        | some text => fill rest others (used + 1) (written ++ text)
  | ['$'], _, _, _ => .error .danglingDollar
  | c :: rest, arguments, used, written => fill rest arguments used (written.push c)
  | [], [], _, written => .ok written
  | [], left, used, _ => .error (.unusedArguments (used + left.length) used)

/-- The template with its arguments filled in. Every argument has to be used. -/
def expand (s : Statement) : Except Error String :=
  (fill s.template.toList s.arguments 0 "").mapError (.template s.template)

/-- The statement as it is written in a body, with the semicolon that ends it. -/
def render (s : Statement) : Except Error String := do
  return (← s.expand).push ';'

end Statement

end TestDouble
