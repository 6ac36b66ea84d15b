import TestDouble.ParseError

/-!
# Failures of the generator

Each failure is a cause of its own; `Error.message` is the one place where the wording stands.
-/

namespace TestDouble

/-- Why an operation on a file failed. -/
inductive FileFault where
  | missing
  | alreadyThere
  | notDirectory
  | isDirectory
  | notText
  | nameTooLong
  | badName
  deriving DecidableEq, Repr, Inhabited

/-- The system's words for a fault. -/
def FileFault.message : FileFault → String
  | missing => "No such file or directory (os error 2)"
  | alreadyThere => "File exists (os error 17)"
  | notDirectory => "Not a directory (os error 20)"
  | isDirectory => "Is a directory (os error 21)"
  | notText => "stream did not contain valid UTF-8"
  | nameTooLong => "File name too long (os error 36)"
  | badName => "file name contained an unexpected NUL byte"

/-- Why a variable of the environment was refused. -/
inductive ConfigFault where
  | indentNotNumber (value : String)
  | indentOutOfRange (width : Nat)
  | exceptionNotType (value : String)
  | suffixNotIdentifier (value : String)
  deriving DecidableEq, Repr, Inhabited

def ConfigFault.message : ConfigFault → String
  | indentNotNumber value => "TESTABLE_INDENT must be a number of spaces, got '" ++ value ++ "'"
  | indentOutOfRange width => "TESTABLE_INDENT out of range: " ++ toString width
  | exceptionNotType value =>
    "TESTABLE_PERMISSIVE_EXCEPTION is not a type name: '" ++ value ++ "'"
  | suffixNotIdentifier value =>
    "TESTABLE_CLASS_SUFFIX is not an identifier part: '" ++ value ++ "'"

/-- Why a statement template could not be filled in. Placeholders are numbered from one. -/
inductive TemplateFault where
  | unknownPlaceholder (letter : Char)
  | danglingDollar
  | missingArgument (number : Nat) (letter : Char)
  | wrongKind (letter given : Char) (text : String)
  | unusedArguments (given used : Nat)
  deriving DecidableEq, Repr, Inhabited

def TemplateFault.message : TemplateFault → String
  | unknownPlaceholder letter => "unknown placeholder $" ++ String.singleton letter
  | danglingDollar => "dangling '$' at end of template"
  | missingArgument number letter =>
    "no argument for placeholder #" ++ toString number ++ " ($" ++ String.singleton letter ++ ")"
  | wrongKind letter given text =>
    "$" ++ String.singleton letter ++ " given a $" ++ String.singleton given ++ " argument '" ++
      text ++ "'"
  | unusedArguments given used =>
    toString given ++ " argument(s) given, " ++ toString used ++ " used"

/-- Why a declaration cannot be used although it was read. -/
inductive DeclarationFault where
  | constructorName
  | reservedName
  | notString (value : String)
  | notClassLiteral (value : String)
  | unknownScope (value : String)
  deriving DecidableEq, Repr, Inhabited

def DeclarationFault.message : DeclarationFault → String
  | constructorName => "constructor name does not match its class; a method needs a return type"
  | reservedName => "reserved constructor name used for a method"
  | notString value => "targetMethod must be a string literal, got " ++ value
  | notClassLiteral value => "targetClass must be a class literal, got " ++ value
  | unknownScope value => "unknown mock scope '" ++ value ++ "'"

/-- A failure of the generator. -/
inductive Error where
  | parse (cause : ParseError)
  | malformed (member : String) (fault : DeclarationFault)
  | template (text : String) (fault : TemplateFault)
  | classNotFound (name : String)
  | config (fault : ConfigFault)
  | file (fault : FileFault)
  /-- The input path itself could not be visited. -/
  | visit (path : String) (fault : FileFault)
  deriving DecidableEq, Repr, Inhabited

namespace Error

/-- What is said when a path could not be visited. -/
def visitMessage (path : String) (fault : FileFault) : String :=
  "IO error for operation on " ++ path ++ ": " ++ fault.message

/-- The text of a failure. -/
def message : Error → String
  | parse cause =>
    match cause.cause with
    | .lexical _ => "Lexical error: " ++ cause.detail
    | _ =>
      "Parse error at line " ++ toString cause.location.line ++ ", column " ++
        toString cause.location.column ++ ": " ++ cause.detail
  | malformed member fault => "Malformed declaration '" ++ member ++ "': " ++ fault.message
  | template text fault =>
    "Invalid statement template \"" ++ text ++ "\": " ++ fault.message
  | classNotFound name => "Class not found: " ++ name
  | config fault => "Configuration error: " ++ fault.message
  | file fault => "IO error: " ++ fault.message
  | visit path fault => "IO error: " ++ visitMessage path fault

/-- The failures behind a failure, nearest first. -/
def causes : Error → List String
  | file fault => [fault.message]
  | visit path fault => [visitMessage path fault, fault.message]
  | _ => []

end Error

end TestDouble
