import TestDouble.Error
import TestDouble.Text.Trim
import TestDouble.Unicode.Alphabetic

/-!
# Configuration

The settings of the generator, and how they are taken from variables of the environment. A
variable that is set must hold a usable value.
-/

namespace TestDouble

/-- The settings of the generator. -/
structure Config where
  /-- What a line is indented by for each level. -/
  indent : String := "    "
  /-- The exception that the counterpart of a private method declares. -/
  permissiveException : String := "Exception"
  /-- What is appended to the name of a class to name its subclass. -/
  classSuffix : String := "Testable"
  /-- Whether each body is reported in the log. -/
  debug : Bool := false
  deriving DecidableEq, Repr

instance : Inhabited Config := ⟨{}⟩

namespace Config

/-- Whether an identifier can start with the character. -/
def startsIdentifier (c : Char) : Bool := Unicode.isAlphabetic c || c == '_' || c == '$'

/-- Whether an identifier can go on with the character. -/
def continuesIdentifier (c : Char) : Bool :=
  Unicode.isAlphanumeric c || c == '_' || c == '$'

/-- Whether the text is an identifier. -/
def isIdentifier : List Char → Bool
  | [] => false
  | c :: rest => startsIdentifier c && rest.all continuesIdentifier

/-- Whether the text is one identifier or several with dots between them. -/
def isTypeName (text : List Char) : Bool := (Text.pieces '.' text).all isIdentifier

/-- The number that ASCII digits denote, beyond the `n` read so far. -/
def digits? : List Char → Nat → Option Nat
  | [], n => some n
  | c :: rest, n => if c.isDigit then digits? rest (10 * n + (c.toNat - '0'.toNat)) else none

/-- The number that a text denotes: digits, perhaps behind a plus sign, and below 2^64. -/
def number? (text : List Char) : Option Nat :=
  let digits := match text with
    | '+' :: rest => rest
    | _ => text
  if digits.isEmpty then none else (digits? digits 0).filter (· < 0x10000000000000000)

/-- The indentation that a value of `TESTABLE_INDENT` asks for: one to sixteen blanks. -/
def indentOf (value : String) : Except ConfigFault String :=
  match number? (Text.trim value.toList) with
  | none => .error (.indentNotNumber value)
  | some width =>
    if width = 0 || 16 < width then .error (.indentOutOfRange width)
    else .ok (String.ofList (List.replicate width ' '))

/-- The type name in a value of `TESTABLE_PERMISSIVE_EXCEPTION`. -/
def exceptionOf (value : String) : Except ConfigFault String :=
  let text := Text.trim value.toList
  if isTypeName text then .ok (String.ofList text)
  else .error (.exceptionNotType (String.ofList text))

/-- The end of an identifier in a value of `TESTABLE_CLASS_SUFFIX`. -/
def suffixOf (value : String) : Except ConfigFault String :=
  let text := Text.trim value.toList
  if !text.isEmpty && text.all continuesIdentifier then .ok (String.ofList text)
  else .error (.suffixNotIdentifier (String.ofList text))

/-- A setting: the default unless the variable is set. -/
def setting (default : String) (read : String → Except ConfigFault String) :
    Option String → Except ConfigFault String
  | none => .ok default
  | some value => read value

/-- The settings that the environment asks for. The first unusable variable is reported. -/
def ofEnvironment (lookup : String → Option String) : Except ConfigFault Config := do
  let base : Config := {}
  let indent ← setting base.indent indentOf (lookup "TESTABLE_INDENT")
  let permissiveException ← setting base.permissiveException exceptionOf
    (lookup "TESTABLE_PERMISSIVE_EXCEPTION")
  let classSuffix ← setting base.classSuffix suffixOf (lookup "TESTABLE_CLASS_SUFFIX")
  return ⟨indent, permissiveException, classSuffix, (lookup "TESTABLE_DEBUG").isSome⟩

end Config

end TestDouble
