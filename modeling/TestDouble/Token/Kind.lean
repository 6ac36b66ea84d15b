import TestDouble.Modifier

/-!
# Kinds of tokens

Only what a declaration is read by gets a kind of its own. Expression operators share one kind,
and `>` never joins another `>`, so nested type arguments close one bracket at a time.
-/

namespace TestDouble

/-- A keyword that is a type by itself, `void` included. -/
inductive Primitive where
  | boolean
  | byte
  | short
  | int
  | long
  | char
  | float
  | double
  | void
  deriving DecidableEq, Repr, Inhabited

namespace Primitive

/-- All primitive types. -/
def all : List Primitive := [boolean, byte, short, int, long, char, float, double, void]

/-- The keyword as it is written in a source. -/
def keyword : Primitive → String
  | boolean => "boolean"
  | byte => "byte"
  | short => "short"
  | int => "int"
  | long => "long"
  | char => "char"
  | float => "float"
  | double => "double"
  | void => "void"

/-- The name of the token kind. -/
def name : Primitive → String
  | boolean => "Boolean"
  | byte => "Byte"
  | short => "Short"
  | int => "Int"
  | long => "Long"
  | char => "Char"
  | float => "Float"
  | double => "Double"
  | void => "Void"

end Primitive

/-- The kind of a token. -/
inductive Kind where
  | modifier (m : Modifier)
  | primitive (p : Primitive)
  | packageWord
  | importWord
  | classWord
  | interfaceWord
  | enumWord
  | extendsWord
  | implementsWord
  | throwsWord
  | superWord
  | thisWord
  | leftParen
  | rightParen
  | leftBracket
  | rightBracket
  | leftBrace
  | rightBrace
  | semicolon
  | comma
  | dot
  | atSign
  | ellipsis
  | less
  | greater
  | question
  | ampersand
  | star
  | assign
  | operator
  | textBlock
  | stringLiteral
  | charLiteral
  | number
  | identifier
  | lineComment
  | blockComment
  | whitespace
  | byteOrderMark
  deriving DecidableEq, Repr, Inhabited

namespace Kind

/-- The kind's name in listings. -/
def name : Kind → String
  | modifier m => m.name
  | primitive p => p.name
  | packageWord => "Package"
  | importWord => "Import"
  | classWord => "Class"
  | interfaceWord => "Interface"
  | enumWord => "Enum"
  | extendsWord => "Extends"
  | implementsWord => "Implements"
  | throwsWord => "Throws"
  | superWord => "Super"
  | thisWord => "This"
  | leftParen => "LParen"
  | rightParen => "RParen"
  | leftBracket => "LBracket"
  | rightBracket => "RBracket"
  | leftBrace => "LBrace"
  | rightBrace => "RBrace"
  | semicolon => "Semicolon"
  | comma => "Comma"
  | dot => "Dot"
  | atSign => "At"
  | ellipsis => "Ellipsis"
  | less => "Lt"
  | greater => "Gt"
  | question => "Question"
  | ampersand => "Amp"
  | star => "Star"
  | assign => "Assign"
  | operator => "Operator"
  | textBlock => "TextBlock"
  | stringLiteral => "StringLiteral"
  | charLiteral => "CharLiteral"
  | number => "Number"
  | identifier => "Identifier"
  | lineComment => "LineComment"
  | blockComment => "BlockComment"
  | whitespace => "Whitespace"
  | byteOrderMark => "Bom"

/-- The reserved words that have a kind of their own. Words such as `record` or `return` have
none: they are identifiers. -/
def keywords : List (String × Kind) :=
  Modifier.all.map (fun m => (m.keyword, modifier m)) ++
  Primitive.all.map (fun p => (p.keyword, primitive p)) ++
  [("package", packageWord), ("import", importWord), ("class", classWord),
   ("interface", interfaceWord), ("enum", enumWord), ("extends", extendsWord),
   ("implements", implementsWord), ("throws", throwsWord), ("super", superWord),
   ("this", thisWord)]

/-- The kind of a word: its keyword kind, or an identifier. -/
def ofWord (word : String) : Kind := (keywords.lookup word).getD identifier

/-- The characters that are a token by themselves wherever they stand. -/
def ofCharacter? : Char → Option Kind
  | '(' => some leftParen
  | ')' => some rightParen
  | '[' => some leftBracket
  | ']' => some rightBracket
  | '\x7b' => some leftBrace
  | '\x7d' => some rightBrace
  | ';' => some semicolon
  | ',' => some comma
  | '@' => some atSign
  | '<' => some less
  | '>' => some greater
  | '?' => some question
  | '&' => some ampersand
  | '*' => some star
  | '=' => some assign
  | '-' | '+' | '%' | '!' | '~' | '|' | '^' | ':' => some operator
  | '\uFEFF' => some byteOrderMark
  | _ => none

/-- Whether a token of this kind is left out before a declaration is read. -/
def isTrivia : Kind → Bool
  | whitespace | byteOrderMark | lineComment | blockComment => true
  | _ => false

/-- Whether the kind opens a bracket: round, square or curly. -/
def opens : Kind → Bool
  | leftParen | leftBracket | leftBrace => true
  | _ => false

/-- Whether the kind closes a bracket: round, square or curly. -/
def closes : Kind → Bool
  | rightParen | rightBracket | rightBrace => true
  | _ => false

end Kind

end TestDouble
