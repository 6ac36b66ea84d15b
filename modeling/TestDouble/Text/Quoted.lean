import TestDouble.Text.Trim

/-!
# String literals

`encode` writes a text as a Java string literal; `decode?` reads one back, white space around it
aside. A literal that `encode` wrote is read back as the text it was written for.
-/

namespace TestDouble.Text.Quoted

/-- A character as it stands between the quotes of a literal. -/
def escape : Char → List Char
  | '"' => ['\\', '"']
  | '\\' => ['\\', '\\']
  | '\n' => ['\\', 'n']
  | '\r' => ['\\', 'r']
  | '\t' => ['\\', 't']
  | c => [c]

/-- The text as a string literal, quotes included. -/
def encode (text : String) : String :=
  String.ofList ('"' :: text.toList.flatMap escape ++ ['"'])

/-- The character that a backslash and the given character stand for. -/
def escaped : Char → Char
  | 'n' => '\n'
  | 't' => '\t'
  | 'r' => '\r'
  | c => c

/-- The text that stands between the quotes, behind what was read so far (last character first).
A backslash at the very end escapes nothing and is refused. -/
def unescape : List Char → List Char → Option (List Char)
  | [], read => some read.reverse
  | '\\' :: c :: rest, read => unescape rest (escaped c :: read)
  | ['\\'], _ => none
  | c :: rest, read => unescape rest (c :: read)

/-- The text that a string literal denotes; `none` unless a quote stands at both ends. -/
def decode? (literal : String) : Option String :=
  match trim literal.toList with
  | '"' :: rest =>
    match withoutEnding? ['"'] rest with
    | some inner => (unescape inner []).map String.ofList
    | none => none
  | _ => none

end TestDouble.Text.Quoted
