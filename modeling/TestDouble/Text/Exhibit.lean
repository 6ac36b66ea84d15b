import TestDouble.Unicode.Unprintable

/-!
# Showing a text in a message

A text that could not be read is shown between quotes on one line: quotes, backslashes and line
ends are escaped, and a character without a glyph of its own is shown by its number.
-/

namespace TestDouble.Text.Exhibit

/-- The hexadecimal digits of a number, lower case, without leading zeros. -/
def hexadecimal (n : Nat) : String := String.ofList (Nat.toDigits 16 n)

/-- A character as it is shown. -/
def character (c : Char) : String :=
  match c with
  | '"' => "\\\""
  | '\\' => "\\\\"
  | '\n' => "\\n"
  | '\r' => "\\r"
  | '\t' => "\\t"
  | '\x00' => "\\0"
  | c =>
    if Unicode.isUnprintable c then "\\u\x7b" ++ hexadecimal c.toNat ++ "\x7d"
    else String.singleton c

/-- A text as it is shown, quotes included. -/
def text (s : String) : String :=
  "\"" ++ String.join (s.toList.map character) ++ "\""

end TestDouble.Text.Exhibit
