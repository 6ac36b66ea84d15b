import TestDouble.Token.Kind
import TestDouble.Unicode.Letter
import TestDouble.Unicode.Number

/-!
# The next token of a text

`munch` decides, from the first character and what follows it, which token starts there and how
many of the following characters belong to it. Every text that starts no token still has a piece:
the part that was tried in vain. The first character is always taken, so reading always advances.
-/

namespace TestDouble.Munch

open Unicode (isLetter isNumber)

/-- The characters of a blank stretch: blank, tab, line feed, carriage return, form feed. -/
def isSpace (c : Char) : Bool :=
  c == ' ' || c == '\t' || c == '\n' || c == '\r' || c == '\x0c'

/-- Whether a word can start with the character. -/
def startsWord (c : Char) : Bool := c == '_' || c == '$' || isLetter c

/-- Whether a word can go on with the character. -/
def continuesWord (c : Char) : Bool := c == '_' || c == '$' || isLetter c || isNumber c

/-- The characters of a number: ASCII letters and digits, and the underscore. -/
def isNumeral (c : Char) : Bool := c.isAlphanum || c == '_'

/-- Whether the character is ASCII. -/
def isAscii (c : Char) : Bool := c.toNat < 0x80

/-- The digits of a hexadecimal number, either case. -/
def isHexDigit (c : Char) : Bool :=
  c.isDigit || ('a' ≤ c && c ≤ 'f') || ('A' ≤ c && c ≤ 'F')

/-- How far the content of a string literal reaches, beyond the `n` characters counted so far: a
line feed, a quote or a backslash before a line feed ends it. -/
def stringContent : List Char → Nat → Nat
  | '\\' :: c :: rest, n => if c = '\n' then n else stringContent rest (n + 2)
  | ['\\'], n => n
  | c :: rest, n => if c = '"' || c = '\n' then n else stringContent rest (n + 1)
  | [], n => n

/-- Whether the character is plain content of a text block, line feeds included. -/
def isBlockPlain (c : Char) : Bool := c != '"' && c != '\\'

/-- How far the content of a text block reaches, beyond the `n` characters counted so far. One or
two quotes belong to it when plain content follows them. -/
def blockContent : List Char → Nat → Nat
  | '\\' :: c :: rest, n => if c = '\n' then n else blockContent rest (n + 2)
  | '"' :: '"' :: c :: rest, n => if isBlockPlain c then blockContent rest (n + 3) else n
  | '"' :: c :: rest, n => if isBlockPlain c then blockContent rest (n + 2) else n
  | c :: rest, n => if isBlockPlain c then blockContent rest (n + 1) else n
  | [], n => n

/-- How many characters a block comment takes behind `/*` up to its first `*/`, beyond the `n`
counted so far; `none` when it never ends. -/
def commentLength? : List Char → Nat → Option Nat
  | '*' :: '/' :: _, n => some (n + 2)
  | _ :: rest, n => commentLength? rest (n + 1)
  | [], _ => none

/-- What a double quote starts: a text block behind three quotes, else a string literal. -/
def quote : List Char → Option Kind × Nat
  | '"' :: '"' :: rest =>
    let n := blockContent rest 0
    match rest.drop n with
    | '"' :: '"' :: '"' :: _ => (some .textBlock, n + 5)
    | _ => (none, n + 2)
  | rest =>
    let n := stringContent rest 0
    match rest.drop n with
    | '"' :: _ => (some .stringLiteral, n + 1)
    | _ => (none, n)

/-- One ASCII character or an escaped one, and the closing quote. -/
def character : List Char → Option Kind × Nat
  | '\\' :: c :: '\'' :: _ => if isAscii c && c != '\n' then (some .charLiteral, 3) else (none, 0)
  | c :: '\'' :: _ =>
    if isAscii c && c != '\'' && c != '\\' && c != '\n' then (some .charLiteral, 2) else (none, 0)
  | _ => (none, 0)

/-- What a single quote starts: a character, also one given by four hexadecimal digits, and the
closing quote. Characters outside ASCII are refused. -/
def apostrophe (rest : List Char) : Option Kind × Nat :=
  match rest with
  | '\\' :: 'u' :: a :: b :: c :: d :: '\'' :: _ =>
    if isHexDigit a && isHexDigit b && isHexDigit c && isHexDigit d then (some .charLiteral, 7)
    else character rest
  | _ => character rest

/-- What a slash starts: a comment or an operator. -/
def slash : List Char → Option Kind × Nat
  | '/' :: rest => (some .lineComment, (rest.takeWhile (· ≠ '\n')).length + 1)
  | '*' :: rest =>
    match commentLength? rest 0 with
    | some n => (some .blockComment, n + 1)
    | none => (none, rest.length + 1)
  | _ => (some .operator, 0)

/-- What a dot starts: an ellipsis when two more follow. -/
def dots : List Char → Option Kind × Nat
  | '.' :: '.' :: _ => (some .ellipsis, 2)
  | _ => (some .dot, 0)

/-- How many characters a number takes behind its first digit; a dot and what follows it may be
part of it once. -/
def numberLength (rest : List Char) : Nat :=
  let whole := (rest.takeWhile isNumeral).length
  match rest.drop whole with
  | '.' :: fraction => whole + 1 + (fraction.takeWhile isNumeral).length
  | _ => whole

/-- Whether a text starts, in UTF-8, with a byte that some letter or number starts with. -/
def startsLikeWord : List Char → Bool
  | [] => false
  | c :: _ => Unicode.letters.sharesLead c.toNat || Unicode.numbers.sharesLead c.toNat

/-- The kind of a word, given the text behind it. A keyword is taken for an identifier when the
next byte could still belong to the word: `int` right before a no-break space is no keyword. -/
def wordKind (word : String) (behind : List Char) : Kind :=
  if startsLikeWord behind then .identifier else Kind.ofWord word

/-- The token that starts with the character `c`, and how many of the characters behind it belong
to it. There is no kind when no token starts here; then the piece holds what was tried. -/
def munch (c : Char) (rest : List Char) : Option Kind × Nat :=
  match c with
  | '"' => quote rest
  | '\'' => apostrophe rest
  | '/' => slash rest
  | '.' => dots rest
  | _ =>
    match Kind.ofCharacter? c with
    | some kind => (some kind, 0)
    | none =>
      if isSpace c then (some .whitespace, (rest.takeWhile isSpace).length)
      else if c.isDigit then (some .number, numberLength rest)
      else if startsWord c then
        let word := rest.takeWhile continuesWord
        let behind := rest.dropWhile continuesWord
        (some (wordKind (String.ofList (c :: word)) behind), word.length)
      else (none, 0)

end TestDouble.Munch
