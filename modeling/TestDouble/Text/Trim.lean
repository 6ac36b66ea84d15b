import TestDouble.Unicode.Blank

/-!
# Cutting text

Trimming, removing a known ending, and cutting dotted names, on lists of characters.
-/

namespace TestDouble.Text

open Unicode (isBlank)

/-- The text without the white space it ends with. -/
def trimEnd (text : List Char) : List Char :=
  (text.reverse.dropWhile isBlank).reverse

/-- The text without the white space around it. -/
def trim (text : List Char) : List Char :=
  trimEnd (text.dropWhile isBlank)

/-- What stands before the given ending, if the text ends with it. -/
def withoutEnding? (ending text : List Char) : Option (List Char) :=
  if ending.isSuffixOf text then some (text.take (text.length - ending.length)) else none

/-- What was removed and what is left make up the text. -/
theorem append_of_withoutEnding? {ending text rest : List Char}
    (found : withoutEnding? ending text = some rest) : text = rest ++ ending := by
  simp only [withoutEnding?] at found
  split at found
  next suffix =>
    obtain ⟨start, rfl⟩ := List.isSuffixOf_iff_suffix.mp suffix
    simp only [List.length_append, Nat.add_sub_cancel, List.take_left, Option.some.injEq] at found
    rw [found]
  next => simp at found

/-- The pieces of the rest of a text, behind the begun piece and the pieces before it, both last
part first. -/
def piecesFrom (separator : Char) : List Char → List Char → List (List Char) → List (List Char)
  | [], piece, read => (piece.reverse :: read).reverse
  | c :: rest, piece, read =>
    if c = separator then piecesFrom separator rest [] (piece.reverse :: read)
    else piecesFrom separator rest (c :: piece) read

/-- The pieces between the separators: one more than there are separators, some of them empty. -/
def pieces (separator : Char) (text : List Char) : List (List Char) :=
  piecesFrom separator text [] []

/-- What follows the last separator, or the whole text when there is none. -/
def afterLast (separator : Char) (text : List Char) : List Char :=
  (text.reverse.takeWhile (· ≠ separator)).reverse

/-- The last segment of a dotted name: `Entry` of `java.util.Map.Entry`. -/
def lastSegment (name : String) : String :=
  String.ofList (afterLast '.' name.toList)

end TestDouble.Text
