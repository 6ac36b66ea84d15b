import TestDouble.Proofs.Written

/-!
# String literals are read back

The main result is `Text.Quoted.encode_reads_back`: the literal of a text is one token, from its first
quote to its last, and denotes that text. The escapes that `encode` writes are a part of those that
`unescape` knows, and none of them holds a quote or a line feed that would end the token early.
-/

namespace TestDouble

namespace Text

theorem trimEnd_append {text blanks : List Char} (blank : ∀ c ∈ blanks, Unicode.isBlank c = true) :
    trimEnd (text ++ blanks) = trimEnd text := by
  have reversed : ∀ c ∈ blanks.reverse, Unicode.isBlank c = true :=
    fun c member => blank c (List.mem_reverse.mp member)
  rw [trimEnd, trimEnd, List.reverse_append, List.dropWhile_append_of_pos reversed]

/-- White space around a text that neither starts nor ends with any is removed. -/
theorem trim_between {before text after : List Char} {first last : Char}
    (blankBefore : ∀ c ∈ before, Unicode.isBlank c = true)
    (blankAfter : ∀ c ∈ after, Unicode.isBlank c = true)
    (starts : text.head? = some first) (firstSolid : Unicode.isBlank first = false)
    (ends : text.getLast? = some last) (lastSolid : Unicode.isBlank last = false) :
    trim (before ++ text ++ after) = text := by
  have front : (before ++ text ++ after).dropWhile Unicode.isBlank = text ++ after := by
    rw [List.append_assoc, List.dropWhile_append_of_pos blankBefore]
    cases text with
    | nil => cases starts
    | cons c text =>
      obtain rfl := Option.some.inj starts
      rw [List.cons_append, List.dropWhile_cons_of_neg (by simp [firstSolid])]
  have back : text.reverse.dropWhile Unicode.isBlank = text.reverse := by
    rw [← List.head?_reverse] at ends
    cases reversed : text.reverse with
    | nil => rfl
    | cons c more =>
      rw [reversed] at ends
      obtain rfl := Option.some.inj ends
      rw [List.dropWhile_cons_of_neg (by simp [lastSolid])]
  rw [trim, front, trimEnd_append blankAfter, trimEnd, back, List.reverse_reverse]

namespace Quoted

/-- What a character is written as is read as that character. -/
theorem unescape_escape (c : Char) (rest read : List Char) :
    unescape (escape c ++ rest) read = unescape rest (c :: read) := by
  unfold escape
  split
  -- A character without an escape of its own is no backslash, so no escape starts at it.
  case h_6 notQuote notSlash notFeed notReturn notTab =>
    rw [List.singleton_append, unescape]
    · exact fun _ _ slash => absurd slash notSlash
    · exact fun slash => absurd slash notSlash
  all_goals rfl

theorem unescape_flatMap_escape (text read : List Char) :
    unescape (text.flatMap escape) read = some (read.reverse ++ text) := by
  induction text generalizing read with
  | nil => simp [unescape]
  | cons c text ih =>
    rw [List.flatMap_cons, unescape_escape, ih]
    simp

theorem toList_encode (text : String) :
    (encode text).toList = '"' :: (text.toList.flatMap escape ++ ['"']) := by
  simp [encode]

/-- A literal denotes the text it was written for, whatever white space stands around it. -/
theorem decode?_encode (text : String) {before after : String}
    (blankBefore : ∀ c ∈ before.toList, Unicode.isBlank c = true)
    (blankAfter : ∀ c ∈ after.toList, Unicode.isBlank c = true) :
    decode? (before ++ encode text ++ after) = some text := by
  have solid : Unicode.isBlank '"' = false := by decide
  have trimmed : trim (before ++ encode text ++ after).toList = (encode text).toList := by
    rw [String.toList_append, String.toList_append]
    exact trim_between blankBefore blankAfter (by rw [toList_encode]; rfl) solid
      (by rw [toList_encode, ← List.cons_append, List.getLast?_concat]) solid
  -- The first quote is gone, and the last one is the one taken off, whatever stands before it.
  have ended : withoutEnding? ['"'] (text.toList.flatMap escape ++ ['"']) =
      some (text.toList.flatMap escape) := by
    have suffix : ['"'].isSuffixOf (text.toList.flatMap escape ++ ['"']) = true :=
      List.isSuffixOf_iff_suffix.mpr ⟨_, rfl⟩
    rw [withoutEnding?, if_pos suffix]
    simp
  rw [decode?, trimmed, toList_encode]
  simp only [ended, unescape_flatMap_escape]
  simp

/-- The literal of a text is one piece of a source. -/
theorem ofSource_encode (text : String) :
    Piece.ofSource (encode text) = [⟨some .stringLiteral, encode text, .origin⟩] := by
  have quoted : Munch.quote (text.toList.flatMap escape ++ ['"']) =
      (some .stringLiteral, (text.toList.flatMap escape).length + 1) :=
    Munch.quote_escaped fun _ => nofun
  rw [Piece.ofSource, toList_encode, Piece.cut]
  simp only [Munch.munch, quoted]
  rw [List.take_of_length_le (by simp), List.drop_of_length_le (by simp), ← toList_encode, Piece.cut]
  simp

/-- String literals survive writing and reading: the literal of a text is one token that covers it
all, and with any white space around it denotes that text. -/
theorem encode_reads_back (text : String) :
    Piece.ofSource (encode text) = [⟨some .stringLiteral, encode text, .origin⟩] ∧
      Token.ofSource (encode text) = .ok [⟨.stringLiteral, encode text, .origin, ""⟩] ∧
      ∀ before after : String,
        (∀ c ∈ before.toList, Unicode.isBlank c = true) →
        (∀ c ∈ after.toList, Unicode.isBlank c = true) →
        decode? (before ++ encode text ++ after) = some text := by
  refine ⟨ofSource_encode text, ?_, fun _ _ => decode?_encode text⟩
  rw [Token.ofSource, ofSource_encode]
  rfl

/-- A text that is all quotes, backslashes and line ends, between white space of several kinds; and the
empty text, whose literal is two quotes. -/
theorem encode_reads_back_of_quotes :
    decode? (" \t\u00A0" ++ encode "\"\\\\\"\n\\n\r\t" ++ "\u3000\n") = some "\"\\\\\"\n\\n\r\t" ∧
      Token.ofSource (encode "") = .ok [⟨.stringLiteral, "\"\"", .origin, ""⟩] := by
  obtain ⟨-, -, denotes⟩ := encode_reads_back "\"\\\\\"\n\\n\r\t"
  exact ⟨denotes _ _ (List.all_eq_true.mp (by decide)) (List.all_eq_true.mp (by decide)),
    (encode_reads_back "").2.1⟩

end Quoted

end Text

end TestDouble
