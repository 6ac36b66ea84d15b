import TestDouble.Proofs.Following
import TestDouble.Proofs.Tiling

/-!
# Text blocks

A text block holds plain characters and escapes, and before each of these there may be one or two
quotes. Main statement: `Piece.ofSource_textBlock`. The scan takes every such part except an escaped
line feed and an escape with quotes right before it. Without those the block is one token that covers
it all; the first of them makes the whole block an error that reaches up to it.
-/

namespace TestDouble

/-- What may stand in a text block: a plain character, or a backslash and any character. -/
inductive TextBlock.Sign where
  | plain (c : Char) (isPlain : Munch.isBlockPlain c = true)
  | escape (c : Char)

/-- A sign of a text block and how many quotes stand right before it. -/
structure TextBlock.Part where
  quotes : Fin 3
  sign : Sign

namespace TextBlock

def Sign.text : Sign → List Char
  | plain c _ => [c]
  | escape c => ['\\', c]

def Part.text (p : Part) : List Char := List.replicate p.quotes '"' ++ p.sign.text

/-- The content of a text block, between its quotes. -/
def content (parts : List Part) : List Char := parts.flatMap Part.text

/-- The quotes that a text block starts and ends with. -/
def quotes : List Char := ['"', '"', '"']

/-- The text block as it stands in a source. -/
def literal (parts : List Part) : String := String.ofList (quotes ++ content parts ++ quotes)

/-- Whether the scan for the end of a text block takes the part. -/
def Part.isTaken (p : Part) : Bool :=
  match p.sign with
  | .plain _ _ => true
  | .escape c => p.quotes == 0 && c != '\n'

/-- The scan goes on behind a part that it takes. -/
theorem Part.blockContent_taken {p : Part} (taken : p.isTaken = true) (rest : List Char) (n : Nat) :
    Munch.blockContent (p.text ++ rest) n = Munch.blockContent rest (n + p.text.length) := by
  obtain ⟨quotes, sign⟩ := p
  cases sign with
  | plain c isPlain =>
    have notQuote : c ≠ '"' := by
      rintro rfl
      cases isPlain
    match quotes with
    | 0 => exact Munch.blockContent_plain isPlain rest n
    | 1 =>
      change Munch.blockContent ('"' :: c :: rest) n = _
      rw [Munch.blockContent_quote notQuote, if_pos isPlain]
      rfl
    | 2 =>
      change Munch.blockContent ('"' :: '"' :: c :: rest) n = _
      rw [Munch.blockContent, if_pos isPlain]
      rfl
  | escape c =>
    obtain ⟨none, notFeed⟩ : quotes = 0 ∧ c ≠ '\n' := by simpa [isTaken] using taken
    subst none
    change Munch.blockContent ('\\' :: c :: rest) n = _
    rw [Munch.blockContent, if_neg notFeed]
    rfl

/-- The scan stops before a part that it does not take, and no three quotes stand there. -/
theorem Part.blockContent_refused {p : Part} (refused : p.isTaken = false) (rest : List Char) (n : Nat) :
    Munch.blockContent (p.text ++ rest) n = n ∧
      ∀ behind, p.text ++ rest ≠ '"' :: '"' :: '"' :: behind := by
  obtain ⟨quotes, sign⟩ := p
  cases sign with
  | plain => cases refused
  | escape c =>
    match quotes with
    | 0 =>
      obtain rfl : c = '\n' := by simpa [isTaken] using refused
      exact ⟨by simp [text, Sign.text, Munch.blockContent], fun _ => by simp [text, Sign.text]⟩
    | 1 | 2 =>
      -- The quotes could only go on with a plain character or with a third quote.
      exact ⟨by simp [text, Sign.text, Munch.blockContent, Munch.isBlockPlain, List.replicate],
        fun _ => by simp [text, Sign.text, List.replicate]⟩

theorem blockContent_content {parts : List Part} (taken : ∀ p ∈ parts, p.isTaken = true)
    (rest : List Char) (n : Nat) :
    Munch.blockContent (content parts ++ rest) n =
      Munch.blockContent rest (n + (content parts).length) := by
  induction parts generalizing n with
  | nil => rfl
  | cons p parts ih =>
    obtain ⟨here, later⟩ := List.forall_mem_cons.mp taken
    rw [content, List.flatMap_cons, List.append_assoc, Part.blockContent_taken here]
    change Munch.blockContent (content parts ++ rest) _ = _
    rw [ih later, List.length_append, Nat.add_assoc]
    rfl

/-- Parts that are all taken, and three quotes, make a text block. -/
theorem quote_of_taken {parts : List Part} (taken : ∀ p ∈ parts, p.isTaken = true) :
    Munch.quote ('"' :: '"' :: (content parts ++ quotes)) =
      (some .textBlock, (content parts).length + 5) := by
  have stops : Munch.blockContent (content parts ++ quotes) 0 = (content parts).length := by
    rw [blockContent_content taken, Nat.zero_add]
    rfl
  simp only [Munch.quote, stops, List.drop_left]
  rfl

/-- The first part that is not taken ends the piece, which is no token. -/
theorem quote_of_refused {before : List Part} {p : Part} (taken : ∀ q ∈ before, q.isTaken = true)
    (refused : p.isTaken = false) (rest : List Char) :
    Munch.quote ('"' :: '"' :: (content before ++ (p.text ++ rest))) =
      (none, (content before).length + 2) := by
  obtain ⟨stays, notClosed⟩ := p.blockContent_refused refused rest (content before).length
  have stops : Munch.blockContent (content before ++ (p.text ++ rest)) 0 =
      (content before).length := by
    rw [blockContent_content taken, Nat.zero_add, stays]
  -- The closing quotes are looked for where `notClosed` says they are not.
  simp only [Munch.quote, stops, List.drop_left]

end TextBlock

open TextBlock (content literal quotes)

/-- A text block is one token that covers it all when no line feed is escaped in it and no quotes
stand right before an escape. Otherwise it is no token: the first such part ends a piece that starts
where the block starts and reaches up to this part. -/
theorem Piece.ofSource_textBlock (parts : List TextBlock.Part) :
    if parts.all TextBlock.Part.isTaken then
      ofSource (literal parts) = [⟨some .textBlock, literal parts, .origin⟩] ∧
        Token.ofSource (literal parts) = .ok [⟨.textBlock, literal parts, .origin, ""⟩]
    else
      Token.ofSource (literal parts) =
        .error ⟨none, String.ofList (quotes ++ content (parts.takeWhile TextBlock.Part.isTaken)),
          .origin⟩ := by
  split
  next all =>
    have quoted := TextBlock.quote_of_taken (List.all_eq_true.mp all)
    have single : ofSource (literal parts) = [⟨some .textBlock, literal parts, .origin⟩] := by
      have spelled : (literal parts).toList = '"' :: '"' :: '"' :: (content parts ++ quotes) :=
        String.toList_ofList
      rw [ofSource, spelled, cut]
      simp only [Munch.munch, quoted]
      rw [List.take_of_length_le (by simp [quotes]), List.drop_of_length_le (by simp [quotes]), cut,
        ← spelled, String.ofList_toList]
      rfl
    refine ⟨single, ?_⟩
    rw [Token.ofSource, single]
    rfl
  next some_ =>
    -- The parts before the first one that is not taken, that one, and the others.
    have whole := List.takeWhile_append_dropWhile (p := TextBlock.Part.isTaken) (l := parts)
    have taken : ∀ p ∈ parts.takeWhile TextBlock.Part.isTaken, p.isTaken = true :=
      List.all_eq_true.mp List.all_takeWhile
    generalize parts.takeWhile TextBlock.Part.isTaken = before at whole taken
    cases left : parts.dropWhile TextBlock.Part.isTaken with
    | nil =>
      rw [left, List.append_nil] at whole
      subst whole
      exact absurd (List.all_eq_true.mpr taken) some_
    | cons p after =>
      have refused : p.isTaken = false := by
        have first := List.head?_dropWhile_not TextBlock.Part.isTaken parts
        simpa [left] using first
      rw [left] at whole
      have quoted := TextBlock.quote_of_refused taken refused (content after ++ quotes)
      have spelled : (literal parts).toList =
          '"' :: '"' :: '"' :: (content before ++ (p.text ++ (content after ++ quotes))) := by
        rw [← whole]
        simp [literal, content, quotes]
      rw [Token.ofSource, Token.ofPieces, ofSource, spelled, cut]
      simp only [Munch.munch, quoted, List.take_succ_cons, List.take_left]
      -- The pieces behind the first one do not matter: it is no token.
      obtain ⟨later, cutLater, -⟩ := cut_tiles _ _ _
      rw [cutLater]
      rfl

end TestDouble
