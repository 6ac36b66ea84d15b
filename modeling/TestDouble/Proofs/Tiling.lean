import Mathlib.Data.List.Induction
import TestDouble.Token.Stream

/-!
# Pieces and tokens tile their source

The pieces of a source, put one behind the other, are the source again, and each of them starts
where the counts of bytes, lines and columns over the pieces before it say. Significant tokens tile
the source in the same way once each of them takes the skipped text before it along.
-/

namespace TestDouble

namespace Location

/-- The place behind a text that starts a source, by counting over the text: its bytes, its line
feeds, and the characters behind the last line feed other than carriage returns. -/
def behind (text : List Char) : Location where
  line := 1 + text.count '\n'
  column := 1 + (text.reverse.takeWhile (· ≠ '\n')).countP (· ≠ '\r')
  offset := (String.ofList text).utf8ByteSize

theorem after_append (location : Location) (a b : List Char) :
    location.after (a ++ b) = (location.after a).after b :=
  List.foldl_append

private theorem byteSize_concat (text : List Char) (c : Char) :
    (String.ofList (text ++ [c])).utf8ByteSize = (String.ofList text).utf8ByteSize + c.utf8Size := by
  rw [String.ofList_append, String.utf8ByteSize_append, ← String.singleton_eq_ofList,
    String.utf8ByteSize_singleton]

private theorem offset_step (location : Location) (c : Char) :
    (location.step c).offset = location.offset + c.utf8Size := by
  simp only [step]
  split
  · rfl
  · split <;> rfl

/-- One more character moves the counted place as it moves a location. -/
private theorem behind_concat (text : List Char) (c : Char) :
    behind (text ++ [c]) = (behind text).step c := by
  by_cases feed : c = '\n'
  · subst feed
    simp [behind, step, Nat.add_assoc]
    rfl
  · by_cases carriage : c = '\r'
    · subst carriage
      simp [behind, step]
      rfl
    · simp [behind, step, feed, carriage, Nat.add_assoc]

theorem origin_after (text : List Char) : origin.after text = behind text := by
  induction text using List.reverseRecOn with
  | nil => rfl
  | append_singleton text c ih =>
    rw [after_append, ih, behind_concat]
    rfl

theorem offset_after (location : Location) (text : List Char) :
    (location.after text).offset = location.offset + (String.ofList text).utf8ByteSize := by
  induction text using List.reverseRecOn with
  | nil => simp [after]
  | append_singleton text c ih =>
    rw [after_append, byteSize_concat, ← Nat.add_assoc, ← ih]
    exact offset_step _ c

end Location

/-- The text stands in the source from the one byte offset to the other. -/
def Text.Stands (source : String) (start stop : Nat) (text : String) : Prop :=
  ∃ before after, source = before ++ text ++ after ∧ before.utf8ByteSize = start ∧
    (before ++ text).utf8ByteSize = stop

namespace Piece

/-- The pieces stand one behind the other from the place on, none of them is empty, and they make
up the text. -/
inductive Tiles : Location → List Char → List Piece → Prop where
  | nil {location : Location} : Tiles location [] []
  | cons {location : Location} {text rest : List Char} {kind : Option Kind} {pieces : List Piece} :
      text ≠ [] → Tiles (location.after text) rest pieces →
      Tiles location (text ++ rest) (⟨kind, String.ofList text, location⟩ :: pieces)

/-- Cutting a text tiles it, behind the pieces cut so far. -/
theorem cut_tiles (location : Location) (source : List Char) (done : List Piece) :
    ∃ pieces, cut location source done = done.reverse ++ pieces ∧ Tiles location source pieces := by
  induction location, source, done using cut.induct with
  | case1 location done => exact ⟨[], by simp [cut], .nil⟩
  | case2 location done c rest kind n munched text ih =>
    obtain ⟨pieces, cutRest, tiles⟩ := ih
    refine ⟨⟨kind, String.ofList text, location⟩ :: pieces, ?_, ?_⟩
    · rw [cut]
      simp only [munched]
      rw [cutRest]
      simp
    · have whole : c :: rest = text ++ rest.drop n := by simp [text]
      rw [whole]
      exact .cons (by simp [text]) tiles

theorem ofSource_tiles (source : String) : Tiles .origin source.toList (ofSource source) := by
  obtain ⟨pieces, cutAll, tiles⟩ := cut_tiles .origin source.toList []
  rw [ofSource, cutAll]
  exact tiles

theorem Tiles.nonempty {location : Location} {source : List Char} {pieces : List Piece}
    (tiles : Tiles location source pieces) : ∀ p ∈ pieces, p.text ≠ "" := by
  induction tiles with
  | nil => simp
  | cons nonempty _ ih =>
    intro p member
    rcases List.mem_cons.mp member with rfl | member
    · simpa using nonempty
    · exact ih p member

theorem Tiles.join {location : Location} {source : List Char} {pieces : List Piece}
    (tiles : Tiles location source pieces) :
    String.join (pieces.map Piece.text) = String.ofList source := by
  induction tiles with
  | nil => rfl
  | cons _ _ ih => simp [ih, String.ofList_append]

/-- A tiling cut in two tiles the two parts of the text. -/
theorem Tiles.split {location : Location} {source : List Char} {before after : List Piece}
    (tiles : Tiles location source (before ++ after)) :
    ∃ first second, source = first ++ second ∧
      String.ofList first = String.join (before.map Piece.text) ∧
      Tiles (location.after first) second after := by
  induction before generalizing location source with
  | nil => exact ⟨[], source, rfl, rfl, tiles⟩
  | cons p before ih =>
    cases tiles with
    | @cons _ text _ _ _ _ tiles =>
      obtain ⟨first, second, rfl, joined, tiles⟩ := ih tiles
      refine ⟨text ++ first, second, by simp, ?_, ?_⟩
      · simp [String.ofList_append, joined]
      · rw [Location.after_append]
        exact tiles

/-- The place behind a piece is where the next one starts, or the end of the text. -/
theorem Tiles.stopOffset {location : Location} {source : List Char} {p : Piece}
    {after : List Piece} (tiles : Tiles location source (p :: after)) :
    p.stopOffset = (after.head?.map (·.location.offset)).getD
      (location.offset + (String.ofList source).utf8ByteSize) := by
  cases tiles with
  | cons _ tiles =>
    cases tiles with
    | nil => simp [Piece.stopOffset]
    | cons _ _ => simp [Piece.stopOffset, Location.offset_after]

/-- The pieces of a source are not empty and make it up. Each of them starts at the place counted
over the pieces before it and ends where the next one starts, the last one at the end of the
source. What is said of a piece that is no token quotes the line and the column so counted. -/
theorem ofSource_tiles_exactly (source : String) :
    String.join ((ofSource source).map Piece.text) = source ∧
    (∀ p ∈ ofSource source, p.text ≠ "") ∧
    ∀ before p after, ofSource source = before ++ p :: after →
      let counted := Location.behind (String.join (before.map Piece.text)).toList
      p.location = counted ∧
      p.stopOffset = (after.head?.map (·.location.offset)).getD source.utf8ByteSize ∧
      p.complaint = "unexpected character " ++ Text.Exhibit.text p.text ++ " at " ++
        (toString counted.line ++ ":" ++ toString counted.column) := by
  have tiles := ofSource_tiles source
  refine ⟨by simpa using tiles.join, tiles.nonempty, ?_⟩
  intro before p after cut counted
  rw [cut] at tiles
  obtain ⟨first, second, whole, joined, tiles⟩ := tiles.split
  have placed : p.location = counted := by
    rw [show counted = Location.origin.after first by
      rw [Location.origin_after, ← String.toList_ofList (l := first), joined]]
    cases tiles
    rfl
  refine ⟨placed, ?_, ?_⟩
  · rw [tiles.stopOffset, Location.offset_after, Nat.add_assoc, ← String.utf8ByteSize_append,
      ← String.ofList_append, ← whole, String.ofList_toList]
    simp [Location.origin]
  · exact placed ▸ rfl

end Piece

namespace Token

/-- The tokens stand one behind the other from the place on, each behind the text skipped before
it; what follows the last one is not their concern. -/
inductive Tiles : Location → List Char → List Token → Prop where
  | nil {location : Location} {source : List Char} : Tiles location source []
  | cons {location : Location} {leading text rest : List Char} {kind : Kind} {tokens : List Token} :
      Tiles (location.after (leading ++ text)) rest tokens →
      Tiles location (leading ++ text ++ rest)
        (⟨kind, String.ofList text, location.after leading, String.ofList leading⟩ :: tokens)

/-- The tokens kept from a tiling tile the same text, behind those kept so far. -/
theorem keep_tiles {pieces : List Piece} (location : Location) (skipped : List Char)
    {source : List Char} {kept tokens : List Token} (tiles : Piece.Tiles (location.after skipped) source pieces)
    (returned : keep pieces (String.ofList skipped) kept = .ok tokens) :
    ∃ found, tokens = kept.reverse ++ found ∧ Tiles location (skipped ++ source) found := by
  induction pieces generalizing location skipped source kept with
  | nil =>
    cases returned
    exact ⟨[], by simp, .nil⟩
  | cons p pieces ih =>
    cases tiles with
    | @cons _ text rest kind _ _ tiles =>
      cases kind with
      | none => simp [keep] at returned
      | some kind =>
        simp only [keep] at returned
        split at returned
        next trivial =>
          -- The piece is skipped: it joins the text before the next token.
          rw [← String.ofList_append] at returned
          rw [← Location.after_append] at tiles
          rw [← List.append_assoc]
          exact ih location (skipped ++ text) tiles returned
        next significant =>
          rw [← Location.after_append, ← List.append_nil (skipped ++ text),
            Location.after_append] at tiles
          obtain ⟨found, rfl, tiles⟩ := ih (location.after (skipped ++ text)) [] tiles returned
          refine ⟨⟨kind, String.ofList text, location.after skipped, String.ofList skipped⟩ :: found,
            by simp, ?_⟩
          rw [← List.append_assoc]
          exact .cons tiles

theorem ofSource_tiles {source : String} {tokens : List Token}
    (lexed : ofSource source = .ok tokens) : Tiles .origin source.toList tokens := by
  obtain ⟨found, rfl, tiles⟩ :=
    keep_tiles .origin [] (Piece.ofSource_tiles source) lexed
  exact tiles

end Token

end TestDouble
