import TestDouble.Proofs.Echo
import TestDouble.Proofs.Seams
import TestDouble.Proofs.Tiling

/-!
# Sources one behind the other

The main result is `Token.ofSource_concatenated`: when two sources are put one behind the other, with
a line break between them, the tokens of the first are the first tokens of both, and the tokens of the
second follow. A line break cannot be taken for a part of the token before it, and it ends a comment
that runs up to the end of its line; all that changes is what is skipped before the second source.
-/

namespace TestDouble

/-- The tokens of a text are found before a line break, and those of what stands behind it follow. -/
theorem Munch.scan_lineBreak {skipped source : List Char} {ms : List Mark}
    (scanned : scan skipped source = some ms) (more : List Char) :
    ∃ left, scan skipped (source ++ '\n' :: more) = (scan left more).map (ms ++ ·) := by
  obtain ⟨left, -, before⟩ := scan_before (d := '\n') rfl scanned (.inl rfl) more
  have isBreak : Gap ['\n'] := .space rfl .nil
  exact ⟨left ++ ['\n'], before.trans (congrArg _ (isBreak.scan_append left more))⟩

namespace Token

/-- What is skipped before the first token is no part of any text that is cut out. -/
theorem matching_of_behind {left : List Char} {ts us : List Token}
    (same : us.map mark = Mark.behind left (ts.map mark)) (view : String → String) :
    Matching view ts us := by
  cases ts with
  | nil =>
    obtain rfl : us = [] := List.map_eq_nil_iff.mp same
    exact ⟨rfl, fun _ _ => rfl⟩
  | cons t ts =>
    obtain ⟨u, us, rfl, first, others⟩ := List.map_eq_cons_iff.mp same
    have lexeme : u.lexeme = t.lexeme := by
      rw [← lexeme_mark, ← lexeme_mark, first]
      rfl
    have text : u.mark.text = t.mark.text := by rw [first]
    constructor
    · have later := congrArg (List.map Mark.lexeme) others
      simp only [List.map_map, Function.comp_def, lexeme_mark] at later
      rw [List.map_cons, List.map_cons, lexeme, later]
    · intro i n
      cases i with
      | zero =>
        cases n with
        | zero => rfl
        | succ n =>
          simp only [List.drop_zero, List.take_succ_cons, List.map_cons, List.map_take, others,
            Mark.quote, text]
      | succ i => rw [List.drop_succ_cons, List.drop_succ_cons, List.map_take, List.map_take,
          List.map_drop, List.map_drop, others]

/-- Where tokens start is told by their texts and by what is skipped between them. -/
theorem Tiles.eq_of_marks {location : Location} {source source' : List Char} {ts us vs : List Token}
    (tiles : Tiles location source ts) (tiles' : Tiles location source' (us ++ vs))
    (same : us.map mark = ts.map mark) : us = ts := by
  induction tiles generalizing source' us with
  | nil => exact List.map_eq_nil_iff.mp same
  | @cons location leading text rest kind ts _ ih =>
    obtain ⟨u, us, rfl, first, others⟩ := List.map_eq_cons_iff.mp same
    cases tiles' with
    | @cons _ leading' text' rest' kind' _ later =>
      obtain ⟨rfl, sameText, sameLeading⟩ : kind' = kind ∧ String.ofList text' = String.ofList text ∧
          String.ofList leading' = String.ofList leading := by simpa [mark] using first
      obtain rfl := String.ofList_inj.mp sameText
      obtain rfl := String.ofList_inj.mp sameLeading
      rw [ih later others]

/-- The tokens of two sources with a line break between them are those of the first, and behind them
those of the second at other places and with more skipped before them. -/
theorem ofSource_concatenated {s₁ s₂ : String} {ts₁ ts₂ : List Token}
    (lexed₁ : ofSource s₁ = .ok ts₁) (lexed₂ : ofSource s₂ = .ok ts₂) :
    ∃ us, ofSource (s₁ ++ "\n" ++ s₂) = .ok (ts₁ ++ us) ∧ ∀ view, Matching view ts₂ us := by
  obtain ⟨left, scanned⟩ := Munch.scan_lineBreak (scan_of_ofSource lexed₁) s₂.toList
  rw [Munch.scan_behind left, scan_of_ofSource lexed₂, Option.map_some, Option.map_some] at scanned
  have whole : (s₁ ++ "\n" ++ s₂).toList = s₁.toList ++ '\n' :: s₂.toList := by
    simp [String.toList_append]
  rw [← whole] at scanned
  obtain ⟨tokens, lexed, marked⟩ := ofSource_of_scan scanned
  obtain ⟨us₁, us, rfl, first, second⟩ := List.map_eq_append_iff.mp marked
  obtain rfl := (ofSource_tiles lexed₁).eq_of_marks (ofSource_tiles lexed) first
  exact ⟨us, lexed, matching_of_behind second⟩

end Token

end TestDouble
