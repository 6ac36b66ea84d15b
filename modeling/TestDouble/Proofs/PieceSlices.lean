import Mathlib.Data.List.ModifyLast
import TestDouble.Proofs.Slices
import TestDouble.Proofs.Tiling

/-!
# Slices between two pieces

A run of pieces that is cut out of a source is taken apart into the same pieces: each of them looks
at what follows it only to see where it ends. The one exception is the last piece, when it is a
reserved word that was taken for an identifier because of what followed it.
-/

namespace TestDouble

namespace Munch

/-- What follows a token may be cut off anywhere. -/
theorem Follows.of_starts {rest rest' : List Char} (starts : rest' <+: rest) :
    Follows rest rest' := by
  obtain ⟨behind, rfl⟩ := starts
  constructor
  · intro d first
    right
    rw [List.head?_append, first, Option.some_or]
  · intro dotted
    exact dotted.trans (List.prefix_append rest' behind)

/-- Characters of a class are taken as far as they go, also when less follows them. -/
private theorem takeWhile_again {p : Char → Bool} {w rest rest' : List Char}
    (length : ((w ++ rest).takeWhile p).length = w.length) (starts : rest' <+: rest) :
    (w ++ rest').takeWhile p = w := by
  have whole := List.takeWhile_append_dropWhile (p := p) (l := w ++ rest)
  obtain ⟨taken, left⟩ := List.append_inj whole length
  have within : ∀ d ∈ w, p d = true := by
    intro d member
    rw [← taken] at member
    exact List.all_eq_true.mp (List.all_takeWhile (p := p)) d member
  have ended : rest'.takeWhile p = [] := by
    cases rest' with
    | nil => rfl
    | cons d more =>
      obtain ⟨behind, rfl⟩ := starts
      have stopped : p d = false := head_dropWhile (w ++ (d :: more ++ behind)) (by rw [left]; rfl)
      exact List.takeWhile_cons_of_neg (by simp [stopped])
  rw [List.takeWhile_append_of_pos within, ended, List.append_nil]

/-- What is skipped is found again when less follows it. -/
theorem munch_trivia_append {c : Char} {w rest rest' : List Char} {kind : Kind}
    (munched : munch c (w ++ rest) = (some kind, w.length)) (trivia : kind.isTrivia = true)
    (starts : rest' <+: rest) : munch c (w ++ rest') = (some kind, w.length) := by
  rcases munch_eq_trivia munched trivia with ⟨space, length⟩ | ⟨rfl, none⟩ |
    ⟨comment, spelled, length⟩ | ⟨comment, k, spelled, ended, length⟩
  · have kept := takeWhile_again length.symm starts
    rw [munch_of_isSpace space] at munched ⊢
    rw [kept, ← (Prod.mk.inj munched).1]
  · obtain rfl := List.eq_nil_of_length_eq_zero none
    rw [munch_of_ofCharacter? rfl] at munched ⊢
    exact munched
  · obtain ⟨rfl, behind⟩ := List.cons.inj spelled
    cases w with
    | nil => simp at length
    | cons d w =>
      rw [List.cons_append] at behind
      obtain ⟨rfl, rfl⟩ := List.cons.inj behind
      have kept := takeWhile_again (Nat.succ.inj length).symm starts
      simp only [List.cons_append, munch, slash, Prod.mk.injEq, List.length_cons] at munched ⊢
      exact ⟨munched.1, by rw [kept]⟩
  · obtain ⟨rfl, behind⟩ := List.cons.inj spelled
    cases w with
    | nil => simp at length
    | cons d w =>
      rw [List.cons_append] at behind
      obtain ⟨rfl, rfl⟩ := List.cons.inj behind
      obtain ⟨m, rfl, bound, taken⟩ := commentLength?_take ended
      obtain rfl : w.length = m := by simpa using length
      rw [List.take_left] at taken
      have before := commentLength?_append taken rest
      have after := commentLength?_append taken rest'
      simp only [List.cons_append, munch, slash, before, Prod.mk.injEq, List.length_cons] at munched
      simp only [List.cons_append, munch, slash, after, munched.1, List.length_cons, Nat.zero_add]

/-- A piece is found again when less follows it. Only at the very end its kind may change. -/
theorem munch_of_starts {c : Char} {w rest rest' : List Char} {kind : Kind}
    (munched : munch c (w ++ rest) = (some kind, w.length)) (starts : rest' <+: rest) :
    munch c (w ++ rest') =
      (some (if rest' = [] then kindBefore kind (String.ofList (c :: w)) [] else kind), w.length) := by
  cases trivia : kind.isTrivia with
  | true =>
    have notWord : kind ≠ .identifier := by
      rintro rfl
      cases trivia
    rw [munch_trivia_append munched trivia starts, kindBefore, if_neg notWord, ite_self]
  | false =>
    rw [munch_append munched trivia (.of_starts starts)]
    cases rest' with
    | nil => rfl
    | cons d more =>
      -- The next character is still there, and no more of what follows makes a word an identifier.
      obtain ⟨behind, rfl⟩ := starts
      rw [if_neg (List.cons_ne_nil d more), kindBefore]
      split
      next identifier =>
        rcases munch_eq_some munched with ⟨-, ofWord⟩ | ⟨notWord, -⟩
        · rw [List.take_left, List.drop_left] at ofWord
          rw [ofWord]
          rfl
        · exact absurd identifier notWord
      next => rfl

/-- A piece as it is when nothing follows it. -/
def alone (p : Option Kind × List Char) : Option Kind × List Char :=
  (p.1.map fun kind => kindBefore kind (String.ofList p.2) [], p.2)

theorem pieces_eq_cons {source : List Char} {p : Option Kind × List Char}
    {ps : List (Option Kind × List Char)} (cut : pieces source = p :: ps)
    (token : p.1.isSome = true) :
    ∃ c w rest kind, source = c :: (w ++ rest) ∧ p = (some kind, c :: w) ∧
      munch c (w ++ rest) = (some kind, w.length) ∧ pieces rest = ps := by
  cases source with
  | nil => simp at cut
  | cons c rest =>
    rw [pieces_cons] at cut
    obtain ⟨rfl, rfl⟩ := List.cons.inj cut
    obtain ⟨kind, found⟩ := Option.isSome_iff_exists.mp token
    have munched : munch c rest = (some kind, (munch c rest).2) := Prod.ext found rfl
    have length := List.length_take_of_le (le_of_munch munched)
    refine ⟨c, rest.take (munch c rest).2, rest.drop (munch c rest).2, kind, ?_, ?_, ?_, rfl⟩
    · rw [List.take_append_drop]
    · exact Prod.ext found rfl
    · rw [List.take_append_drop, length]
      exact munched

/-- The pieces from the start of a text up to some piece, cut off there. -/
theorem pieces_upTo {source : List Char} {run after : List (Option Kind × List Char)}
    (cut : pieces source = run ++ after) (tokens : ∀ p ∈ run, p.1.isSome = true) :
    pieces (run.flatMap Prod.snd) = run.modifyLast alone := by
  induction run generalizing source with
  | nil => exact pieces_nil
  | cons p run ih =>
    obtain ⟨isToken, others⟩ := List.forall_mem_cons.mp tokens
    rw [List.cons_append] at cut
    obtain ⟨c, w, rest, kind, rfl, rfl, munched, later⟩ := pieces_eq_cons cut isToken
    have starts : run.flatMap Prod.snd <+: rest := by
      rw [← flatMap_pieces rest, later, List.flatMap_append]
      exact List.prefix_append _ _
    have again := munch_of_starts munched starts
    rw [List.flatMap_cons, List.cons_append, pieces_cons, again]
    simp only [List.take_left, List.drop_left]
    rw [ih later others]
    cases run with
    | nil => rfl
    | cons q run =>
      have kept := List.modifyLast_append_of_right_ne_nil alone [(some kind, c :: w)] (q :: run)
        (List.cons_ne_nil q run)
      obtain ⟨d, v, _, _, _, rfl, _⟩ := pieces_eq_cons later (others q List.mem_cons_self)
      rw [List.singleton_append] at kept
      rw [kept]
      simp

/-- The pieces from some piece on. -/
theorem pieces_from {source : List Char} {before after : List (Option Kind × List Char)}
    (cut : pieces source = before ++ after) (tokens : ∀ p ∈ before, p.1.isSome = true) :
    ∃ rest, pieces rest = after := by
  induction before generalizing source with
  | nil => exact ⟨source, cut⟩
  | cons p before ih =>
    obtain ⟨isToken, others⟩ := List.forall_mem_cons.mp tokens
    obtain ⟨c, w, rest, kind, rfl, rfl, munched, later⟩ := pieces_eq_cons cut isToken
    exact ih later others

/-- A run of pieces, cut out of a text, is taken apart into these pieces. -/
theorem pieces_slice {source : List Char} {before run after : List (Option Kind × List Char)}
    (cut : pieces source = before ++ (run ++ after)) (tokens : ∀ p ∈ pieces source, p.1.isSome = true) :
    pieces (run.flatMap Prod.snd) = run.modifyLast alone := by
  rw [cut] at tokens
  obtain ⟨rest, later⟩ := pieces_from cut fun p member => tokens p (List.mem_append_left _ member)
  exact pieces_upTo later fun p member =>
    tokens p (List.mem_append_right _ (List.mem_append_left _ member))

/-- Pieces up to one of the tokens among them: the others stand before it, and it stays a token
whatever kind it has. -/
theorem marks_upTo {ps : List (Option Kind × List Char)} {skipped : List Char} {ms after : List Mark}
    {m : Mark} (marked : marks ps skipped = some (ms ++ m :: after)) :
    ∃ front back, ps = front ++ (some m.kind, m.text.toList) :: back ∧ m.kind.isTrivia = false ∧
      skipped ++ front.flatMap Prod.snd = Mark.spread ms ++ m.leading.toList ∧
      marks back [] = some after ∧
      ∀ kind : Kind, kind.isTrivia = false → marks (front ++ [(some kind, m.text.toList)]) skipped =
        some (ms ++ [⟨kind, m.text, m.leading⟩]) := by
  -- White space and comments join the text that is skipped before the next token.
  induction ps generalizing skipped ms with
  | nil => simp [marks] at marked
  | cons p ps ih =>
    obtain ⟨_ | kind, text⟩ := p
    · simp [marks] at marked
    rw [marks] at marked
    split at marked
    next trivia =>
      obtain ⟨front, back, rfl, significant, spread, later, again⟩ := ih marked
      refine ⟨(some kind, text) :: front, back, rfl, significant, ?_, later, ?_⟩
      · rw [List.flatMap_cons, ← List.append_assoc, spread]
      · intro other isToken
        rw [List.cons_append, marks, if_pos trivia, again other isToken]
    next notTrivia =>
      have significant : kind.isTrivia = false := by simpa using notTrivia
      obtain ⟨others, markedRest, split⟩ := Option.map_eq_some_iff.mp marked
      cases ms with
      | nil =>
        obtain ⟨rfl, rfl⟩ := List.cons.inj split
        refine ⟨[], ps, ?_, significant, ?_, markedRest, ?_⟩
        · simp
        · simp [Mark.spread]
        · intro other isToken
          simp [marks, isToken]
      | cons first ms =>
        obtain ⟨rfl, rfl⟩ := List.cons.inj split
        obtain ⟨front, back, rfl, isToken, spread, later, again⟩ := ih markedRest
        refine ⟨(some kind, text) :: front, back, rfl, isToken, ?_, later, ?_⟩
        · rw [List.nil_append] at spread
          simp [Mark.spread] at spread ⊢
          rw [spread]
        · intro other otherToken
          rw [List.cons_append, marks, if_neg notTrivia, again other otherToken]
          rfl

end Munch

/-- A change of the last item changes nothing exactly when it leaves that item as it is. -/
theorem modifyLast_eq_self_iff {α : Type} {f : α → α} {items : List α} {last : α}
    (ends : items.getLast? = some last) : items.modifyLast f = items ↔ f last = last := by
  obtain ⟨front, rfl⟩ := List.getLast?_eq_some_iff.mp ends
  rw [List.modifyLast_concat]
  simp

/-- What a change leaves as it is, it leaves as it is in the last item too. -/
theorem map_modifyLast {α β : Type} {f : α → α} {g : α → β} (kept : ∀ a, g (f a) = g a)
    (items : List α) : (items.modifyLast f).map g = items.map g := by
  rcases List.eq_nil_or_concat items with rfl | ⟨front, last, rfl⟩
  · rfl
  · rw [List.concat_eq_append, List.modifyLast_concat]
    simp [kept]

theorem mem_modifyLast {α : Type} {f : α → α} {items : List α} {a : α}
    (member : a ∈ items.modifyLast f) : ∃ b ∈ items, a = b ∨ a = f b := by
  rcases List.eq_nil_or_concat items with rfl | ⟨front, last, rfl⟩
  · cases member
  · rw [List.concat_eq_append, List.modifyLast_concat, List.mem_append, List.mem_singleton] at member
    rcases member with inFront | rfl
    · exact ⟨a, by simp [inFront], .inl rfl⟩
    · exact ⟨last, by simp, .inr rfl⟩

/-- A token that is what it is whatever follows it: not a reserved word that is taken for an
identifier. -/
def Lexeme.Settled (l : Lexeme) : Prop := l.kind = .identifier → Kind.ofWord l.text = .identifier

theorem Munch.kindBefore_nil_eq_iff {kind : Kind} {text : String} :
    kindBefore kind text [] = kind ↔ Lexeme.Settled ⟨kind, text⟩ := by
  have atEnd : wordKind text [] = Kind.ofWord text := rfl
  constructor
  · rintro same rfl
    rwa [kindBefore, if_pos rfl, atEnd] at same
  · intro free
    exact kindBefore_of_free free []

/-! ### Pieces of a source -/

namespace Piece

/-- The piece is a token that is what it is whatever follows it. -/
def Settled (p : Piece) : Prop := p.kind = some .identifier → Kind.ofWord p.text = .identifier

theorem map_bare_ofSource (source : String) :
    (ofSource source).map bare = Munch.pieces source.toList :=
  map_bare_cut .origin source.toList []

variable {source : String} {before run after : List Piece} {first last : Piece}

theorem offset_of_cut {p : Piece} (cut : ofSource source = before ++ p :: after) :
    p.location.offset = (String.join (before.map text)).utf8ByteSize := by
  have tiles := ofSource_tiles source
  rw [cut] at tiles
  obtain ⟨front, back, -, joined, tiles⟩ := tiles.split
  have placed : p.location = Location.origin.after front := by
    cases tiles
    rfl
  rw [placed, Location.offset_after, joined, Location.origin, Nat.zero_add]

/-- A run of pieces makes up the source from the start of the first to the end of the last. -/
theorem stands_of_cut (cut : ofSource source = before ++ (run ++ after))
    (starts : run.head? = some first) (stops : run.getLast? = some last) :
    Text.Stands source first.location.offset last.stopOffset (String.join (run.map text)) := by
  have whole := (ofSource_tiles source).join
  rw [cut, String.ofList_toList] at whole
  refine ⟨String.join (before.map text), String.join (after.map text), ?_, ?_, ?_⟩
  · rw [← whole]
    simp [String.append_assoc]
  · obtain ⟨more, rfl⟩ := List.head?_eq_some_iff.mp starts
    exact (offset_of_cut cut).symm
  · obtain ⟨front, rfl⟩ := List.getLast?_eq_some_iff.mp stops
    have split : ofSource source = (before ++ front) ++ last :: after := by simp [cut]
    rw [Piece.stopOffset, offset_of_cut split, ← String.utf8ByteSize_append]
    simp [String.append_assoc]

/-- A run of pieces, cut out of a source, is taken apart into these pieces; only the last of them may
have another kind. -/
theorem map_bare_run {tokens : List Token} (lexed : Token.ofSource source = .ok tokens)
    (cut : ofSource source = before ++ (run ++ after)) :
    (ofSource (String.join (run.map text))).map bare = (run.map bare).modifyLast Munch.alone := by
  have pieces := map_bare_ofSource source
  have isToken := Munch.isSome_of_marks (Token.scan_of_ofSource lexed)
  rw [cut, List.map_append, List.map_append] at pieces
  have slice := Munch.pieces_slice pieces.symm isToken
  rw [map_bare_ofSource, ← slice, String.toList_join, List.flatMap_map, List.flatMap_map]
  rfl

theorem texts_run {tokens : List Token} (lexed : Token.ofSource source = .ok tokens)
    (cut : ofSource source = before ++ (run ++ after)) :
    (ofSource (String.join (run.map text))).map text = run.map text := by
  have texts := congrArg (List.map fun p => String.ofList p.2) (map_bare_run lexed cut)
  have kept : ∀ p, String.ofList (Munch.alone p).2 = String.ofList p.2 := fun _ => rfl
  have ofBare : ((fun p => String.ofList p.2) ∘ bare : Piece → String) = text := by
    funext p
    exact String.ofList_toList
  rw [map_modifyLast kept, List.map_map, List.map_map, ofBare] at texts
  exact texts

theorem bare_run_iff {tokens : List Token} (lexed : Token.ofSource source = .ok tokens)
    (cut : ofSource source = before ++ (run ++ after)) (stops : run.getLast? = some last) :
    (ofSource (String.join (run.map text))).map bare = run.map bare ↔ last.Settled := by
  have bareLast : (run.map bare).getLast? = some last.bare := by rw [List.getLast?_map, stops]; rfl
  rw [map_bare_run lexed cut, modifyLast_eq_self_iff bareLast]
  obtain ⟨kind, word, place⟩ := last
  cases kind with
  | none => simp [Munch.alone, bare, Settled]
  | some kind =>
    have settled : Munch.kindBefore kind word [] = kind ↔ _ := Munch.kindBefore_nil_eq_iff
    simpa [Munch.alone, bare, Settled, Lexeme.Settled] using settled

theorem settled_of_noMark {tokens : List Token} (lexed : Token.ofSource source = .ok tokens)
    (noMark : '\uFEFF' ∉ source.toList) {p : Piece} (member : p ∈ ofSource source) : p.Settled := by
  intro identifier
  have isToken := Munch.isSome_of_marks (Token.scan_of_ofSource lexed)
  have listed : (some Kind.identifier, p.text.toList) ∈ Munch.pieces source.toList := by
    rw [← map_bare_ofSource, ← identifier]
    exact List.mem_map_of_mem member
  have free := Munch.free_of_mem_pieces noMark isToken listed
  rwa [String.ofList_toList] at free

end Piece

/-! ### Tokens of a source -/

theorem Munch.exists_marks {ps : List (Option Kind × List Char)}
    (tokens : ∀ p ∈ ps, p.1.isSome = true) (skipped : List Char) :
    ∃ ms, marks ps skipped = some ms := by
  induction ps generalizing skipped with
  | nil => exact ⟨[], rfl⟩
  | cons p ps ih =>
    obtain ⟨here, others⟩ := List.forall_mem_cons.mp tokens
    obtain ⟨_ | kind, text⟩ := p
    · cases here
    rw [marks]
    split
    · exact ih others _
    · obtain ⟨ms, marked⟩ := ih others []
      rw [marked]
      exact ⟨_, rfl⟩

/-- A slice of a source without errors has no errors. -/
theorem Piece.ofSource_of_run {source : String} {tokens : List Token} {before run after : List Piece}
    (lexed : Token.ofSource source = .ok tokens)
    (cut : ofSource source = before ++ (run ++ after)) :
    ∃ found, Token.ofSource (String.join (run.map text)) = .ok found := by
  have isToken := Munch.isSome_of_marks (Token.scan_of_ofSource lexed)
  have slice := map_bare_run lexed cut
  rw [map_bare_ofSource] at slice
  have stillToken : ∀ p ∈ Munch.pieces (String.join (run.map text)).toList, p.1.isSome = true := by
    intro p member
    rw [slice] at member
    obtain ⟨q, listed, same⟩ := mem_modifyLast member
    have before : q.1.isSome = true := by
      apply isToken
      rw [← map_bare_ofSource, cut, List.map_append, List.map_append]
      exact List.mem_append_right _ (List.mem_append_left _ listed)
    rcases same with rfl | rfl
    · exact before
    · simpa [Munch.alone] using before
  obtain ⟨ms, marked⟩ := Munch.exists_marks stillToken []
  obtain ⟨found, again, -⟩ := Token.ofSource_of_scan marked
  exact ⟨found, again⟩

/-- The lexeme as it is when nothing follows it. -/
def Lexeme.alone (l : Lexeme) : Lexeme := ⟨Munch.kindBefore l.kind l.text [], l.text⟩

theorem Lexeme.alone_eq_iff {l : Lexeme} : l.alone = l ↔ l.Settled := by
  rw [alone, Lexeme.mk.injEq, Munch.kindBefore_nil_eq_iff]
  exact and_iff_left rfl

/-- Whatever follows them, tokens have the texts they have. -/
theorem Token.texts_of_lexemes {ts us : List Token}
    (lexemes : ts.map lexeme = (us.map lexeme).modifyLast Lexeme.alone) :
    ts.map text = us.map text := by
  have texts := congrArg (List.map Lexeme.text) lexemes
  have kept : ∀ l : Lexeme, l.alone.text = l.text := fun _ => rfl
  rw [map_modifyLast kept, List.map_map, List.map_map] at texts
  exact texts

/-- Tokens that start a text, cut off behind the last of them. -/
theorem Munch.scan_upTo {ps : List (Option Kind × List Char)} {source : List Char}
    {before : List (Option Kind × List Char)} (cut : pieces source = before ++ ps)
    (tokens : ∀ p ∈ pieces source, p.1.isSome = true) {ms after : List Mark} {m : Mark}
    (marked : marks ps [] = some (ms ++ m :: after)) :
    scan [] (Mark.spread (ms ++ [m])) =
      some (ms ++ [⟨kindBefore m.kind m.text [], m.text, m.leading⟩]) := by
  obtain ⟨front, back, rfl, significant, spread, -, again⟩ := marks_upTo marked
  have run : front ++ (some m.kind, m.text.toList) :: back =
      (front ++ [(some m.kind, m.text.toList)]) ++ back := by simp
  rw [run] at cut
  have slice := pieces_slice cut tokens
  have text : Mark.spread (ms ++ [m]) =
      (front ++ [(some m.kind, m.text.toList)]).flatMap Prod.snd := by
    rw [List.nil_append] at spread
    rw [List.flatMap_append, spread]
    simp [Mark.spread]
  rw [scan, text, slice, List.modifyLast_concat]
  have kept := kindBefore_significant significant m.text []
  simpa [alone] using again _ kept

/-- The source text of a run of tokens holds these tokens and what is skipped between them. It is taken
apart into them; only the last of them may have another kind. -/
theorem Token.scan_slice {source : String} {before more after : List Token} {first : Token}
    (lexed : ofSource source = .ok (before ++ (first :: more ++ after))) :
    ∃ ms m, (⟨first.kind, first.text, ""⟩ : Mark) :: more.map mark = ms ++ [m] ∧
      (Fragment.ofTokens first more).text.toList = Mark.spread (ms ++ [m]) ∧
      Munch.scan [] (Fragment.ofTokens first more).text.toList =
        some (ms ++ [⟨Munch.kindBefore m.kind m.text [], m.text, m.leading⟩]) := by
  have scanned := scan_of_ofSource lexed
  have isToken := Munch.isSome_of_marks scanned
  rw [List.map_append, List.cons_append, List.map_cons] at scanned
  obtain ⟨front, back, split, significant, -, behind, -⟩ := Munch.marks_upTo scanned
  -- The slice starts at the first token, so nothing is skipped before it.
  let start : Mark := ⟨first.kind, first.text, ""⟩
  have marked : Munch.marks ((some first.mark.kind, first.mark.text.toList) :: back) [] =
      some ((start :: more.map mark) ++ after.map mark) := by
    rw [Munch.marks, if_neg (by simp [significant]), behind]
    simp [start, mark]
  have quoted : (Fragment.ofTokens first more).text.toList = Mark.spread (start :: more.map mark) := by
    rw [Fragment.text_ofTokens, List.map_cons, Mark.toList_quote]
    simp [Mark.spread, start, mark]
  rcases List.eq_nil_or_concat (start :: more.map mark) with none | ⟨ms, m, run⟩
  · cases none
  rw [List.concat_eq_append] at run
  rw [run] at quoted
  rw [run, List.append_assoc] at marked
  refine ⟨ms, m, run, quoted, ?_⟩
  rw [quoted]
  exact Munch.scan_upTo split isToken marked

/-- The source text of a run of tokens is taken apart into these tokens; only the last of them may
have another kind. -/
theorem Token.ofSource_slice {source : String} {before more after : List Token} {first : Token}
    (lexed : ofSource source = .ok (before ++ (first :: more ++ after))) :
    ∃ tokens, ofSource (Fragment.ofTokens first more).text = .ok tokens ∧
      tokens.map lexeme = ((first :: more).map lexeme).modifyLast Lexeme.alone := by
  obtain ⟨ms, m, run, -, slice⟩ := scan_slice lexed
  obtain ⟨tokens, again, found⟩ := ofSource_of_scan slice
  refine ⟨tokens, again, ?_⟩
  have lexemes : (first :: more).map lexeme = (ms ++ [m]).map Mark.lexeme := by
    rw [← run]
    simp [lexeme, Mark.lexeme, mark]
  have mapped : tokens.map lexeme = _ := (List.map_map).symm.trans (congrArg (List.map Mark.lexeme) found)
  rw [mapped, lexemes, List.map_append, List.map_append, List.map_singleton, List.map_singleton,
    List.modifyLast_concat]
  rfl

end TestDouble
