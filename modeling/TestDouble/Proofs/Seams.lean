import TestDouble.Proofs.Slices

/-!
# Seams between texts

No token can take a blank, a line break, a semicolon, a comma or a round bracket that stands behind it.
So a text that is put before one of these signs is taken apart as it is alone, unless it ends in a
comment that goes on up to the end of its line, which only a line break ends. Stretches of a source
can be put together in this way, with a blank between two of them. A text that ends in a sign of this
kind is sealed: it is taken apart in the same way whatever follows it.
-/

namespace TestDouble

/-- Tokens with more skipped before the first of them. -/
def Mark.behind (left : List Char) : List Mark → List Mark
  | [] => []
  | m :: ms => { m with leading := String.ofList (left ++ m.leading.toList) } :: ms

namespace Mark

variable {left : List Char} {ms : List Mark}

theorem behind_append (nonempty : ms ≠ []) (more : List Mark) :
    behind left (ms ++ more) = behind left ms ++ more := by
  cases ms with
  | nil => exact absurd rfl nonempty
  | cons m ms => rfl

theorem spread_behind (nonempty : ms ≠ []) : spread (behind left ms) = left ++ spread ms := by
  cases ms with
  | nil => exact absurd rfl nonempty
  | cons m ms => simp [behind, spread_cons]

theorem map_lexeme_behind : (behind left ms).map lexeme = ms.map lexeme := by
  cases ms <;> rfl

theorem spread_append (ms ns : List Mark) : spread (ms ++ ns) = spread ms ++ spread ns := by
  rw [spread, List.flatMap_append]
  rfl

end Mark

namespace Munch

theorem marks_behind (ps : List (Option Kind × List Char)) (left skipped : List Char) :
    marks ps (left ++ skipped) = (marks ps skipped).map (Mark.behind left) := by
  induction ps generalizing skipped with
  | nil => rfl
  | cons p ps ih =>
    obtain ⟨_ | kind, text⟩ := p
    · rfl
    · rw [marks, marks]
      split
      · rw [List.append_assoc, ih]
      · cases marks ps [] <;> simp [Mark.behind]

theorem scan_behind (left source : List Char) :
    scan left source = (scan [] source).map (Mark.behind left) := by
  have more := marks_behind (pieces source) left []
  rwa [List.append_nil] at more

/-! ### Before a sign that parts tokens -/

variable {d : Char}

theorem Follows.append_of_parts (parted : parts d = true) (rest more : List Char) :
    Follows rest (rest ++ d :: more) := by
  cases rest with
  | nil =>
    apply Follows.of_parts
    intro e starts
    obtain rfl := Option.some.inj starts
    exact parted
  | cons c rest =>
    refine ⟨fun e starts => .inr starts, ?_⟩
    rintro ⟨behind, dotted⟩
    obtain ⟨rfl, second⟩ := List.cons.inj dotted
    cases rest with
    | nil =>
      -- The sign is no dot, so it does not complete three of them.
      obtain ⟨rfl, -⟩ := List.cons.inj second
      exact absurd parted (by decide)
    | cons e rest =>
      obtain ⟨rfl, -⟩ := List.cons.inj second
      exact ⟨rest, rfl⟩

theorem startsLikeWord_append (parted : parts d = true) (rest more : List Char) :
    startsLikeWord (rest ++ d :: more) = startsLikeWord rest := by
  cases rest with
  | nil =>
    have apart : (Unicode.letters.sharesLead d.toNat || Unicode.numbers.sharesLead d.toNat) = false :=
      eq_false_of_parts (p := fun d => Unicode.letters.sharesLead d.toNat ||
        Unicode.numbers.sharesLead d.toNat) (by decide) parted
    exact apart
  | cons c rest => rfl

variable {c : Char} {w rest : List Char} {kind : Kind}

/-- A token stays what it is when a sign that parts tokens is put behind the text, and more. -/
theorem munch_before (parted : parts d = true) (munched : munch c (w ++ rest) = (some kind, w.length))
    (significant : kind.isTrivia = false) (more : List Char) :
    munch c (w ++ (rest ++ d :: more)) = (some kind, w.length) := by
  rw [munch_append munched significant (.append_of_parts parted rest more), kindBefore]
  split
  next identifier =>
    rcases munch_eq_some munched with ⟨-, ofWord⟩ | ⟨notWord, -⟩
    · rw [List.take_left, List.drop_left] at ofWord
      rw [ofWord, wordKind, wordKind, startsLikeWord_append parted]
    · exact absurd identifier notWord
  next => rfl

/-- A comment up to the end of its line stops before a line break or at the end of the text. -/
theorem lineComment_stops (munched : munch c (w ++ rest) = (some .lineComment, w.length)) :
    rest = [] ∨ ∃ later, rest = '\n' :: later := by
  rcases munch_eq_trivia munched rfl with ⟨space, -⟩ | ⟨rfl, -⟩ | ⟨comment, spelled, length⟩ |
    ⟨comment, k, spelled, ended, -⟩
  · rw [munch_of_isSpace space] at munched
    cases munched
  · rw [munch_of_ofCharacter? rfl] at munched
    cases munched
  · obtain ⟨rfl, second⟩ := List.cons.inj spelled
    cases w with
    | nil => simp at length
    | cons e w =>
      obtain ⟨rfl, rfl⟩ := List.cons.inj second
      have whole := List.takeWhile_append_dropWhile (p := (· ≠ '\n')) (l := w ++ rest)
      have stops (e : Char) := head_dropWhile (p := (· ≠ '\n')) (w ++ rest) (d := e)
      obtain ⟨-, left⟩ := List.append_inj whole (by simpa using length.symm)
      cases rest with
      | nil => exact .inl rfl
      | cons e rest =>
        rw [left] at stops
        obtain rfl : e = '\n' := by simpa using stops e rfl
        exact .inr ⟨rest, rfl⟩
  · obtain ⟨rfl, second⟩ := List.cons.inj spelled
    rw [second, munch, slash, ended] at munched
    cases munched

/-- What is skipped is still skipped before other text, though a blank stretch may go on in it; a
comment up to the end of its line needs that end. -/
theorem scan_trivia {rest' : List Char} (munched : munch c (w ++ rest) = (some kind, w.length))
    (trivia : kind.isTrivia = true)
    (ended : kind = .lineComment → ∃ later, rest' = '\n' :: later) (skipped : List Char) :
    scan skipped (c :: (w ++ rest')) = scan (skipped ++ c :: w) rest' := by
  -- All that is skipped is a gap by itself, except a comment without the end of its line.
  have ofGap (gap : Gap (c :: w)) : scan skipped (c :: (w ++ rest')) =
      scan (skipped ++ c :: w) rest' := gap.scan_append skipped _
  rcases munch_eq_trivia munched trivia with ⟨space, length⟩ | ⟨rfl, none⟩ |
    ⟨comment, spelled, length⟩ | ⟨comment, k, spelled, closed, length⟩
  · have whole := List.takeWhile_append_dropWhile (p := isSpace) (l := w ++ rest)
    obtain ⟨taken, -⟩ := List.append_inj whole length.symm
    apply ofGap
    have blanks : Gap (w ++ []) := Gap.nil.spaces fun d member =>
      List.all_eq_true.mp (List.all_takeWhile (p := isSpace)) d (by rwa [taken])
    rw [List.append_nil] at blanks
    exact .space space blanks
  · obtain rfl : w = [] := List.length_eq_zero_iff.mp none
    exact ofGap (.mark .nil)
  · obtain ⟨rfl, second⟩ := List.cons.inj spelled
    cases w with
    | nil => simp at length
    | cons d w =>
      obtain ⟨rfl, rfl⟩ := List.cons.inj second
      have whole := List.takeWhile_append_dropWhile (p := (· ≠ '\n')) (l := w ++ rest)
      obtain ⟨taken, -⟩ := List.append_inj whole (by simpa using length.symm)
      have oneLine : '\n' ∉ w := fun member => by
        rw [← taken] at member
        have before := List.all_eq_true.mp (List.all_takeWhile (p := (· ≠ '\n'))) _ member
        simp at before
      obtain ⟨later, breaks⟩ := ended (Option.some.inj (congrArg Prod.fst munched)).symm
      have comment : Gap ('/' :: '/' :: w ++ '\n' :: []) := .line oneLine .nil
      have isBreak : Gap ['\n'] := .space rfl .nil
      have both := comment.scan_append skipped later
      have second := isBreak.scan_append (skipped ++ '/' :: '/' :: w) later
      rw [List.append_assoc] at both second
      rw [breaks]
      simpa using both.trans second.symm
  · obtain ⟨rfl, second⟩ := List.cons.inj spelled
    cases w with
    | nil => simp at length
    | cons d w =>
      obtain ⟨rfl, rfl⟩ := List.cons.inj second
      obtain ⟨m, rfl, bound, taken⟩ := commentLength?_take closed
      rw [Nat.zero_add, List.length_cons, Nat.add_right_cancel_iff] at length
      have text : List.take w.length (w.append rest) = w := List.take_left
      rw [← length, text, Nat.zero_add] at taken
      have comment : Gap ('/' :: '*' :: w ++ []) := .block taken .nil
      rw [List.append_nil] at comment
      exact ofGap comment

/-- Whether the text ends in a comment that goes on up to the end of its line. -/
def endsInLineComment (source : List Char) : Bool :=
  (pieces source).getLast?.bind Prod.fst == some .lineComment

/-- The tokens of a text are found before a sign that parts tokens, and those of what stands behind
it follow. -/
theorem scan_before (parted : parts d = true) {skipped source : List Char} {ms : List Mark}
    (scanned : scan skipped source = some ms) (ended : d = '\n' ∨ endsInLineComment source = false)
    (more : List Char) : ∃ left, skipped ++ source = Mark.spread ms ++ left ∧
      scan skipped (source ++ d :: more) = (scan left (d :: more)).map (ms ++ ·) := by
  -- A piece that is skipped joins what was skipped before it, and a token takes all of that up.
  induction source using pieces.induct generalizing skipped ms with
  | case1 =>
    rw [scan, pieces_nil, marks] at scanned
    cases scanned
    exact ⟨skipped, by simp [Mark.spread], by simp⟩
  | case2 c rest ih =>
    rw [endsInLineComment, pieces_cons] at ended
    rw [scan, pieces_cons] at scanned
    cases munched : munch c rest with
    | mk found n =>
      simp only [munched] at scanned ended ih
      cases found with
      | none => cases scanned
      | some kind =>
        have length : (rest.take n).length = n := List.length_take_of_le (le_of_munch munched)
        have piece : munch c (rest.take n ++ rest.drop n) = (some kind, (rest.take n).length) := by
          rw [List.take_append_drop, length, munched]
        have split : c :: rest ++ d :: more =
            c :: (rest.take n ++ (rest.drop n ++ d :: more)) := by
          rw [← List.append_assoc, List.take_append_drop, List.cons_append]
        have later : d = '\n' ∨ endsInLineComment (rest.drop n) = false := by
          refine ended.imp_right fun notHere => ?_
          rw [endsInLineComment]
          cases left : pieces (rest.drop n) with
          | nil => rfl
          | cons p ps => rwa [left, List.getLast?_cons_cons] at notHere
        rw [split]
        rw [marks] at scanned
        split at scanned
        next trivia =>
          have feed (comment : kind = .lineComment) :
              ∃ later, rest.drop n ++ d :: more = '\n' :: later := by
            subst comment
            rcases lineComment_stops piece with none | ⟨behind, breaks⟩
            · -- The comment is the last piece, so a line break stands behind the text.
              obtain rfl : d = '\n' := ended.resolve_right (by simp [none])
              exact ⟨more, by rw [none]; rfl⟩
            · exact ⟨behind ++ d :: more, by rw [breaks]; rfl⟩
          rw [scan_trivia piece trivia feed]
          obtain ⟨left, spread, scannedMore⟩ := ih scanned later
          refine ⟨left, ?_, scannedMore⟩
          rw [← spread]
          simp
        next significant =>
          obtain ⟨others, scannedRest, rfl⟩ := Option.map_eq_some_iff.mp scanned
          obtain ⟨left, spread, scannedMore⟩ := ih scannedRest later
          have isToken : kind.isTrivia = false := by simpa using significant
          refine ⟨left, ?_, ?_⟩
          · rw [Mark.spread_cons, List.append_assoc, List.append_assoc, ← spread]
            simp
          · rw [scan_cons_of_munch (munch_before parted piece isToken more) isToken, scannedMore]
            simp [Function.comp_def]

/-- A sign that is a token by itself is one wherever it stands. -/
theorem scan_sign (found : Kind.ofCharacter? d = some kind) (significant : kind.isTrivia = false)
    (skipped more : List Char) : scan skipped (d :: more) =
      (scan [] more).map (⟨kind, String.singleton d, String.ofList skipped⟩ :: ·) := by
  have munched : munch d ([] ++ more) = (some kind, ([] : List Char).length) :=
    munch_of_ofCharacter? found more
  have scanned : scan skipped (d :: ([] ++ more)) = _ := scan_cons_of_munch munched significant
  rwa [List.nil_append, ← String.singleton_eq_ofList] at scanned

/-! ### Stretches -/

/-- A text is taken apart into the same tokens before every sign that parts tokens; what is left
over behind them is skipped before that sign. -/
structure Stretch (text : List Char) (ms : List Mark) (left : List Char) : Prop where
  whole : text = Mark.spread ms ++ left
  before : ∀ d more, parts d = true →
    scan [] (text ++ d :: more) = (scan left (d :: more)).map (ms ++ ·)

namespace Stretch

variable {a b l r : List Char} {ms ns : List Mark}

theorem of_scan (scanned : scan [] a = some ms) (ended : endsInLineComment a = false) :
    ∃ left, Stretch a ms left := by
  obtain ⟨left, whole, -⟩ := scan_before (d := ' ') rfl scanned (.inr ended) []
  refine ⟨left, whole, fun d more parted => ?_⟩
  -- What is left over does not depend on the sign, since it is what the tokens leave of the text.
  obtain ⟨left', whole', before⟩ := scan_before parted scanned (.inr ended) more
  obtain rfl : left' = left := List.append_cancel_left (whole'.symm.trans whole)
  exact before

/-- Tokens that make up a text are a stretch of it, with nothing left over. -/
theorem of_spread (strung : Strung [] a ms) (whole : a = Mark.spread ms) : Stretch a ms [] := by
  refine ⟨by rw [whole, List.append_nil], fun d more parted => ?_⟩
  generalize nothing : ([] : List Char) = skipped at strung
  induction strung with
  | stop => simp [whole, Mark.spread]
  | @next _ gap w rest c kind ms gap_ munched significant later ih =>
    subst nothing
    have whole : rest = Mark.spread ms := by simpa [Mark.spread] using whole
    have found : munch c (w ++ (rest ++ d :: more)) = (some kind, w.length) :=
      munch_before parted munched significant more
    rw [List.append_assoc, List.cons_append, List.append_assoc, gap_.scan_append,
      scan_cons_of_munch found significant, ih whole rfl]
    simp [Function.comp_def]

/-- Two stretches with a blank between them. -/
theorem blank (first : Stretch a ms l) (second : Stretch b ns r) (nonempty : ns ≠ []) :
    Stretch (a ++ ' ' :: b) (ms ++ Mark.behind (l ++ [' ']) ns) r := by
  constructor
  · rw [Mark.spread_append, Mark.spread_behind nonempty, first.whole, second.whole]
    simp
  · intro d more parted
    have isBlank : Gap [' '] := .space rfl .nil
    have skipped : scan l (' ' :: (b ++ d :: more)) = scan (l ++ [' ']) (b ++ d :: more) :=
      isBlank.scan_append l _
    rw [List.append_assoc, List.cons_append, first.before ' ' _ rfl, skipped, scan_behind,
      second.before d more parted]
    simp [Function.comp_def, Mark.behind_append nonempty]

/-- A stretch before a sign that is a token by itself. -/
theorem sign {d : Char} {kind : Kind} (stretch : Stretch a ms l) (parted : parts d = true)
    (found : Kind.ofCharacter? d = some kind) (significant : kind.isTrivia = false)
    (more : List Char) : scan [] (a ++ d :: more) = (scan [] more).map fun ns =>
      ms ++ ⟨kind, String.singleton d, String.ofList l⟩ :: ns := by
  rw [stretch.before d more parted, scan_sign found significant]
  simp [Function.comp_def]

/-- A stretch before an opening bracket. -/
theorem paren (stretch : Stretch a ms l) (more : List Char) :
    scan [] (a ++ '(' :: more) =
      (scan [] more).map fun ns => ms ++ ⟨.leftParen, "(", String.ofList l⟩ :: ns :=
  stretch.sign rfl rfl rfl more

end Stretch

/-! ### Sealed texts -/

/-- A text is taken apart into the same tokens whatever follows it, and they make it up. -/
structure Sealed (text : List Char) (ms : List Mark) : Prop where
  whole : text = Mark.spread ms
  before : ∀ more, scan [] (text ++ more) = (scan [] more).map (ms ++ ·)

namespace Sealed

variable {a b : List Char} {ms ns : List Mark}

theorem append (first : Sealed a ms) (second : Sealed b ns) : Sealed (a ++ b) (ms ++ ns) := by
  refine ⟨by rw [Mark.spread_append, first.whole, second.whole], fun more => ?_⟩
  rw [List.append_assoc, first.before, second.before]
  simp [Function.comp_def]

theorem sign (found : Kind.ofCharacter? d = some kind) (significant : kind.isTrivia = false) :
    Sealed [d] [⟨kind, String.singleton d, ""⟩] :=
  ⟨by simp [Mark.spread], scan_sign found significant []⟩

/-- A blank before a sealed text is skipped before its first token. -/
theorem blank (second : Sealed b ns) (nonempty : ns ≠ []) :
    Sealed (' ' :: b) (Mark.behind [' '] ns) := by
  refine ⟨by rw [Mark.spread_behind nonempty, second.whole]; rfl, fun more => ?_⟩
  have isBlank : Gap [' '] := .space rfl .nil
  have skipped : scan [] (' ' :: (b ++ more)) = scan [' '] (b ++ more) := isBlank.scan_append [] _
  rw [List.cons_append, skipped, scan_behind, second.before]
  simp [Function.comp_def, Mark.behind_append nonempty]

end Sealed

/-- A sign that parts tokens and is one itself seals the stretch before it. -/
theorem Stretch.sealed {a : List Char} {ms : List Mark} (stretch : Stretch a ms [])
    (parted : parts d = true) (found : Kind.ofCharacter? d = some kind)
    (significant : kind.isTrivia = false) :
    Sealed (a ++ [d]) (ms ++ [⟨kind, String.singleton d, ""⟩]) := by
  refine ⟨?_, fun more => ?_⟩
  · rw [Mark.spread_append, stretch.whole]
    simp [Mark.spread]
  · rw [List.append_assoc, List.singleton_append, stretch.sign parted found significant]
    simp

end Munch

end TestDouble
