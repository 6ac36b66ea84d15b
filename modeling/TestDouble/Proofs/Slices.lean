import TestDouble.Proofs.Following

/-!
# Slices of a source

A run of tokens that is cut out of a source and put before other text is taken apart into the same
tokens, wherever nothing follows that could continue the last one, and whatever is skipped between
two of them.
-/

namespace TestDouble

namespace Munch

/-- Text that is skipped before a token: blanks, byte order marks and comments, where a comment up
to the end of its line has that end with it. -/
inductive Gap : List Char → Prop where
  | nil : Gap []
  | space {c : Char} {text : List Char} : isSpace c = true → Gap text → Gap (c :: text)
  | mark {text : List Char} : Gap text → Gap ('\uFEFF' :: text)
  | line {comment text : List Char} : '\n' ∉ comment → Gap text →
      Gap ('/' :: '/' :: comment ++ '\n' :: text)
  | block {comment text : List Char} : commentLength? comment 0 = some comment.length →
      Gap text → Gap ('/' :: '*' :: comment ++ text)

theorem commentLength?_cons (c : Char) (text : List Char) (n : Nat) :
    commentLength? (c :: text) n =
      if c = '*' ∧ text.head? = some '/' then some (n + 2) else commentLength? text (n + 1) := by
  split
  next ended =>
    obtain ⟨rfl, slash⟩ := ended
    cases text with
    | nil => cases slash
    | cons d text =>
      obtain rfl := Option.some.inj slash
      rfl
  next goesOn =>
    rw [commentLength?]
    rintro rest rfl rfl
    exact goesOn ⟨rfl, rfl⟩

theorem commentLength?_append {comment : List Char} {n k : Nat}
    (ended : commentLength? comment n = some k) (rest : List Char) :
    commentLength? (comment ++ rest) n = some k := by
  induction comment generalizing n with
  | nil => simp [commentLength?] at ended
  | cons c comment ih =>
    rw [List.cons_append, commentLength?_cons]
    rw [commentLength?_cons] at ended
    cases comment with
    | nil => simp [commentLength?] at ended
    | cons d comment =>
      rw [List.cons_append, List.head?_cons]
      rw [List.head?_cons] at ended
      by_cases closes : c = '*' ∧ some d = some '/'
      · rwa [if_pos closes] at ended ⊢
      · rw [if_neg closes] at ended ⊢
        exact ih ended

namespace Gap

theorem spaces {blanks text : List Char} (later : Gap text) (space : ∀ d ∈ blanks, isSpace d = true) :
    Gap (blanks ++ text) := by
  induction blanks with
  | nil => exact later
  | cons d blanks ih =>
    obtain ⟨here, others⟩ := List.forall_mem_cons.mp space
    exact .space here (ih others)

/-- What is skipped is put behind what was skipped before. -/
theorem scan_append {text : List Char} (gap : Gap text) (skipped rest : List Char) :
    scan skipped (text ++ rest) = scan (skipped ++ text) rest := by
  -- Every part of a gap is a piece that is skipped, of whatever kind.
  induction gap generalizing skipped with
  | nil => simp
  | @space c text isSpace _ ih =>
    have spaces : ∀ d ∈ [c], Munch.isSpace d = true := by simpa using isSpace
    have here := scan_append_of_isSpace spaces skipped (text ++ rest)
    rw [List.cons_append, ← List.singleton_append, here, ih, List.append_assoc]
    rfl
  | @mark text _ ih =>
    rw [List.cons_append, scan, pieces_cons, munch_of_ofCharacter? rfl]
    simp only [marks, Kind.isTrivia, if_true, List.take_zero, List.drop_zero]
    change scan _ _ = _
    rw [ih, List.append_assoc]
    rfl
  | @line comment text oneLine _ ih =>
    have before : ∀ d ∈ comment, decide (d ≠ '\n') = true := fun d member => by
      simpa using fun feed : d = '\n' => oneLine (feed ▸ member)
    have taken : (comment ++ '\n' :: (text ++ rest)).takeWhile (· ≠ '\n') = comment := by
      rw [List.takeWhile_append_of_pos before]
      simp
    have munched : munch '/' ('/' :: (comment ++ '\n' :: (text ++ rest))) =
        (some .lineComment, comment.length + 1) := by
      simp only [munch, slash, taken]
    have isFeed : ∀ d ∈ ['\n'], isSpace d = true := List.forall_mem_singleton.mpr rfl
    have feed := scan_append_of_isSpace isFeed
      (skipped ++ '/' :: '/' :: comment) (text ++ rest)
    rw [List.append_assoc, List.cons_append, List.cons_append, List.cons_append, scan, pieces_cons,
      munched]
    simp only [marks, Kind.isTrivia, if_true, List.take_succ_cons, List.take_left,
      List.drop_succ_cons, List.drop_left]
    change scan _ (['\n'] ++ (text ++ rest)) = _
    rw [feed, ih]
    simp
  | @block comment text ended _ ih =>
    have munched : munch '/' ('*' :: (comment ++ (text ++ rest))) =
        (some .blockComment, comment.length + 1) := by
      simp only [munch, slash, commentLength?_append ended (text ++ rest)]
    rw [List.append_assoc, List.cons_append, List.cons_append, scan, pieces_cons, munched]
    simp only [marks, Kind.isTrivia, if_true, List.take_succ_cons, List.take_left,
      List.drop_succ_cons, List.drop_left]
    change scan _ (text ++ rest) = _
    rw [ih]
    simp

end Gap

theorem commentLength?_take {text : List Char} {n k : Nat}
    (ended : commentLength? text n = some k) :
    ∃ m, k = n + m ∧ m ≤ text.length ∧ commentLength? (text.take m) n = some (n + m) := by
  induction text generalizing n with
  | nil => simp [commentLength?] at ended
  | cons c text ih =>
    rw [commentLength?_cons] at ended
    by_cases closes : c = '*' ∧ text.head? = some '/'
    · rw [if_pos closes] at ended
      obtain ⟨rfl, slash⟩ := closes
      cases text with
      | nil => cases slash
      | cons d text =>
        obtain rfl := Option.some.inj slash
        obtain rfl := Option.some.inj ended
        exact ⟨2, rfl, by simp, by simp [commentLength?]⟩
    · rw [if_neg closes] at ended
      obtain ⟨m, rfl, bound, taken⟩ := ih ended
      refine ⟨m + 1, by omega, by simpa using bound, ?_⟩
      rw [List.take_succ_cons, commentLength?_cons, if_neg]
      · rw [taken]
        congr 1
        omega
      · rintro ⟨rfl, slash⟩
        refine closes ⟨rfl, ?_⟩
        cases text with
        | nil => simp at slash
        | cons d text =>
          cases m with
          | zero => simp at slash
          | succ m => simpa using slash

/-- What can be skipped: blanks, a byte order mark, or a comment of either form. -/
theorem munch_eq_trivia {c : Char} {rest : List Char} {kind : Kind} {n : Nat}
    (munched : munch c rest = (some kind, n)) (trivia : kind.isTrivia = true) :
    (isSpace c = true ∧ n = (rest.takeWhile isSpace).length) ∨ (c = '\uFEFF' ∧ n = 0) ∨
    (∃ comment, c :: rest = '/' :: '/' :: comment ∧
      n = (comment.takeWhile (· ≠ '\n')).length + 1) ∨
    (∃ comment k, c :: rest = '/' :: '*' :: comment ∧ commentLength? comment 0 = some k ∧
      n = k + 1) := by
  cases munchedAs_of_munch munched with
  | quote _ quoted => rcases quote_kind quoted with rfl | rfl <;> cases trivia
  | lineComment same opened length =>
    subst same opened
    exact .inr (.inr (.inl ⟨_, rfl, length⟩))
  | blockComment same opened ended length =>
    subst same opened
    exact .inr (.inr (.inr ⟨_, _, rfl, ended, length⟩))
  | sign found short =>
    unfold Kind.ofCharacter? at found
    split at found
    case h_24 => exact .inr (.inl ⟨rfl, short⟩)
    case h_25 => cases found
    all_goals
      cases found
      cases trivia
  | spaces space length => exact .inl ⟨space, length⟩
  | character | slash | ellipsis | dot | number => cases trivia
  | word =>
    rw [wordKind_significant] at trivia
    cases trivia

/-- A piece that is skipped belongs to the gap before the next token. -/
theorem Gap.cons_piece {c d : Char} {rest gap more : List Char} {kind : Kind} {n : Nat}
    (munched : munch c rest = (some kind, n)) (trivia : kind.isTrivia = true) (later : Gap gap)
    (left : rest.drop n = gap ++ d :: more) (token : d ≠ '\n') : Gap (c :: rest.take n ++ gap) := by
  rcases munch_eq_trivia munched trivia with ⟨space, rfl⟩ | ⟨rfl, rfl⟩ | ⟨comment, spelled, rfl⟩ |
    ⟨comment, k, spelled, ended, rfl⟩
  · rw [taken_length_takeWhile]
    exact .space space (later.spaces fun d member =>
      List.all_eq_true.mp (List.all_takeWhile (p := isSpace)) d member)
  · exact .mark later
  · obtain ⟨rfl, rfl⟩ := List.cons.inj spelled
    rw [List.drop_succ_cons, dropped_length_takeWhile] at left
    rw [List.take_succ_cons, taken_length_takeWhile]
    have oneLine : '\n' ∉ comment.takeWhile (· ≠ '\n') := fun member => by
      have before := List.all_eq_true.mp (List.all_takeWhile (p := (· ≠ '\n'))) _ member
      simp at before
    -- The comment ends at a line feed, and no token starts with that.
    have feed : ∀ e, (gap ++ d :: more).head? = some e → e = '\n' := fun e first => by
      rw [← left] at first
      simpa using head_dropWhile comment first
    cases later with
    | nil => exact absurd (feed d rfl) token
    | space _ behind =>
      obtain rfl := feed _ rfl
      exact .line oneLine behind
    | mark _ => exact absurd (feed _ rfl) (by decide)
    | line _ _ => exact absurd (feed _ rfl) (by decide)
    | block _ _ => exact absurd (feed _ rfl) (by decide)
  · obtain ⟨rfl, rfl⟩ := List.cons.inj spelled
    obtain ⟨m, rfl, bound, taken⟩ := commentLength?_take ended
    rw [Nat.zero_add] at taken ⊢
    rw [List.take_succ_cons]
    refine .block ?_ later
    rw [taken, List.length_take_of_le bound]

theorem numberLength_le (rest : List Char) : numberLength rest ≤ rest.length := by
  have whole := congrArg List.length (List.takeWhile_append_dropWhile (p := isNumeral) (l := rest))
  rw [List.length_append] at whole
  unfold numberLength
  dsimp only
  rw [dropped_length_takeWhile]
  split
  next fraction left =>
    have bound := (List.takeWhile_prefix (l := fraction) isNumeral).length_le
    rw [left, List.length_cons] at whole
    omega
  next => omega

/-- A token does not reach beyond the text. -/
theorem le_of_munch {c : Char} {rest : List Char} {kind : Kind} {n : Nat}
    (munched : munch c rest = (some kind, n)) : n ≤ rest.length := by
  cases trivia : kind.isTrivia with
  | true =>
    rcases munch_eq_trivia munched trivia with ⟨_, rfl⟩ | ⟨_, rfl⟩ | ⟨comment, spelled, rfl⟩ |
      ⟨comment, k, spelled, ended, rfl⟩
    · exact (List.takeWhile_prefix isSpace).length_le
    · exact Nat.zero_le _
    · obtain ⟨_, rfl⟩ := List.cons.inj spelled
      simpa using (List.takeWhile_prefix (l := comment) (· ≠ '\n')).length_le
    · obtain ⟨_, rfl⟩ := List.cons.inj spelled
      obtain ⟨m, rfl, bound, _⟩ := commentLength?_take ended
      simpa using bound
  | false =>
    cases munchedAs_of_munch munched with
    | quote _ quoted =>
      rcases quote_eq_some quoted with ⟨_, _, _, rfl, rfl, _⟩ | ⟨_, _, _, rfl, rfl, _⟩ <;> simp
    | character _ _ parted length => simp [parted, length]
    | ellipsis _ dotted length => simp [dotted, length]
    | slash _ _ _ short | dot _ _ short | sign _ short => exact short ▸ Nat.zero_le _
    | lineComment | blockComment | spaces => cases trivia
    | number _ _ length => exact length ▸ numberLength_le rest
    | word _ length => exact length ▸ (List.takeWhile_prefix continuesWord).length_le

/-- The tokens of a text that follows the skipped one, each with what is needed to find it again
elsewhere. -/
inductive Strung : List Char → List Char → List Mark → Prop where
  | stop {skipped text : List Char} : Strung skipped text []
  | next {skipped gap w rest : List Char} {c : Char} {kind : Kind} {ms : List Mark} : Gap gap →
      munch c (w ++ rest) = (some kind, w.length) → kind.isTrivia = false → Strung [] rest ms →
      Strung skipped (gap ++ c :: (w ++ rest))
        (⟨kind, String.ofList (c :: w), String.ofList (skipped ++ gap)⟩ :: ms)

theorem strung_of_scan {skipped source : List Char} {ms : List Mark}
    (scanned : scan skipped source = some ms) : Strung skipped source ms := by
  induction source using pieces.induct generalizing skipped ms with
  | case1 =>
    rw [scan, pieces_nil, marks] at scanned
    cases scanned
    exact .stop
  | case2 c rest ih =>
    rw [scan, pieces_cons] at scanned
    cases munched : munch c rest with
    | mk found n =>
      simp only [munched] at scanned ih
      cases found with
      | none => cases scanned
      | some kind =>
        rw [marks] at scanned
        split at scanned
        -- What is skipped here joins the gap before the next token, if there is one.
        next trivia =>
          generalize left : rest.drop n = behind at scanned ih
          have later := ih scanned
          have whole : c :: rest = (c :: rest.take n) ++ behind := by
            rw [← left, List.cons_append, List.take_append_drop]
          rw [whole]
          cases later with
          | stop => exact .stop
          | @next _ gap w rest' d kind' ms gap_ munchedNext significant others =>
            have token : d ≠ '\n' := by
              rintro rfl
              rw [munch_of_isSpace rfl] at munchedNext
              rw [← Option.some.inj (congrArg Prod.fst munchedNext)] at significant
              cases significant
            have extended := gap_.cons_piece munched trivia left token
            rw [← List.append_assoc, List.append_assoc skipped]
            exact .next extended munchedNext significant others
        next significant =>
          obtain ⟨others, scannedRest, rfl⟩ := Option.map_eq_some_iff.mp scanned
          have later := ih scannedRest
          have taken : (rest.take n).length = n := List.length_take_of_le (le_of_munch munched)
          have token : munch c (rest.take n ++ rest.drop n) = (some kind, (rest.take n).length) := by
            rw [List.take_append_drop, taken, munched]
          have here : Strung skipped _ _ := .next .nil token (by simpa using significant) later
          rwa [List.take_append_drop, List.nil_append, List.append_nil] at here

namespace Strung

variable {skipped text : List Char} {before ms after : List Mark}

theorem take (strung : Strung skipped text (ms ++ after)) : Strung skipped text ms := by
  induction ms generalizing skipped text with
  | nil => exact .stop
  | cons m ms ih =>
    cases strung with
    | next gap munched significant later => exact .next gap munched significant (ih later)

theorem drop (strung : Strung [] text (before ++ ms)) : ∃ text', Strung [] text' ms := by
  induction before generalizing text with
  | nil => exact ⟨text, strung⟩
  | cons m before ih =>
    cases strung with
    | next _ _ _ later => exact ih later

end Strung

end Munch

namespace Mark

/-- The source text of tokens with what is skipped before each of them. -/
def spread (ms : List Mark) : List Char :=
  ms.flatMap fun m => m.leading.toList ++ m.text.toList

theorem spread_cons (m : Mark) (ms : List Mark) :
    spread (m :: ms) = m.leading.toList ++ (m.text.toList ++ spread ms) := by
  rw [spread, List.flatMap_cons, List.append_assoc]
  rfl

theorem toList_quote (m : Mark) (ms : List Mark) :
    (quote (m :: ms)).toList = m.text.toList ++ spread ms := by
  induction ms generalizing m with
  | nil => simp [quote, spread]
  | cons next ms ih =>
    rw [quote_cons_cons, String.toList_append, String.toList_append, ih]
    simp [spread]

/-- A token is put elsewhere, perhaps behind other text that is skipped; the first sign of that text
is the old one, unless it parts tokens. -/
structure Relaid (m n : Mark) : Prop where
  kind : n.kind = m.kind
  text : n.text = m.text
  gap : Munch.Gap n.leading.toList
  head : ∀ d, n.leading.toList.head? = some d →
    Munch.parts d = true ∨ m.leading.toList.head? = some d
  apart : n.leading.toList = [] → m.leading.toList = []

/-- A token is found where it was put. Its kind is the same unless it is a reserved word that was
taken for an identifier. -/
structure FoundAs (n found : Mark) : Prop where
  text : found.text = n.text
  leading : found.leading = n.leading
  kind : (n.kind = .identifier → Kind.ofWord n.text = .identifier) → found.kind = n.kind

section

variable {ns found : List Mark} (foundAs : List.Forall₂ FoundAs ns found)

include foundAs

theorem spread_eq : spread found = spread ns := by
  induction foundAs with
  | nil => rfl
  | cons here _ ih =>
    unfold spread at ih ⊢
    rw [List.flatMap_cons, List.flatMap_cons, here.text, here.leading, ih]

theorem lexemes_eq (free : ∀ n ∈ ns, n.kind = .identifier → Kind.ofWord n.text = .identifier) :
    found.map lexeme = ns.map lexeme := by
  induction foundAs with
  | nil => rfl
  | cons here _ ih =>
    obtain ⟨freeHere, freeLater⟩ := List.forall_mem_cons.mp free
    rw [List.map_cons, List.map_cons, ih freeLater, lexeme, lexeme, here.text, here.kind freeHere]

end

end Mark

namespace Munch

theorem scan_cons_of_munch {skipped w rest : List Char} {c : Char} {kind : Kind}
    (munched : munch c (w ++ rest) = (some kind, w.length)) (significant : kind.isTrivia = false) :
    scan skipped (c :: (w ++ rest)) =
      (scan [] rest).map (⟨kind, String.ofList (c :: w), String.ofList skipped⟩ :: ·) := by
  rw [scan, pieces_cons, munched]
  simp only [marks, significant, List.take_left, List.drop_left, Bool.false_eq_true, if_false]
  rfl

private theorem Gap.head_ne_dot {gap : List Char} (gap_ : Gap gap) : gap.head? ≠ some '.' := by
  cases gap_ with
  | nil => exact nofun
  | space isSpace _ =>
    intro dot
    obtain rfl := Option.some.inj dot
    cases isSpace
  | mark _ | line _ _ | block _ _ => exact fun dot => absurd (Option.some.inj dot) (by decide)

/-- A token before which other text is skipped follows what stands before it as well as it did. -/
theorem Follows.cons_gap {gap gap' w rest rest' : List Char} {c : Char} (follows : Follows rest rest')
    (isGap : Gap gap') (head : ∀ d, gap'.head? = some d → parts d = true ∨ gap.head? = some d)
    (apart : gap' = [] → gap = []) : Follows (gap ++ c :: (w ++ rest)) (gap' ++ c :: (w ++ rest')) := by
  cases gap' with
  | cons e more =>
    refine ⟨fun d starts => ?_, ?_⟩
    · rcases head d starts with isParted | same
      · exact .inl isParted
      · exact .inr (by rw [List.head?_append, same, Option.some_or])
    · rintro ⟨behind, dotted⟩
      obtain ⟨rfl, -⟩ := List.cons.inj dotted
      exact absurd rfl isGap.head_ne_dot
  | nil =>
    rw [apart rfl]
    refine ⟨fun d starts => .inr starts, ?_⟩
    rintro ⟨behind, dotted⟩
    obtain ⟨same, dotted⟩ := List.cons.inj dotted
    rw [← same]
    cases w with
    | cons d w =>
      obtain ⟨rfl, -⟩ := List.cons.inj dotted
      exact ⟨w ++ rest, rfl⟩
    | nil =>
      -- The second dot stands behind the token, where the text may have changed.
      have second : rest'.head? = some '.' := by
        rw [← List.nil_append rest', ← dotted]
        rfl
      rcases follows.head '.' second with isParted | kept
      · exact absurd isParted (by decide)
      · cases rest with
        | nil => cases kept
        | cons d more =>
          obtain rfl := Option.some.inj kept
          exact ⟨more, rfl⟩

/-- Tokens that are put elsewhere follow what stands before them as well as the old ones did, and
they are found there. -/
theorem Strung.scan_spread {text : List Char} {ms ns : List Mark} (strung : Strung [] text ms)
    (relaid : List.Forall₂ Mark.Relaid ms ns) {rest' : List Char}
    (parted : ∀ d, rest'.head? = some d → parts d = true) :
    Follows text (Mark.spread ns ++ rest') ∧
      ∃ found, scan [] (Mark.spread ns ++ rest') = (scan [] rest').map (found ++ ·) ∧
        List.Forall₂ Mark.FoundAs ns found := by
  generalize nothing : ([] : List Char) = skipped at strung
  -- The last token comes first: what follows a token decides where it ends.
  induction strung generalizing ns with
  | stop =>
    cases relaid
    exact ⟨.of_parts parted, [], by simp [Mark.spread], .nil⟩
  | @next skipped gap w rest c kind ms gap_ munched significant later ih =>
    subst nothing
    obtain ⟨n, ns, here, others, rfl⟩ := List.forall₂_cons_left_iff.mp relaid
    obtain ⟨follows, found, scanned, foundAs⟩ := ih others rfl
    obtain ⟨kind', munched', significant', sameKind⟩ :=
      exists_munch_append munched significant follows
    have kindEq : n.kind = kind := here.kind
    have textEq : n.text = String.ofList (c :: w) := here.text
    have head (d : Char) (starts : n.leading.toList.head? = some d) :
        parts d = true ∨ gap.head? = some d := by
      simpa using here.head d starts
    have apart (glued : n.leading.toList = []) : gap = [] := by simpa using here.apart glued
    have whole : Mark.spread (n :: ns) ++ rest' =
        n.leading.toList ++ c :: (w ++ (Mark.spread ns ++ rest')) := by
      simp [Mark.spread, textEq]
    rw [whole]
    refine ⟨follows.cons_gap here.gap head apart, ⟨kind', String.ofList (c :: w), n.leading⟩ :: found,
      ?_, .cons ?_ foundAs⟩
    · rw [here.gap.scan_append, scan_cons_of_munch munched' significant', scanned]
      simp [Function.comp_def]
    · exact ⟨textEq.symm, rfl, fun free => by
        rw [kindEq, textEq] at free
        rw [kindEq]
        exact sameKind free⟩

/-- Tokens of a text are found again where they are put, whatever was skipped before and whatever
sign parts them from the text behind. -/
theorem Strung.scan_quote {text : List Char} {m n : Mark} {ms ns : List Mark}
    (strung : Strung [] text (m :: ms)) (relaid : List.Forall₂ Mark.Relaid (m :: ms) (n :: ns))
    {rest' : List Char} (parted : ∀ d, rest'.head? = some d → parts d = true)
    (skipped : List Char) :
    ∃ first found, scan skipped ((Mark.quote (n :: ns)).toList ++ rest') =
        (scan [] rest').map (first :: found ++ ·) ∧
      Mark.quote (first :: found) = Mark.quote (n :: ns) ∧
      ((∀ k ∈ n :: ns, k.kind = .identifier → Kind.ofWord k.text = .identifier) →
        (first :: found).map Mark.lexeme = (n :: ns).map Mark.lexeme) := by
  cases strung with
  | @next _ gap w rest c kind _ _ munched significant later =>
  obtain ⟨here, others⟩ := List.forall₂_cons.mp relaid
  obtain ⟨follows, found, scanned, foundAs⟩ := later.scan_spread others parted
  obtain ⟨kind', munched', significant', sameKind⟩ := exists_munch_append munched significant follows
  have kindEq : n.kind = kind := here.kind
  have textEq : n.text = String.ofList (c :: w) := here.text
  refine ⟨⟨kind', n.text, String.ofList skipped⟩, found, ?_, ?_, ?_⟩
  · have whole : (Mark.quote (n :: ns)).toList ++ rest' = c :: (w ++ (Mark.spread ns ++ rest')) := by
      simp [Mark.toList_quote, textEq]
    rw [whole, scan_cons_of_munch munched' significant', scanned, textEq]
    simp [Function.comp_def]
  · rw [← String.toList_inj, Mark.toList_quote, Mark.toList_quote, Mark.spread_eq foundAs]
  · intro free
    obtain ⟨freeHere, freeLater⟩ := List.forall_mem_cons.mp free
    rw [kindEq, textEq] at freeHere
    rw [List.map_cons, List.map_cons, Mark.lexemes_eq foundAs freeLater]
    simp [Mark.lexeme, sameKind freeHere, kindEq]

end Munch

end TestDouble
