import TestDouble.Token.Stream

/-!
# What the lexer takes for a token

Words, the kinds whose text is fixed, and how a text that is put together from tokens is taken
apart again: each token is found where what follows it cannot be taken for a part of it.
-/

namespace TestDouble

namespace Kind

/-- The text of a token of this kind, where the kind alone decides it. -/
def spelling? : Kind → Option String
  | modifier m => some m.keyword
  | primitive p => some p.keyword
  | packageWord => some "package"
  | importWord => some "import"
  | classWord => some "class"
  | interfaceWord => some "interface"
  | enumWord => some "enum"
  | extendsWord => some "extends"
  | implementsWord => some "implements"
  | throwsWord => some "throws"
  | superWord => some "super"
  | thisWord => some "this"
  | leftParen => some "("
  | rightParen => some ")"
  | leftBracket => some "["
  | rightBracket => some "]"
  | leftBrace => some "\x7b"
  | rightBrace => some "\x7d"
  | semicolon => some ";"
  | comma => some ","
  | dot => some "."
  | atSign => some "@"
  | ellipsis => some "..."
  | less => some "<"
  | greater => some ">"
  | question => some "?"
  | ampersand => some "&"
  | star => some "*"
  | assign => some "="
  | operator | textBlock | stringLiteral | charLiteral | number | identifier | lineComment
  | blockComment | whitespace | byteOrderMark => none

theorem spelling?_of_mem_keywords :
    ∀ entry ∈ keywords, entry.2.spelling? = some entry.1 ∧ entry.2 ≠ identifier := by
  decide

/-- A word with a kind of its own is that kind's text. -/
theorem spelling?_ofWord {word : String} (reserved : ofWord word ≠ identifier) :
    (ofWord word).spelling? = some word := by
  unfold ofWord at reserved ⊢
  cases found : keywords.lookup word with
  | none => simp [found] at reserved
  | some kind =>
    obtain ⟨before, after, split, _⟩ := List.lookup_eq_some_iff.mp found
    have listed : (word, kind) ∈ keywords := by simp [split]
    exact (spelling?_of_mem_keywords _ listed).1

theorem spelling?_ofCharacter? {c : Char} {kind : Kind} {text : String}
    (found : ofCharacter? c = some kind) (fixed : kind.spelling? = some text) :
    text = String.singleton c := by
  unfold ofCharacter? at found
  split at found <;> cases found <;> first | (cases fixed; rfl) | cases fixed

end Kind

namespace Munch

open Unicode (isLetter isNumber)

/-- Whether the text is a word, reserved or not. -/
def isWord : List Char → Bool
  | [] => false
  | c :: rest => startsWord c && rest.all continuesWord

theorem continuesWord_of_startsWord {c : Char} (starts : startsWord c = true) :
    continuesWord c = true := by
  unfold continuesWord
  unfold startsWord at starts
  rw [starts, Bool.true_or]

theorem continuesWord_of_isWord {w : List Char} (word : isWord w = true) {d : Char} (member : d ∈ w) :
    continuesWord d = true := by
  cases w with
  | nil => cases word
  | cons c w =>
    rw [isWord, Bool.and_eq_true] at word
    rcases List.mem_cons.mp member with rfl | inRest
    · exact continuesWord_of_startsWord word.1
    · exact List.all_eq_true.mp word.2 d inRest

set_option maxRecDepth 8000 in
theorem ofCharacter?_of_startsWord {c : Char} (starts : startsWord c = true) :
    Kind.ofCharacter? c = none := by
  unfold Kind.ofCharacter?
  split <;> first | rfl | exact absurd starts (by decide)

/-- No word starts with a character below the letters, the dollar sign aside. -/
private theorem not_startsWord_of_lt {c : Char} (low : c.toNat < 0x41) (notDollar : c ≠ '$') :
    startsWord c = false := by
  have notLetter : isLetter c = false := by
    unfold isLetter Unicode.letters
    rw [Unicode.Intervals.contains, if_pos low]
  have notLine : c ≠ '_' := by
    rintro rfl
    exact absurd low (by decide)
  simp [startsWord, notLetter, notLine, notDollar]

theorem not_isDigit_of_startsWord {c : Char} (starts : startsWord c = true) : c.isDigit = false := by
  cases digit : c.isDigit with
  | false => rfl
  | true =>
    simp only [Char.isDigit, Bool.and_eq_true, decide_eq_true_eq] at digit
    have low : c.toNat < 0x41 := by
      have := digit.2
      simp only [UInt32.le_iff_toNat_le] at this
      exact Nat.lt_of_le_of_lt this (by decide)
    have notDollar : c ≠ '$' := by
      rintro rfl
      exact absurd digit.1 (by decide)
    simp [not_startsWord_of_lt low notDollar] at starts

theorem not_isSpace_of_startsWord {c : Char} (starts : startsWord c = true) :
    isSpace c = false := by
  simp only [isSpace, Bool.or_eq_false_iff, beq_eq_false_iff_ne, ne_eq]
  refine ⟨⟨⟨⟨?_, ?_⟩, ?_⟩, ?_⟩, ?_⟩ <;> rintro rfl <;> exact absurd starts (by decide)

/-- A word is taken as far as it goes, and what follows it decides whether it can be reserved. -/
theorem munch_of_startsWord {c : Char} (starts : startsWord c = true) (rest : List Char) :
    munch c rest =
      (some (wordKind (String.ofList (c :: rest.takeWhile continuesWord))
        (rest.dropWhile continuesWord)), (rest.takeWhile continuesWord).length) := by
  unfold munch
  split
  case h_1 => exact absurd starts (by decide)
  case h_2 => exact absurd starts (by decide)
  case h_3 => exact absurd starts (by decide)
  case h_4 => exact absurd starts (by decide)
  case h_5 =>
    simp [ofCharacter?_of_startsWord starts, not_isSpace_of_startsWord starts,
      not_isDigit_of_startsWord starts, starts]

theorem quote_kind {rest : List Char} {kind : Kind} {n : Nat}
    (quoted : quote rest = (some kind, n)) : kind = .textBlock ∨ kind = .stringLiteral := by
  unfold quote at quoted
  split at quoted
  · dsimp only at quoted
    split at quoted <;> simp_all
  · dsimp only at quoted
    split at quoted <;> simp_all

/-- What stands behind a single quote up to the one that closes it. -/
inductive CharacterTail : List Char → Prop where
  | escaped {c : Char} : isAscii c = true → c ≠ '\n' → CharacterTail ['\\', c, '\'']
  | plain {c : Char} : isAscii c = true → c ≠ '\'' → c ≠ '\\' → c ≠ '\n' → CharacterTail [c, '\'']
  | numbered {a b c d : Char} : isHexDigit a = true → isHexDigit b = true → isHexDigit c = true →
      isHexDigit d = true → CharacterTail ['\\', 'u', a, b, c, d, '\'']

theorem CharacterTail.of_character {rest : List Char} {kind : Kind} {n : Nat}
    (found : character rest = (some kind, n)) :
    kind = .charLiteral ∧ ∃ tail behind, CharacterTail tail ∧ rest = tail ++ behind ∧
      n = tail.length := by
  unfold character at found
  split at found
  next c behind =>
    split at found
    next allowed =>
      cases found
      simp only [Bool.and_eq_true, bne_iff_ne] at allowed
      exact ⟨rfl, _, behind, .escaped allowed.1 allowed.2, rfl, rfl⟩
    next => cases found
  next c behind _ =>
    split at found
    next allowed =>
      cases found
      simp only [Bool.and_eq_true, bne_iff_ne] at allowed
      obtain ⟨⟨⟨ascii, notQuote⟩, notSlash⟩, notFeed⟩ := allowed
      exact ⟨rfl, _, behind, .plain ascii notQuote notSlash notFeed, rfl, rfl⟩
    next => cases found
  next => cases found

theorem CharacterTail.apostrophe {tail : List Char} (enclosed : CharacterTail tail)
    (behind : List Char) : Munch.apostrophe (tail ++ behind) = (some .charLiteral, tail.length) := by
  cases enclosed with
  | @escaped c ascii notFeed =>
    have found (rest : List Char) : character ('\\' :: c :: '\'' :: rest) = (some .charLiteral, 3) := by
      simp [character, ascii, notFeed]
    unfold Munch.apostrophe
    split
    next opened =>
      -- The quote that ends the escaped character is no digit.
      simp only [List.cons_append, List.cons.injEq, true_and] at opened
      rw [← opened.2.1]
      exact found behind
    next => exact found behind
  | plain ascii notQuote notSlash notFeed =>
    unfold Munch.apostrophe
    split
    next opened => exact absurd (List.cons.inj opened).1 notSlash
    next => simp [character, ascii, notQuote, notSlash, notFeed]
  | numbered hexA hexB hexC hexD => simp [Munch.apostrophe, hexA, hexB, hexC, hexD]

theorem apostrophe_eq_some_iff {rest : List Char} {kind : Kind} {n : Nat} :
    apostrophe rest = (some kind, n) ↔ kind = .charLiteral ∧
      ∃ tail behind, CharacterTail tail ∧ rest = tail ++ behind ∧ n = tail.length := by
  constructor
  · intro found
    unfold apostrophe at found
    split at found
    next a b c d behind =>
      split at found
      next hex =>
        cases found
        simp only [Bool.and_eq_true] at hex
        obtain ⟨⟨⟨hexA, hexB⟩, hexC⟩, hexD⟩ := hex
        exact ⟨rfl, _, behind, .numbered hexA hexB hexC hexD, rfl, rfl⟩
      next => exact CharacterTail.of_character found
    next => exact CharacterTail.of_character found
  · rintro ⟨rfl, tail, behind, enclosed, rfl, rfl⟩
    exact enclosed.apostrophe behind

theorem taken_length_takeWhile (p : Char → Bool) (text : List Char) :
    text.take (text.takeWhile p).length = text.takeWhile p :=
  (List.prefix_iff_eq_take.mp (List.takeWhile_prefix p)).symm

theorem dropped_length_takeWhile (p : Char → Bool) (text : List Char) :
    text.drop (text.takeWhile p).length = text.dropWhile p := by
  calc text.drop (text.takeWhile p).length
      = (text.takeWhile p ++ text.dropWhile p).drop (text.takeWhile p).length := by
        rw [List.takeWhile_append_dropWhile]
    _ = text.dropWhile p := List.drop_left

/-- What a token with `n` characters behind its first is made of, one case for each form. -/
inductive MunchedAs (c : Char) (rest : List Char) (n : Nat) : Kind → Prop where
  | quote {kind : Kind} : c = '"' → Munch.quote rest = (some kind, n) → MunchedAs c rest n kind
  | character {tail behind : List Char} : c = '\'' → CharacterTail tail → rest = tail ++ behind →
      n = tail.length → MunchedAs c rest n .charLiteral
  | lineComment {comment : List Char} : c = '/' → rest = '/' :: comment →
      n = (comment.takeWhile (· ≠ '\n')).length + 1 → MunchedAs c rest n .lineComment
  | blockComment {comment : List Char} {k : Nat} : c = '/' → rest = '*' :: comment →
      commentLength? comment 0 = some k → n = k + 1 → MunchedAs c rest n .blockComment
  | slash : c = '/' → rest.head? ≠ some '/' → rest.head? ≠ some '*' → n = 0 →
      MunchedAs c rest n .operator
  | ellipsis {behind : List Char} : c = '.' → rest = ['.', '.'] ++ behind → n = 2 →
      MunchedAs c rest n .ellipsis
  | dot : c = '.' → ¬['.', '.'] <+: rest → n = 0 → MunchedAs c rest n .dot
  | sign {kind : Kind} : Kind.ofCharacter? c = some kind → n = 0 → MunchedAs c rest n kind
  | spaces : isSpace c = true → n = (rest.takeWhile isSpace).length → MunchedAs c rest n .whitespace
  | number : isSpace c = false → c.isDigit = true → n = numberLength rest →
      MunchedAs c rest n .number
  | word : startsWord c = true → n = (rest.takeWhile continuesWord).length →
      MunchedAs c rest n (wordKind (String.ofList (c :: rest.takeWhile continuesWord))
        (rest.dropWhile continuesWord))

theorem MunchedAs.of_slash {rest : List Char} {kind : Kind} {n : Nat}
    (found : Munch.slash rest = (some kind, n)) : MunchedAs '/' rest n kind := by
  unfold Munch.slash at found
  split at found
  next comment =>
    cases found
    exact .lineComment rfl rfl rfl
  next comment =>
    split at found
    next k ended =>
      cases found
      exact .blockComment rfl rfl ended rfl
    next => cases found
  next notLine notBlock =>
    cases found
    have starts {d : Char} (first : rest.head? = some d) : ∃ behind, rest = d :: behind :=
      List.head?_eq_some_iff.mp first
    refine .slash rfl (fun first => ?_) (fun first => ?_) rfl
    · obtain ⟨comment, same⟩ := starts first
      exact notLine comment same
    · obtain ⟨comment, same⟩ := starts first
      exact notBlock comment same

theorem MunchedAs.of_dots {rest : List Char} {kind : Kind} {n : Nat}
    (found : dots rest = (some kind, n)) : MunchedAs '.' rest n kind := by
  unfold dots at found
  split at found
  next =>
    cases found
    exact .ellipsis rfl rfl rfl
  next single =>
    cases found
    refine .dot rfl ?_ rfl
    rintro ⟨behind, rfl⟩
    exact single behind rfl

theorem munchedAs_of_munch {c : Char} {rest : List Char} {kind : Kind} {n : Nat}
    (munched : munch c rest = (some kind, n)) : MunchedAs c rest n kind := by
  -- The cases are those of the first character, in the order in which they are tried.
  unfold munch at munched
  split at munched
  next => exact .quote rfl munched
  next =>
    obtain ⟨rfl, tail, behind, enclosed, same, length⟩ := apostrophe_eq_some_iff.mp munched
    exact .character rfl enclosed same length
  next => exact .of_slash munched
  next => exact .of_dots munched
  next =>
    split at munched
    next found =>
      cases munched
      exact .sign found rfl
    next =>
      split at munched
      next space =>
        cases munched
        exact .spaces space rfl
      next notSpace =>
        split at munched
        next digit =>
          cases munched
          exact .number (Bool.eq_false_iff.mpr notSpace) digit rfl
        next =>
          split at munched
          next starts =>
            cases munched
            exact .word starts rfl
          next => cases munched

/-- What a token can be: a word, or a token of another kind whose text is fixed where the kind
fixes it. -/
theorem munch_eq_some {c : Char} {rest : List Char} {kind : Kind} {n : Nat}
    (munched : munch c rest = (some kind, n)) :
    (isWord (c :: rest.take n) = true ∧
      kind = wordKind (String.ofList (c :: rest.take n)) (rest.drop n)) ∨
    (kind ≠ .identifier ∧
      ∀ text, kind.spelling? = some text → text = String.ofList (c :: rest.take n)) := by
  cases munchedAs_of_munch munched with
  | word starts length =>
    subst length
    rw [taken_length_takeWhile, dropped_length_takeWhile]
    exact .inl ⟨by simp [isWord, starts, List.all_takeWhile], rfl⟩
  | quote _ quoted =>
    right
    rcases quote_kind quoted with rfl | rfl <;> simp [Kind.spelling?]
  | character | lineComment | blockComment | slash | spaces | number =>
    exact .inr (by simp [Kind.spelling?])
  | ellipsis isDot dotted length =>
    subst isDot dotted length
    exact .inr (by simp [Kind.spelling?])
  | dot isDot _ short =>
    subst isDot short
    exact .inr (by simp [Kind.spelling?])
  | sign found short =>
    subst short
    refine .inr ⟨?_, fun text fixed => ?_⟩
    · rintro rfl
      unfold Kind.ofCharacter? at found
      split at found <;> simp at found
    · rw [Kind.spelling?_ofCharacter? found fixed]
      simp

/-- The pieces of a text without their places. -/
def pieces (source : List Char) : List (Option Kind × List Char) :=
  match source with
  | [] => []
  | c :: rest =>
    ((munch c rest).1, c :: rest.take (munch c rest).2) :: pieces (rest.drop (munch c rest).2)
termination_by source.length
decreasing_by simp only [List.length_drop, List.length_cons]; omega

@[simp] theorem pieces_nil : pieces [] = [] := by rw [pieces]

theorem pieces_cons (c : Char) (rest : List Char) :
    pieces (c :: rest) =
      ((munch c rest).1, c :: rest.take (munch c rest).2) :: pieces (rest.drop (munch c rest).2) := by
  rw [pieces]

end Munch

/-- A token without its place: its kind, its text and the text skipped before it. -/
structure Mark where
  kind : Kind
  text : String
  leading : String
  deriving DecidableEq, Repr

/-- The kind and the text of a token. -/
structure Lexeme where
  kind : Kind
  text : String
  deriving DecidableEq, Repr

def Mark.lexeme (m : Mark) : Lexeme := ⟨m.kind, m.text⟩

def Token.mark (t : Token) : Mark := ⟨t.kind, t.text, t.leading⟩

def Token.lexeme (t : Token) : Lexeme := ⟨t.kind, t.text⟩

@[simp] theorem Token.lexeme_mark (t : Token) : t.mark.lexeme = t.lexeme := rfl

/-- A piece without its place. -/
def Piece.bare (p : Piece) : Option Kind × List Char := (p.kind, p.text.toList)

theorem Piece.map_bare_cut (location : Location) (source : List Char) (done : List Piece) :
    (cut location source done).map bare = done.reverse.map bare ++ Munch.pieces source := by
  induction location, source, done using cut.induct with
  | case1 location done => simp [cut]
  | case2 location done c rest kind n munched text ih =>
    rw [cut, Munch.pieces_cons]
    simp only [munched]
    rw [ih]
    simp [bare, text]

namespace Munch

/-- The significant tokens among pieces, behind the text skipped so far; `none` when a piece is no
token. -/
def marks : List (Option Kind × List Char) → List Char → Option (List Mark)
  | [], _ => some []
  | (none, _) :: _, _ => none
  | (some kind, text) :: rest, skipped =>
    if kind.isTrivia then marks rest (skipped ++ text)
    else (marks rest []).map (⟨kind, String.ofList text, String.ofList skipped⟩ :: ·)

/-- The significant tokens of a text that follows the skipped one. -/
def scan (skipped source : List Char) : Option (List Mark) := marks (pieces source) skipped

end Munch

theorem Token.map_mark_keep (pieces : List Piece) (skipped : List Char) (kept : List Token) :
    ((keep pieces (String.ofList skipped) kept).toOption.map (List.map mark)) =
      (Munch.marks (pieces.map Piece.bare) skipped).map (kept.reverse.map mark ++ ·) := by
  induction pieces generalizing skipped kept with
  | nil => simp [keep, Munch.marks, Except.toOption]
  | cons p rest ih =>
    obtain ⟨_ | kind, text, location⟩ := p
    · simp [keep, Munch.marks, Piece.bare, Except.toOption]
    · have joined : String.ofList skipped ++ text = String.ofList (skipped ++ text.toList) := by
        rw [String.ofList_append, String.ofList_toList]
      simp only [keep, List.map_cons, Piece.bare, Munch.marks]
      split
      · rw [joined, ih]
      · have kept := ih [] (⟨kind, text, location, String.ofList skipped⟩ :: kept)
        rw [String.ofList_nil] at kept
        rw [kept]
        simp [Token.mark, Function.comp_def]

theorem Token.map_mark_ofSource (source : String) :
    (ofSource source).toOption.map (List.map mark) = Munch.scan [] source.toList := by
  have kept := map_mark_keep (Piece.ofSource source) [] []
  rw [String.ofList_nil] at kept
  rw [ofSource, ofPieces, kept, Piece.ofSource, Piece.map_bare_cut]
  simp [Munch.scan]

/-- A text whose significant tokens are known is a source with such tokens. -/
theorem Token.ofSource_of_scan {source : String} {marks : List Mark}
    (scanned : Munch.scan [] source.toList = some marks) :
    ∃ tokens, ofSource source = .ok tokens ∧ tokens.map mark = marks := by
  have mapped := map_mark_ofSource source
  rw [scanned] at mapped
  cases lexed : ofSource source with
  | error p => simp [lexed, Except.toOption] at mapped
  | ok tokens => exact ⟨tokens, rfl, by simpa [lexed, Except.toOption] using mapped⟩

theorem Token.scan_of_ofSource {source : String} {tokens : List Token}
    (lexed : ofSource source = .ok tokens) :
    Munch.scan [] source.toList = some (tokens.map mark) := by
  rw [← map_mark_ofSource, lexed]
  rfl

/-- A token as the lexer makes one: an identifier is a word, and a kind with a fixed text has it. -/
structure Token.Genuine (t : Token) : Prop where
  word : t.kind = .identifier → Munch.isWord t.text.toList = true
  fixed : ∀ text, t.kind.spelling? = some text → t.text = text

theorem Munch.word_of_mem_pieces {source : List Char} {kind : Kind} {text : List Char}
    (member : (some kind, text) ∈ pieces source) :
    (kind = .identifier → isWord text = true) ∧
      ∀ fixed, kind.spelling? = some fixed → fixed = String.ofList text := by
  induction source using pieces.induct with
  | case1 => simp at member
  | case2 c rest ih =>
    rw [pieces_cons] at member
    rcases List.mem_cons.mp member with here | later
    · cases munched : munch c rest with
      | mk found n =>
        simp only [munched, Prod.mk.injEq] at here
        obtain ⟨rfl, rfl⟩ := here
        rcases munch_eq_some munched with ⟨word, rfl⟩ | ⟨notIdentifier, spelled⟩
        · refine ⟨fun _ => word, fun fixed spelled => ?_⟩
          unfold wordKind at spelled
          split at spelled
          · simp [Kind.spelling?] at spelled
          · have reserved : Kind.ofWord (String.ofList (c :: rest.take n)) ≠ .identifier := by
              intro same
              rw [same] at spelled
              cases spelled
            rw [Kind.spelling?_ofWord reserved] at spelled
            exact (Option.some.inj spelled).symm
        · exact ⟨fun same => absurd same notIdentifier, spelled⟩
    · exact ih later

theorem Munch.mem_of_marks {ps : List (Option Kind × List Char)} {skipped : List Char}
    {ms : List Mark} (marked : marks ps skipped = some ms) {m : Mark} (member : m ∈ ms) :
    ∃ text, (some m.kind, text) ∈ ps ∧ m.text = String.ofList text := by
  induction ps generalizing skipped ms with
  | nil =>
    cases marked
    simp at member
  | cons p rest ih =>
    obtain ⟨_ | kind, text⟩ := p
    · simp [marks] at marked
    · simp only [marks] at marked
      split at marked
      · obtain ⟨found, inRest, same⟩ := ih marked member
        exact ⟨found, List.mem_cons_of_mem _ inRest, same⟩
      · obtain ⟨others, markedRest, rfl⟩ := Option.map_eq_some_iff.mp marked
        rcases List.mem_cons.mp member with rfl | later
        · exact ⟨text, List.mem_cons_self, rfl⟩
        · obtain ⟨found, inRest, same⟩ := ih markedRest later
          exact ⟨found, List.mem_cons_of_mem _ inRest, same⟩

theorem Token.genuine_of_ofSource {source : String} {tokens : List Token}
    (lexed : ofSource source = .ok tokens) {t : Token} (member : t ∈ tokens) : t.Genuine := by
  have marked : t.mark ∈ tokens.map mark := List.mem_map_of_mem member
  obtain ⟨text, inPieces, same⟩ := Munch.mem_of_marks (scan_of_ofSource lexed) marked
  obtain ⟨word, fixed⟩ := Munch.word_of_mem_pieces inPieces
  change t.text = String.ofList text at same
  constructor
  · intro identifier
    rw [same, String.toList_ofList]
    exact word identifier
  · intro spelled ofKind
    rw [same]
    exact (fixed spelled ofKind).symm

/-! ### Reserved words that are taken for identifiers -/

namespace Munch

/-- A sign of ASCII that continues no word shares its byte with none that does. -/
private theorem startsLikeWord_of_ascii {c : Char} (ascii : c.toNat < 128)
    (ended : continuesWord c = false) (rest : List Char) : startsLikeWord (c :: rest) = false := by
  have all : ∀ n : Fin 128, continuesWord (Char.ofNat n) = false →
      startsLikeWord [Char.ofNat n] = false := by decide
  have same : Char.ofNat c.toNat = c := Char.ofNat_toNat c
  have here := all ⟨c.toNat, ascii⟩
  simp only [same] at here
  exact here ended

/-- A token that continues no word starts with a character of ASCII, unless it is the byte order
mark. -/
private theorem ascii_of_munch {c : Char} {rest : List Char} {kind : Kind} {n : Nat}
    (munched : munch c rest = (some kind, n)) (ended : continuesWord c = false)
    (notMark : c ≠ '\uFEFF') : c.toNat < 128 := by
  cases munchedAs_of_munch munched with
  | quote same | character same | lineComment same | blockComment same | slash same | ellipsis same
  | dot same =>
    subst same
    decide
  | sign found =>
    unfold Kind.ofCharacter? at found
    split at found
    case h_24 => exact absurd rfl notMark
    case h_25 => simp at found
    all_goals decide
  | spaces space =>
    simp only [isSpace, Bool.or_eq_true, beq_iff_eq, or_assoc] at space
    rcases space with rfl | rfl | rfl | rfl | rfl <;> decide
  | number _ digit =>
    simp only [Char.isDigit, Bool.and_eq_true, decide_eq_true_eq, UInt32.le_iff_toNat_le] at digit
    exact Nat.lt_of_le_of_lt digit.2 (by decide)
  | word starts => simp [continuesWord_of_startsWord starts] at ended

/-- Among pieces that are tokens, without a byte order mark, an identifier is no reserved word. -/
theorem free_of_mem_pieces {source : List Char} (noMark : '\uFEFF' ∉ source)
    (tokens : ∀ p ∈ pieces source, p.1.isSome = true) {text : List Char}
    (member : (some .identifier, text) ∈ pieces source) :
    Kind.ofWord (String.ofList text) = .identifier := by
  induction source using pieces.induct with
  | case1 => simp at member
  | case2 c rest ih =>
    rw [pieces_cons] at member tokens
    have noMarkBehind : '\uFEFF' ∉ rest.drop (munch c rest).2 :=
      fun mark => noMark (.tail c (List.mem_of_mem_drop mark))
    rcases List.mem_cons.mp member with here | later
    · simp only [Prod.mk.injEq] at here
      obtain ⟨identifier, rfl⟩ := here
      have munched : munch c rest = (some .identifier, (munch c rest).2) :=
        Prod.ext identifier.symm rfl
      rcases munch_eq_some munched with ⟨word, kind⟩ | ⟨notIdentifier, _⟩
      · have starts : startsWord c = true := by
          simp only [isWord, Bool.and_eq_true] at word
          exact word.1
        -- Behind a word the text ends or a token starts that is no part of a word, so whether the word
        -- is reserved is looked up.
        have behind : startsLikeWord (rest.drop (munch c rest).2) = false := by
          have dropped : rest.drop (munch c rest).2 = rest.dropWhile continuesWord := by
            rw [munch_of_startsWord starts, dropped_length_takeWhile]
          cases left : rest.drop (munch c rest).2 with
          | nil => rfl
          | cons d more =>
            rw [left] at noMarkBehind tokens
            rw [pieces_cons] at tokens
            have token := tokens _ (.tail _ List.mem_cons_self)
            obtain ⟨kind, isToken⟩ := Option.isSome_iff_exists.mp token
            have ended : continuesWord d = false := by
              have stopped := List.head?_dropWhile_not continuesWord rest
              rw [← dropped, left] at stopped
              simpa using stopped
            have ascii := ascii_of_munch (Prod.ext isToken rfl) ended
              fun mark => noMarkBehind (by simp [mark])
            exact startsLikeWord_of_ascii ascii ended more
        rw [wordKind, behind] at kind
        exact kind.symm
      · exact absurd rfl notIdentifier
    · exact ih noMarkBehind (fun p inRest => tokens p (.tail _ inRest)) later

theorem isSome_of_marks {ps : List (Option Kind × List Char)} {skipped : List Char}
    {ms : List Mark} (marked : marks ps skipped = some ms) : ∀ p ∈ ps, p.1.isSome = true := by
  induction ps generalizing skipped ms with
  | nil => simp
  | cons p rest ih =>
    obtain ⟨_ | kind, text⟩ := p
    · simp [marks] at marked
    · simp only [marks] at marked
      split at marked
      · exact List.forall_mem_cons.mpr ⟨rfl, ih marked⟩
      · obtain ⟨others, markedRest, rfl⟩ := Option.map_eq_some_iff.mp marked
        exact List.forall_mem_cons.mpr ⟨rfl, ih markedRest⟩

end Munch

/-- In a source without byte order marks an identifier is no reserved word. -/
theorem Token.free_of_ofSource {source : String} {tokens : List Token}
    (lexed : ofSource source = .ok tokens) (noMark : '\uFEFF' ∉ source.toList) {t : Token}
    (member : t ∈ tokens) (identifier : t.kind = .identifier) :
    Kind.ofWord t.text = .identifier := by
  have scanned := scan_of_ofSource lexed
  have marked : t.mark ∈ tokens.map mark := List.mem_map_of_mem member
  obtain ⟨text, inPieces, same⟩ := Munch.mem_of_marks scanned marked
  change (some t.kind, text) ∈ _ at inPieces
  change t.text = String.ofList text at same
  rw [identifier] at inPieces
  rw [same]
  exact Munch.free_of_mem_pieces noMark (Munch.isSome_of_marks scanned) inPieces

/-- The signs of a text in two parts. With `String.toList_ofList` for literals the signs of a source are
found by unification, which spares the kernel from decoding the source byte by byte. -/
theorem Text.toList_of_parts {first second : String} {s t : List Char} (front : first.toList = s)
    (back : second.toList = t) : (first ++ second).toList = s ++ t := by
  rw [String.toList_append, front, back]

end TestDouble
