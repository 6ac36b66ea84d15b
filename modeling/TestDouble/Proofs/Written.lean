import Mathlib.Data.List.Forall2
import TestDouble.Body
import TestDouble.Proofs.Lexing
import TestDouble.Text.Quoted

/-!
# Texts written from tokens

`Written text lexemes` says that a text is taken apart into the given lexemes wherever what follows
it cannot continue a word. Such texts are put together piece by piece, with or without a blank
between two, and lines of them give the tokens of their lexemes, whose fragment is the line itself.
-/

namespace TestDouble

/-- The lexeme of a word: reserved if the word is. -/
def Lexeme.word (w : String) : Lexeme := ⟨.ofWord w, w⟩

/-- The lexeme of a kind that fixes its text. -/
def Kind.lexeme (kind : Kind) : Lexeme := ⟨kind, kind.spelling?.getD ""⟩

/-- A lexeme on one line that is kept before a declaration is read; an identifier is no reserved
word. -/
structure Lexeme.Kept (l : Lexeme) : Prop where
  significant : l.kind.isTrivia = false
  honest : l.kind = .identifier → Kind.ofWord l.text = .identifier
  oneLine : '\n' ∉ l.text.toList

/-- The kind of a word is no kind of skipped text, nor one of a sign. -/
theorem Kind.ofWord_cases (w : String) :
    ofWord w = .identifier ∨ ∃ entry ∈ keywords, ofWord w = entry.2 := by
  unfold ofWord
  cases found : keywords.lookup w with
  | none => exact .inl rfl
  | some kind =>
    obtain ⟨before, after, split, _⟩ := List.lookup_eq_some_iff.mp found
    exact .inr ⟨(w, kind), by simp [split], rfl⟩

theorem Munch.not_mem_of_isWord {c : Char} {w : List Char} (word : isWord w = true)
    (other : continuesWord c = false) : c ∉ w := by
  intro member
  cases w with
  | nil => exact absurd member List.not_mem_nil
  | cons first more =>
    simp only [isWord, Bool.and_eq_true, List.all_eq_true] at word
    have continues : continuesWord c = true := by
      rcases List.mem_cons.mp member with rfl | later
      · simp only [startsWord, continuesWord, Bool.or_eq_true] at word ⊢
        exact .inl word.1
      · exact word.2 c later
    rw [continues] at other
    cases other

theorem Lexeme.kept_word {w : String} (isWord : Munch.isWord w.toList = true) :
    (word w).Kept := by
  refine ⟨?_, fun identifier => identifier, Munch.not_mem_of_isWord isWord (by decide)⟩
  rcases Kind.ofWord_cases w with same | ⟨entry, listed, same⟩
  · simp [word, same, Kind.isTrivia]
  · have : ∀ entry ∈ Kind.keywords, entry.2.isTrivia = false := by decide
    simpa [word, same] using this entry listed

namespace Munch

/-- Whether a word that stands before the text ends there and may be reserved. -/
def ends : List Char → Bool
  | [] => true
  | c :: rest => !continuesWord c && !startsLikeWord (c :: rest)

/-- The signs that end a word. -/
def signs : List Char :=
  [' ', '\n', '\t', '(', ')', '[', ']', '\x7b', '\x7d', ';', ',', '.', '@', '<', '>', '?', '&', '=', '"']

theorem ends_of_mem_signs {c : Char} (sign : c ∈ signs) (rest : List Char) :
    ends (c :: rest) = true := by
  have all : signs.all (fun c => ends [c]) = true := by decide
  exact List.all_eq_true.mp all c sign

/-- Pieces that are significant tokens or blanks between two of them, with the lexemes of the
tokens. -/
inductive Solid : List (Option Kind × List Char) → List Lexeme → Prop where
  | nil : Solid [] []
  | next {kind : Kind} {text : List Char} {ps : List (Option Kind × List Char)}
      {ls : List Lexeme} : Lexeme.Kept ⟨kind, String.ofList text⟩ → Solid ps ls →
      Solid ((some kind, text) :: ps) (⟨kind, String.ofList text⟩ :: ls)
  | spaced {kind : Kind} {text blank : List Char} {ps : List (Option Kind × List Char)}
      {l : Lexeme} {ls : List Lexeme} : Lexeme.Kept ⟨kind, String.ofList text⟩ → '\n' ∉ blank →
      Solid ps (l :: ls) →
      Solid ((some kind, text) :: (some .whitespace, blank) :: ps)
        (⟨kind, String.ofList text⟩ :: l :: ls)

namespace Solid

variable {ps qs : List (Option Kind × List Char)} {l : Lexeme} {ls ks : List Lexeme}

theorem append (first : Solid ps ls) (second : Solid qs ks) : Solid (ps ++ qs) (ls ++ ks) := by
  induction first with
  | nil => exact second
  | next kept _ ih => exact .next kept ih
  | spaced kept oneLine _ ih => exact .spaced kept oneLine ih

theorem append_spaced (first : Solid ps (l :: ls)) {blank : List Char} (oneLine : '\n' ∉ blank)
    {k : Lexeme} (second : Solid qs (k :: ks)) :
    Solid (ps ++ (some .whitespace, blank) :: qs) (l :: ls ++ k :: ks) := by
  generalize spelled : l :: ls = all at first ⊢
  induction first generalizing l ls with
  | nil => simp at spelled
  | @next _ _ ps others kept rest ih =>
    cases rest with
    | nil => exact .spaced kept oneLine second
    | next kept' rest => exact .next kept (ih rfl)
    | spaced kept' oneLine' rest => exact .next kept (ih rfl)
  | spaced kept oneLine' _ ih => exact .spaced kept oneLine' (ih rfl)

end Solid

/-- The text is taken apart into the lexemes, whatever follows it. -/
def Closed (text : String) (ls : List Lexeme) : Prop :=
  ∀ rest, ∃ ps, Solid ps ls ∧ pieces (text.toList ++ rest) = ps ++ pieces rest

/-- The text is taken apart into the lexemes where a word ends behind it. -/
def Written (text : String) (ls : List Lexeme) : Prop :=
  ∀ rest, ends rest = true → ∃ ps, Solid ps ls ∧ pieces (text.toList ++ rest) = ps ++ pieces rest

variable {a b : String} {la lb : List Lexeme}

theorem Closed.written (closed : Closed a la) : Written a la := fun rest _ => closed rest

theorem Written.empty : Written "" [] := fun _ _ => ⟨[], .nil, by simp⟩

theorem Closed.append (first : Closed a la) (second : Closed b lb) :
    Closed (a ++ b) (la ++ lb) := by
  intro rest
  obtain ⟨qs, solidSecond, cutSecond⟩ := second rest
  obtain ⟨ps, solidFirst, cutFirst⟩ := first (b.toList ++ rest)
  exact ⟨ps ++ qs, solidFirst.append solidSecond,
    by rw [String.toList_append, List.append_assoc, cutFirst, cutSecond, List.append_assoc]⟩

theorem Closed.append_written (first : Closed a la) (second : Written b lb) :
    Written (a ++ b) (la ++ lb) := by
  intro rest ended
  obtain ⟨qs, solidSecond, cutSecond⟩ := second rest ended
  obtain ⟨ps, solidFirst, cutFirst⟩ := first (b.toList ++ rest)
  exact ⟨ps ++ qs, solidFirst.append solidSecond,
    by rw [String.toList_append, List.append_assoc, cutFirst, cutSecond, List.append_assoc]⟩

private theorem ends_append {text rest : List Char} (ended : ends text = true)
    (endedRest : ends rest = true) : ends (text ++ rest) = true := by
  cases text with
  | nil => exact endedRest
  | cons c text => exact ended

theorem Written.append (first : Written a la) (second : Written b lb)
    (ended : ends b.toList = true) : Written (a ++ b) (la ++ lb) := by
  intro rest endedRest
  obtain ⟨qs, solidSecond, cutSecond⟩ := second rest endedRest
  obtain ⟨ps, solidFirst, cutFirst⟩ := first (b.toList ++ rest) (ends_append ended endedRest)
  exact ⟨ps ++ qs, solidFirst.append solidSecond,
    by rw [String.toList_append, List.append_assoc, cutFirst, cutSecond, List.append_assoc]⟩

theorem Written.append_closed (first : Written a la) (second : Closed b lb)
    (ended : ends b.toList = true) (nonempty : b.toList ≠ []) : Closed (a ++ b) (la ++ lb) := by
  intro rest
  obtain ⟨qs, solidSecond, cutSecond⟩ := second rest
  have endedAll : ends (b.toList ++ rest) = true := by
    cases text : b.toList with
    | nil => exact absurd text nonempty
    | cons c others => rwa [text] at ended
  obtain ⟨ps, solidFirst, cutFirst⟩ := first (b.toList ++ rest) endedAll
  exact ⟨ps ++ qs, solidFirst.append solidSecond,
    by rw [String.toList_append, List.append_assoc, cutFirst, cutSecond, List.append_assoc]⟩

/-! ### Single tokens -/

/-- A word whose end shows is one piece. -/
theorem pieces_word {w : String} (isWord : isWord w.toList = true) {rest : List Char}
    (ended : ends rest = true) :
    pieces (w.toList ++ rest) = (some (Kind.ofWord w), w.toList) :: pieces rest := by
  cases chars : w.toList with
  | nil => simp [chars, Munch.isWord] at isWord
  | cons c more =>
    simp only [chars, Munch.isWord, Bool.and_eq_true, List.all_eq_true] at isWord
    obtain ⟨starts, continues⟩ := isWord
    have stop : rest.takeWhile continuesWord = [] ∧ rest.dropWhile continuesWord = rest ∧
        startsLikeWord rest = false := by
      cases rest with
      | nil => exact ⟨rfl, rfl, rfl⟩
      | cons d rest =>
        simp only [ends, Bool.and_eq_true, Bool.not_eq_true'] at ended
        exact ⟨by simp [ended.1], by simp [ended.1], ended.2⟩
    have taken : (more ++ rest).takeWhile continuesWord = more := by
      rw [List.takeWhile_append_of_pos continues, stop.1, List.append_nil]
    have left : (more ++ rest).dropWhile continuesWord = rest := by
      rw [List.dropWhile_append_of_pos continues, stop.2.1]
    have spelled : String.ofList (c :: more) = w := by rw [← chars, String.ofList_toList]
    rw [List.cons_append, pieces_cons, munch_of_startsWord starts]
    simp only [taken, left]
    simp [wordKind, stop.2.2, spelled]

theorem Written.word {w : String} (isWord : isWord w.toList = true) :
    Written w [Lexeme.word w] := by
  intro rest ended
  have kept := Lexeme.kept_word isWord
  have solid : Solid [(some (Kind.ofWord w), w.toList)]
      [⟨Kind.ofWord w, String.ofList w.toList⟩] := by
    refine .next ?_ .nil
    rwa [String.ofList_toList]
  rw [String.ofList_toList] at solid
  exact ⟨_, solid, pieces_word isWord ended⟩

theorem munch_of_ofCharacter? {c : Char} {kind : Kind} (found : Kind.ofCharacter? c = some kind)
    (rest : List Char) : munch c rest = (some kind, 0) := by
  unfold munch
  split
  case h_1 => simp [Kind.ofCharacter?] at found
  case h_2 => simp [Kind.ofCharacter?] at found
  case h_3 => simp [Kind.ofCharacter?] at found
  case h_4 => simp [Kind.ofCharacter?] at found
  case h_5 => rw [found]

/-- A sign is a token wherever it stands. -/
theorem Closed.sign {c : Char} {kind : Kind} {text : String}
    (found : Kind.ofCharacter? c = some kind) (spelled : kind.spelling? = some text)
    (significant : kind.isTrivia = false) : Closed text [kind.lexeme] := by
  intro rest
  have single := Kind.spelling?_ofCharacter? found spelled
  have lexeme : kind.lexeme = ⟨kind, String.ofList [c]⟩ := by
    rw [Kind.lexeme, spelled, single]
    simp
  have kept : Lexeme.Kept ⟨kind, String.ofList [c]⟩ := by
    refine ⟨significant, ?_, ?_⟩
    · rintro rfl
      cases spelled
    · rw [String.toList_ofList, List.mem_singleton]
      rintro rfl
      cases found
  refine ⟨[(some kind, [c])], lexeme ▸ .next kept .nil, ?_⟩
  simp [single, pieces_cons, munch_of_ofCharacter? found]

/-- A dot is one piece where no other dot follows. -/
theorem pieces_dot {c : Char} (next : c ≠ '.') (rest : List Char) :
    pieces ('.' :: c :: rest) = (some .dot, ['.']) :: pieces (c :: rest) := by
  have single : dots (c :: rest) = (some .dot, 0) := by
    unfold dots
    split
    next same => exact absurd (List.cons.inj same).1 next
    next => rfl
  rw [pieces_cons]
  simp only [munch, single, List.take_zero, List.drop_zero]

theorem Written.dot (written : Written b lb)
    (next : (b.toList.head?.any fun c => c != '.') = true) :
    Written ("." ++ b) (Kind.dot.lexeme :: lb) := by
  intro rest ended
  obtain ⟨ps, solid, cut⟩ := written rest ended
  have kept : Lexeme.Kept ⟨.dot, String.ofList ['.']⟩ := ⟨rfl, nofun, by simp⟩
  refine ⟨(some .dot, ['.']) :: ps, .next kept solid, ?_⟩
  cases chars : b.toList with
  | nil => simp [chars] at next
  | cons c more =>
    have notDot : c ≠ '.' := by simpa [chars] using next
    rw [chars, List.cons_append] at cut
    rw [String.toList_append, chars]
    change pieces ('.' :: c :: (more ++ rest)) = _
    rw [pieces_dot notDot, cut, List.cons_append]

theorem Closed.ellipsis : Closed "..." [Kind.ellipsis.lexeme] := by
  intro rest
  have kept : Lexeme.Kept ⟨.ellipsis, String.ofList ['.', '.', '.']⟩ := ⟨rfl, nofun, by simp⟩
  refine ⟨[(some .ellipsis, ['.', '.', '.'])], .next kept .nil, ?_⟩
  change pieces ('.' :: '.' :: '.' :: rest) = _
  rw [pieces_cons]
  simp [munch, dots]

theorem munch_of_isSpace {c : Char} (space : isSpace c = true) (rest : List Char) :
    munch c rest = (some .whitespace, (rest.takeWhile isSpace).length) := by
  simp only [isSpace, Bool.or_eq_true, beq_iff_eq, or_assoc] at space
  rcases space with rfl | rfl | rfl | rfl | rfl <;> rfl

/-- A text with a token in it starts with no blank. -/
theorem Written.not_isSpace (written : Written b lb) (nonempty : lb ≠ []) (rest : List Char)
    (ended : ends rest = true) : (b.toList ++ rest).takeWhile isSpace = [] := by
  obtain ⟨ps, solid, cut⟩ := written rest ended
  cases chars : b.toList ++ rest with
  | nil => rfl
  | cons c more =>
    cases space : isSpace c with
    | false => simp [space]
    | true =>
      rw [chars, pieces_cons, munch_of_isSpace space] at cut
      cases solid with
      | nil => exact absurd rfl nonempty
      | next kept _ | spaced kept _ _ =>
        simp only [List.cons_append, List.cons.injEq, Prod.mk.injEq, Option.some.injEq] at cut
        have trivia := kept.significant
        rw [← cut.1.1] at trivia
        cases trivia

/-- Two texts with a blank between them. -/
theorem Written.blank (first : Written a la) (second : Written b lb) (some₁ : la ≠ [])
    (some₂ : lb ≠ []) : Written (a ++ " " ++ b) (la ++ lb) := by
  intro rest ended
  obtain ⟨qs, solidSecond, cutSecond⟩ := second rest ended
  obtain ⟨ps, solidFirst, cutFirst⟩ :=
    first (' ' :: (b.toList ++ rest)) (ends_of_mem_signs (by decide) _)
  obtain ⟨l, ls, rfl⟩ := List.exists_cons_of_ne_nil some₁
  obtain ⟨k, ks, rfl⟩ := List.exists_cons_of_ne_nil some₂
  refine ⟨ps ++ (some .whitespace, [' ']) :: qs, solidFirst.append_spaced (by simp) solidSecond, ?_⟩
  have parted : (a ++ " " ++ b).toList ++ rest = a.toList ++ ' ' :: (b.toList ++ rest) := by
    rw [String.toList_append, String.toList_append]
    simp
  have blank : munch ' ' (b.toList ++ rest) = (some .whitespace, 0) := by
    rw [munch_of_isSpace rfl, second.not_isSpace some₂ rest ended]
    rfl
  rw [parted, cutFirst, pieces_cons, blank]
  simp [cutSecond]

/-- Two texts with a sign and a blank between them. -/
theorem Written.comma (first : Written a la) (second : Written b lb) (_ : la ≠ [])
    (some₂ : lb ≠ []) : Written (a ++ ", " ++ b) (la ++ [Kind.comma.lexeme] ++ lb) := by
  have comma : Closed "," [Kind.comma.lexeme] := Closed.sign (c := ',') rfl rfl rfl
  have listed := (first.append comma.written (ends_of_mem_signs (by decide) [])).blank second
    (by simp) some₂
  have parted : a ++ ", " ++ b = a ++ "," ++ " " ++ b := by
    rw [show ", " = "," ++ " " from rfl]
    simp only [String.append_assoc]
  rwa [parted]

theorem Written.ampersand (first : Written a la) (second : Written b lb) (some₁ : la ≠ [])
    (some₂ : lb ≠ []) : Written (a ++ " & " ++ b) (la ++ [Kind.ampersand.lexeme] ++ lb) := by
  have sign : Closed "&" [Kind.ampersand.lexeme] := Closed.sign (c := '&') rfl rfl rfl
  have listed := (first.blank sign.written some₁ (by simp)).blank second (by simp) some₂
  have parted : a ++ " & " ++ b = a ++ " " ++ "&" ++ " " ++ b := by
    rw [show " & " = " " ++ "&" ++ " " from rfl]
    simp only [String.append_assoc]
  rwa [parted]

/-- Several texts, with the same text between any two. -/
theorem Written.intercalate {α : Type} {separator : String} {ls : List Lexeme}
    (joins : ∀ {a b : String} {la lb : List Lexeme}, Written a la → Written b lb → la ≠ [] →
      lb ≠ [] → Written (a ++ separator ++ b) (la ++ ls ++ lb))
    {text : α → String} {lexemes : α → List Lexeme} {items : List α}
    (each : ∀ x ∈ items, Written (text x) (lexemes x) ∧ lexemes x ≠ []) :
    Written (separator.intercalate (items.map text)) (ls.intercalate (items.map lexemes)) ∧
      (items ≠ [] → ls.intercalate (items.map lexemes) ≠ []) := by
  induction items with
  | nil => exact ⟨by simpa using Written.empty, by simp⟩
  | cons x items ih =>
    obtain ⟨written, nonempty⟩ := each x List.mem_cons_self
    cases items with
    | nil => exact ⟨by simpa using written, by simpa using nonempty⟩
    | cons y items =>
      obtain ⟨others, some⟩ := ih fun z member => each z (.tail x member)
      simp only [List.map_cons, String.intercalate_cons_cons, List.intercalate_cons_cons] at *
      exact ⟨joins written others nonempty (some (by simp)), by simp [nonempty]⟩

/-- A character of a text becomes a backslash and another one, or stands for itself. -/
private theorem escape_cases (c : Char) :
    (∃ d, Text.Quoted.escape c = ['\\', d] ∧ d ≠ '\n') ∨
      (Text.Quoted.escape c = [c] ∧ c ≠ '"' ∧ c ≠ '\\' ∧ c ≠ '\n') := by
  unfold Text.Quoted.escape
  split
  case h_6 notQuote notSlash notFeed _ _ => exact .inr ⟨rfl, notQuote, notSlash, notFeed⟩
  all_goals exact .inl ⟨_, rfl, by decide⟩

/-- What stands between the quotes of a literal is the content of a string. -/
private theorem stringContent_escaped (text rest : List Char) (n : Nat) :
    stringContent (text.flatMap Text.Quoted.escape ++ '"' :: rest) n =
      n + (text.flatMap Text.Quoted.escape).length := by
  induction text generalizing n with
  | nil => simp [stringContent]
  | cons c text ih =>
    simp only [List.flatMap_cons, List.append_assoc, List.length_append]
    rcases escape_cases c with ⟨d, escaped, notFeed⟩ | ⟨itself, notQuote, notSlash, notFeed⟩
    · simp only [escaped, List.cons_append, List.nil_append, List.length_cons, List.length_nil]
      rw [stringContent, if_neg notFeed, ih]
      omega
    · simp only [itself, List.cons_append, List.nil_append, List.length_cons, List.length_nil]
      rw [stringContent]
      · simp only [notQuote, notFeed, decide_false, Bool.or_false, Bool.false_eq_true, if_false]
        rw [ih]
        omega
      · exact fun _ _ same => absurd same notSlash
      · exact fun same => absurd same notSlash

private theorem newline_not_mem_encode (w : String) : '\n' ∉ (Text.Quoted.encode w).toList := by
  intro member
  simp only [Text.Quoted.encode, String.toList_ofList, List.cons_append, List.mem_cons,
    List.mem_append, List.mem_flatMap, List.not_mem_nil, or_false] at member
  rcases member with quote | ⟨c, _, escaped⟩ | quote
  · exact absurd quote (by decide)
  · rcases escape_cases c with ⟨d, pair, notFeed⟩ | ⟨itself, _, _, notFeed⟩
    · rw [pair, List.mem_pair] at escaped
      rcases escaped with slash | feed
      · exact absurd slash (by decide)
      · exact notFeed feed.symm
    · rw [itself, List.mem_singleton] at escaped
      exact notFeed escaped.symm
  · exact absurd quote (by decide)

/-- The literal of a text starts with its quote. Only an empty one before another quote would be taken
for a text block. -/
theorem quote_escaped {text rest : List Char} (apart : text = [] → rest.head? ≠ some '"') :
    quote (text.flatMap Text.Quoted.escape ++ '"' :: rest) =
      (some .stringLiteral, (text.flatMap Text.Quoted.escape).length + 1) := by
  unfold quote
  split
  next others same =>
    exfalso
    cases text with
    | nil =>
      obtain ⟨-, same⟩ := List.cons.inj same
      exact apart rfl (by rw [same]; rfl)
    | cons c more =>
      simp only [List.flatMap_cons] at same
      rcases escape_cases c with ⟨d, escaped, _⟩ | ⟨itself, notQuote, _⟩
      · simp [escaped] at same
      · simp [itself, notQuote] at same
  next =>
    rw [stringContent_escaped]
    simp

theorem Closed.literal {w : String} (nonempty : w.toList ≠ []) :
    Closed (Text.Quoted.encode w) [⟨.stringLiteral, Text.Quoted.encode w⟩] := by
  intro rest
  have kept : Lexeme.Kept ⟨.stringLiteral, Text.Quoted.encode w⟩ :=
    ⟨rfl, nofun, newline_not_mem_encode w⟩
  let content := w.toList.flatMap Text.Quoted.escape
  have quoted : quote (content ++ '"' :: rest) = (some .stringLiteral, content.length + 1) :=
    quote_escaped fun empty => absurd empty nonempty
  refine ⟨[(some .stringLiteral, '"' :: content ++ ['"'])], .next kept .nil, ?_⟩
  have whole : (Text.Quoted.encode w).toList ++ rest = '"' :: (content ++ '"' :: rest) := by
    simp [Text.Quoted.encode, content]
  have taken : (content ++ '"' :: rest).take (content.length + 1) = content ++ ['"'] := by
    rw [List.take_length_add_append]
    rfl
  have left : (content ++ '"' :: rest).drop (content.length + 1) = rest := by
    rw [List.drop_length_add_append]
    rfl
  rw [whole, pieces_cons]
  simp only [munch, quoted, taken, left]
  rfl

end Munch

/-! ### Lines -/

/-- The source text of tokens, from the first of them on. -/
def Mark.quote : List Mark → String
  | [] => ""
  | m :: more => more.foldl (fun text next => text ++ next.leading ++ next.text) m.text

private theorem Mark.foldl_append (before text : String) (ms : List Mark) :
    ms.foldl (fun text next => text ++ next.leading ++ next.text) (before ++ text) =
      before ++ ms.foldl (fun text next => text ++ next.leading ++ next.text) text := by
  induction ms generalizing text with
  | nil => rfl
  | cons m ms ih =>
    have shifted : before ++ text ++ m.leading ++ m.text =
        before ++ (text ++ m.leading ++ m.text) := by simp only [String.append_assoc]
    rw [List.foldl_cons, List.foldl_cons, shifted, ih]

theorem Mark.quote_cons_cons (m next : Mark) (more : List Mark) :
    quote (m :: next :: more) = m.text ++ next.leading ++ quote (next :: more) := by
  simp only [quote, List.foldl_cons]
  rw [foldl_append]

theorem Fragment.text_ofTokens (first : Token) (more : List Token) :
    (ofTokens first more).text = Mark.quote ((first :: more).map Token.mark) := by
  simp [ofTokens, Mark.quote, List.foldl_map, Token.mark]

namespace Munch

theorem flatMap_pieces (source : List Char) : (pieces source).flatMap Prod.snd = source := by
  induction source using pieces.induct with
  | case1 => simp
  | case2 c rest ih =>
    rw [pieces_cons, List.flatMap_cons, ih]
    simp

theorem Solid.kept {ps : List (Option Kind × List Char)} {ls : List Lexeme} (solid : Solid ps ls) :
    ∀ l ∈ ls, l.Kept := by
  induction solid with
  | nil => simp
  | next kept _ ih | spaced kept _ _ ih => exact List.forall_mem_cons.mpr ⟨kept, ih⟩

theorem Solid.oneLine {ps : List (Option Kind × List Char)} {ls : List Lexeme}
    (solid : Solid ps ls) : '\n' ∉ ps.flatMap Prod.snd := by
  induction solid with
  | nil => simp
  | next kept _ ih =>
    have here := kept.oneLine
    rw [String.toList_ofList] at here
    simp [here, ih]
  | spaced kept oneLine _ ih =>
    have here := kept.oneLine
    rw [String.toList_ofList] at here
    simp [here, oneLine, ih]

/-- The tokens of solid pieces, the first of them behind what was skipped. -/
theorem Solid.marks_eq {ps : List (Option Kind × List Char)} {ls : List Lexeme}
    (solid : Solid ps ls) (nonempty : ls ≠ []) (skipped : List Char)
    (qs : List (Option Kind × List Char)) :
    ∃ m ms, (m :: ms).map Mark.lexeme = ls ∧ m.leading = String.ofList skipped ∧
      Mark.quote (m :: ms) = String.ofList (ps.flatMap Prod.snd) ∧
      marks (ps ++ qs) skipped = (marks qs []).map ((m :: ms) ++ ·) := by
  induction solid generalizing skipped with
  | nil => exact absurd rfl nonempty
  | @next kind text ps ls kept rest ih =>
    have here : marks ((some kind, text) :: ps ++ qs) skipped =
        (marks (ps ++ qs) []).map (⟨kind, String.ofList text, String.ofList skipped⟩ :: ·) := by
      simp only [List.cons_append, marks, kept.significant, Bool.false_eq_true, if_false]
    by_cases last : ls = []
    · subst last
      cases rest
      refine ⟨⟨kind, String.ofList text, String.ofList skipped⟩, [], rfl, rfl, ?_, ?_⟩
      · simp [Mark.quote]
      · rw [here]
        simp
    · obtain ⟨m, ms, spelled, leading, quoted, marked⟩ := ih last []
      refine ⟨⟨kind, String.ofList text, String.ofList skipped⟩, m :: ms, ?_, rfl, ?_, ?_⟩
      · rw [← spelled]
        rfl
      · rw [Mark.quote_cons_cons, quoted, leading]
        simp [String.ofList_append]
      · rw [here, marked]
        simp [Function.comp_def]
  | @spaced kind text blank ps l ls kept _ rest ih =>
    have trivia : Kind.isTrivia .whitespace = true := rfl
    have here : marks ((some kind, text) :: (some .whitespace, blank) :: ps ++ qs) skipped =
        (marks (ps ++ qs) blank).map (⟨kind, String.ofList text, String.ofList skipped⟩ :: ·) := by
      simp only [List.cons_append, marks, kept.significant, trivia, Bool.false_eq_true, if_false,
        if_true, List.nil_append]
    obtain ⟨m, ms, spelled, leading, quoted, marked⟩ := ih (by simp) blank
    refine ⟨⟨kind, String.ofList text, String.ofList skipped⟩, m :: ms, ?_, rfl, ?_, ?_⟩
    · rw [← spelled]
      rfl
    · rw [Mark.quote_cons_cons, quoted, leading]
      simp [String.ofList_append, String.append_assoc]
    · rw [here, marked]
      simp [Function.comp_def]

private theorem text_of_pieces {text rest : List Char} {ps : List (Option Kind × List Char)}
    (cut : pieces (text ++ rest) = ps ++ pieces rest) : ps.flatMap Prod.snd = text := by
  have joined := flatMap_pieces (text ++ rest)
  rw [cut, List.flatMap_append, flatMap_pieces] at joined
  exact List.append_cancel_right joined

/-- A text that is written from tokens stands on one line. -/
theorem Written.oneLine {text : String} {ls : List Lexeme} (written : Written text ls) :
    '\n' ∉ text.toList := by
  obtain ⟨ps, solid, cut⟩ := written [] rfl
  rw [← text_of_pieces cut]
  exact solid.oneLine

theorem Written.scan_eq {text : String} {ls : List Lexeme} (written : Written text ls)
    (nonempty : ls ≠ []) (skipped rest : List Char) (ended : ends rest = true) :
    ∃ ms, ms.map Mark.lexeme = ls ∧ Mark.quote ms = text ∧ (∀ l ∈ ls, l.Kept) ∧
      scan skipped (text.toList ++ rest) = (scan [] rest).map (ms ++ ·) := by
  obtain ⟨ps, solid, cut⟩ := written rest ended
  obtain ⟨m, ms, spelled, _, quoted, marked⟩ := solid.marks_eq nonempty skipped (pieces rest)
  have whole : ps.flatMap Prod.snd = text.toList := text_of_pieces cut
  refine ⟨m :: ms, spelled, ?_, solid.kept, ?_⟩
  · rw [quoted, whole, String.ofList_toList]
  · rw [scan, cut, marked]
    rfl

/-- The tokens of a text that is written from tokens. -/
theorem Written.ofSource {text : String} {ls : List Lexeme} (written : Written text ls)
    (nonempty : ls ≠ []) :
    ∃ tokens, Token.ofSource text = .ok tokens ∧ tokens.map Token.lexeme = ls := by
  obtain ⟨ms, spelled, _, _, scanned⟩ := written.scan_eq nonempty [] [] rfl
  have nothing : scan [] [] = some [] := by simp [scan, marks]
  rw [List.append_nil, nothing, Option.map_some, List.append_nil] at scanned
  obtain ⟨tokens, lexed, marked⟩ := Token.ofSource_of_scan scanned
  refine ⟨tokens, lexed, ?_⟩
  rw [← spelled, ← marked, List.map_map]
  rfl

/-- Blanks are skipped. -/
theorem scan_append_of_isSpace {blanks : List Char} (space : ∀ c ∈ blanks, isSpace c = true)
    (skipped rest : List Char) : scan skipped (blanks ++ rest) = scan (skipped ++ blanks) rest := by
  cases blanks with
  | nil => simp
  | cons c blanks =>
    have first := space c List.mem_cons_self
    have others : ∀ d ∈ blanks, isSpace d = true := fun d member => space d (.tail c member)
    have taken : (blanks ++ rest).takeWhile isSpace = blanks ++ rest.takeWhile isSpace :=
      List.takeWhile_append_of_pos others
    have here : scan skipped (c :: blanks ++ rest) =
        scan (skipped ++ c :: blanks ++ rest.takeWhile isSpace) (rest.dropWhile isSpace) := by
      rw [scan, List.cons_append, pieces_cons, munch_of_isSpace first, taken_length_takeWhile,
        dropped_length_takeWhile, taken, List.dropWhile_append_of_pos others]
      simp [marks, Kind.isTrivia, scan]
    rw [here]
    cases rest with
    | nil => simp
    | cons d rest =>
      cases next : isSpace d with
      | false => simp [next]
      | true =>
        have later : scan (skipped ++ c :: blanks) (d :: rest) =
            scan (skipped ++ c :: blanks ++ d :: rest.takeWhile isSpace)
              (rest.dropWhile isSpace) := by
          rw [scan, pieces_cons, munch_of_isSpace next, taken_length_takeWhile,
            dropped_length_takeWhile]
          simp [marks, Kind.isTrivia, scan]
        rw [later]
        simp [next]

end Munch

/-- A line of a text: the text between the blanks around it, and its lexemes. -/
structure Line where
  text : String
  lexemes : List Lexeme

/-- The tokens of lines. -/
inductive Lines : List Line → List Mark → Prop where
  | nil : Lines [] []
  | cons {line : Line} {lines : List Line} {ms others : List Mark} :
      ms.map Mark.lexeme = line.lexemes → Mark.quote ms = line.text →
      (∀ l ∈ line.lexemes, l.Kept) → Lines lines others → Lines (line :: lines) (ms ++ others)

theorem Lines.append {first second : List Line} {ms others : List Mark} (h₁ : Lines first ms)
    (h₂ : Lines second others) : Lines (first ++ second) (ms ++ others) := by
  induction h₁ with
  | nil => exact h₂
  | cons spelled quoted kept _ ih =>
    rw [List.append_assoc]
    exact .cons spelled quoted kept ih

theorem Lines.split {first second : List Line} {ms : List Mark} (spelled : Lines (first ++ second) ms) :
    ∃ front back, ms = front ++ back ∧ Lines first front ∧ Lines second back := by
  induction first generalizing ms with
  | nil => exact ⟨[], ms, rfl, .nil, spelled⟩
  | cons line first ih =>
    rw [List.cons_append] at spelled
    cases spelled with
    | @cons _ _ front _ lexemes quoted kept rest =>
      obtain ⟨middle, back, rfl, ofFirst, ofSecond⟩ := ih rest
      exact ⟨front ++ middle, back, (List.append_assoc ..).symm, .cons lexemes quoted kept ofFirst,
        ofSecond⟩

/-- The text consists of the lines, with blanks around each of them. -/
def Laid (text : String) (lines : List Line) : Prop :=
  ∀ skipped rest, ∃ ms skipped', Lines lines ms ∧
    Munch.scan skipped (text.toList ++ rest) = (Munch.scan skipped' rest).map (ms ++ ·)

namespace Laid

variable {a b : String} {la lb : List Line}

theorem blanks (space : ∀ c ∈ a.toList, Munch.isSpace c = true) : Laid a [] := by
  intro skipped rest
  exact ⟨[], skipped ++ a.toList, .nil, by
    rw [Munch.scan_append_of_isSpace space]
    simp⟩

theorem append (first : Laid a la) (second : Laid b lb) : Laid (a ++ b) (la ++ lb) := by
  intro skipped rest
  obtain ⟨ms, skipped₁, spelled, scanned⟩ := first skipped (b.toList ++ rest)
  obtain ⟨others, skipped₂, spelledRest, scannedRest⟩ := second skipped₁ rest
  refine ⟨ms ++ others, skipped₂, spelled.append spelledRest, ?_⟩
  rw [String.toList_append, List.append_assoc, scanned, scannedRest]
  simp [Function.comp_def]

/-- What is found as its tokens before a text that is laid out is a line of its own. -/
theorem cons_of_scan {text : String} {ls : List Lexeme} (second : Laid b lb)
    (scans : ∀ skipped rest, ∃ ms, ms.map Mark.lexeme = ls ∧ Mark.quote ms = text ∧
      (∀ l ∈ ls, l.Kept) ∧ Munch.scan skipped (text.toList ++ (b.toList ++ rest)) =
        (Munch.scan [] (b.toList ++ rest)).map (ms ++ ·)) :
    Laid (text ++ b) (⟨text, ls⟩ :: lb) := by
  intro skipped rest
  obtain ⟨ms, spelled, quoted, kept, scanned⟩ := scans skipped rest
  obtain ⟨others, skipped', spelledRest, scannedRest⟩ := second [] rest
  refine ⟨ms ++ others, skipped', .cons spelled quoted kept spelledRest, ?_⟩
  rw [String.toList_append, List.append_assoc, scanned, scannedRest]
  simp [Function.comp_def]

/-- What is written from tokens is a line of its own, whatever stands behind it. -/
theorem cons {text : String} {ls : List Lexeme} (written : Munch.Written text ls)
    (nonempty : ls ≠ []) (second : Laid b lb) (ended : Munch.ends b.toList = true)
    (more : b.toList ≠ []) : Laid (text ++ b) (⟨text, ls⟩ :: lb) := by
  refine cons_of_scan second fun skipped rest => ?_
  have endedAll : Munch.ends (b.toList ++ rest) = true := by
    cases chars : b.toList with
    | nil => exact absurd chars more
    | cons c others => rwa [chars] at ended
  exact written.scan_eq nonempty skipped (b.toList ++ rest) endedAll

theorem line {text : String} {ls : List Lexeme} (written : Munch.Written text ls)
    (nonempty : ls ≠ []) : Laid (text ++ "\n") [⟨text, ls⟩] := by
  have feed : Laid "\n" [] := blanks (by simp [Munch.isSpace])
  exact cons written nonempty feed (Munch.ends_of_mem_signs (by decide) []) (by decide)

theorem join {texts : List String} {lines : List (List Line)} (each : List.Forall₂ Laid texts lines) :
    Laid (String.join texts) lines.flatten := by
  induction each with
  | nil => exact blanks (by simp)
  | cons first _ ih => simpa using first.append ih

/-- Several texts with an empty line between two. -/
theorem intercalate {texts : List String} {lines : List (List Line)}
    (each : List.Forall₂ Laid texts lines) :
    Laid (String.intercalate "\n" texts) lines.flatten := by
  have feed : Laid "\n" [] := blanks (by simp [Munch.isSpace])
  induction each with
  | nil => exact blanks (by simp)
  | cons first rest ih =>
    cases rest with
    | nil => simpa using first
    | cons second rest =>
      rw [String.intercalate_cons_cons, List.flatten_cons]
      simpa using (first.append feed).append ih

/-- The tokens of a text that consists of lines. -/
theorem ofSource (laid : Laid a la) :
    ∃ tokens, Token.ofSource a = .ok tokens ∧ Lines la (tokens.map Token.mark) := by
  obtain ⟨ms, skipped, spelled, scanned⟩ := laid [] []
  have nothing : Munch.scan skipped [] = some [] := by simp [Munch.scan, Munch.marks]
  rw [List.append_nil, nothing] at scanned
  obtain ⟨tokens, lexed, marked⟩ := Token.ofSource_of_scan scanned
  refine ⟨tokens, lexed, ?_⟩
  rw [marked]
  simpa using spelled

end Laid

end TestDouble
