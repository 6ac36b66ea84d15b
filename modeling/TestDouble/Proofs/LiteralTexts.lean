import TestDouble.Mock
import TestDouble.Proofs.PieceSlices
import TestDouble.Proofs.StringLiterals

/-!
# Texts made up of tokens

A value of an annotation is the text of a run of tokens, so it starts where a token starts and ends
where one ends. Main statements: `Munch.shape_of_munch`, which says what signs a token is made of, and
`Token.MakeUp.denotes_iff`, by which a text is read as a string exactly when its first and its last
token are quoted.
-/

namespace TestDouble

theorem Unicode.Intervals.exists_of_contains {table : Intervals} {n : Nat}
    (holds : table.contains n = true) : ∃ i ∈ table, i.1 ≤ n ∧ n ≤ i.2 := by
  induction table with
  | nil => cases holds
  | cons i rest ih =>
    rw [contains] at holds
    split at holds
    next => cases holds
    next notBefore =>
      split at holds
      next notBehind => exact ⟨i, by simp, by omega, notBehind⟩
      next =>
        obtain ⟨j, member, bounds⟩ := ih holds
        exact ⟨j, .tail i member, bounds⟩

/-- Whether a token of the kind stands in quotes. -/
def Kind.isQuoted : Kind → Bool
  | stringLiteral | textBlock => true
  | _ => false

namespace Munch

/-! ### Where tokens start and end -/

/-- The characters that a token can start or end with, the quotes of strings aside. -/
def isEdge (c : Char) : Bool :=
  continuesWord c || isNumeral c || c == '/' || c == '.' || c == '\'' || (Kind.ofCharacter? c).isSome

theorem isEdge_of_isBlank {c : Char} (blank : Unicode.isBlank c = true) : isEdge c = false := by
  -- The table of white space is short enough to look at each of its code points.
  have none : ∀ i ∈ Unicode.blanks, ∀ n ∈ List.range' i.1 (i.2 + 1 - i.1),
      isEdge (Char.ofNat n) = false := by decide +kernel
  obtain ⟨i, member, low, high⟩ := Unicode.Intervals.exists_of_contains blank
  rw [← Char.ofNat_toNat c]
  exact none i member _ (List.mem_range'_1.mpr ⟨low, by omega⟩)

theorem isEdge_of_startsWord {c : Char} (starts : startsWord c = true) : isEdge c = true := by
  simp [isEdge, continuesWord_of_startsWord starts]

theorem isEdge_of_isNumeral {c : Char} (numeral : isNumeral c = true) : isEdge c = true := by
  simp [isEdge, numeral]

theorem CharacterTail.getLast?_eq {tail : List Char} (enclosed : CharacterTail tail) :
    tail.getLast? = some '\'' := by
  cases enclosed <;> rfl

theorem isQuoted_wordKind (w : String) (behind : List Char) : (wordKind w behind).isQuoted = false := by
  unfold wordKind
  split
  · rfl
  · rcases Kind.ofWord_cases w with same | ⟨entry, listed, same⟩
    · rw [same]
      rfl
    · have all : ∀ entry ∈ Kind.keywords, entry.2.isQuoted = false := by decide
      rw [same]
      exact all entry listed

/-- What a token that starts with `c` and goes on with `w` can be, before the rest of the text. -/
inductive Shape (c : Char) (w rest : List Char) : Kind → Prop where
  | word : startsWord c = true → (∀ d ∈ w, continuesWord d = true) →
      (∀ d, rest.head? = some d → continuesWord d = false) →
      Shape c w rest (wordKind (String.ofList (c :: w)) rest)
  | number : c.isDigit = true → (∀ d ∈ w, isNumeral d = true ∨ d = '.') →
      (∀ d, rest.head? = some d → isNumeral d = false) → Shape c w rest .number
  | quoted {kind : Kind} : kind.isQuoted = true → c = '"' → w.getLast? = some '"' → Shape c w rest kind
  | character : c = '\'' → w.getLast? = some '\'' → Shape c w rest .charLiteral
  | ellipsis : c = '.' → w = ['.', '.'] → Shape c w rest .ellipsis
  | dot : c = '.' → w = [] → Shape c w rest .dot
  | slash : c = '/' → w = [] → Shape c w rest .operator
  | sign {kind : Kind} : Kind.ofCharacter? c = some kind → w = [] → Shape c w rest kind

section

variable {c : Char} {w rest : List Char} {kind : Kind}

theorem shape_of_word (starts : startsWord c = true)
    (munched : munch c (w ++ rest) = (some kind, w.length)) : Shape c w rest kind := by
  rw [munch_of_startsWord starts] at munched
  simp only [Prod.mk.injEq, Option.some.injEq] at munched
  obtain ⟨ofWord, length⟩ := munched
  have whole := List.takeWhile_append_dropWhile (p := continuesWord) (l := w ++ rest)
  obtain ⟨taken, left⟩ := List.append_inj whole length
  rw [taken, left] at ofWord
  rw [← ofWord]
  refine .word starts (fun d member => ?_) (fun d first => ?_)
  · rw [← taken] at member
    exact List.all_eq_true.mp List.all_takeWhile d member
  · rw [← left] at first
    exact head_dropWhile _ first

theorem shape_of_quote (munched : quote (w ++ rest) = (some kind, w.length)) :
    Shape '"' w rest kind := by
  rcases quote_eq_some munched with ⟨content, behind, rfl, length, parted, -⟩ |
    ⟨content, behind, rfl, length, parted, -⟩
  · have split : w ++ rest = ('"' :: '"' :: content ++ ['"', '"', '"']) ++ behind := by
      simpa using parted
    obtain ⟨rfl, -⟩ := List.append_inj split (by simp [length])
    exact .quoted rfl rfl (by rw [List.getLast?_append]; rfl)
  · have split : w ++ rest = (content ++ ['"']) ++ behind := by simpa using parted
    obtain ⟨rfl, -⟩ := List.append_inj split (by simp [length])
    exact .quoted rfl rfl List.getLast?_concat

theorem shape_of_munch (munched : munch c (w ++ rest) = (some kind, w.length))
    (significant : kind.isTrivia = false) : Shape c w rest kind := by
  cases munchedAs_of_munch munched with
  | quote same quoted =>
    subst same
    exact shape_of_quote quoted
  | character same enclosed parted length =>
    obtain ⟨rfl, rfl⟩ := List.append_inj parted length
    exact .character same enclosed.getLast?_eq
  | lineComment | blockComment | spaces => cases significant
  | slash same _ _ short => exact .slash same (List.eq_nil_of_length_eq_zero short)
  | ellipsis same dotted length =>
    exact .ellipsis same (List.append_inj dotted length).1
  | dot same _ short => exact .dot same (List.eq_nil_of_length_eq_zero short)
  | sign found short => exact .sign found (List.eq_nil_of_length_eq_zero short)
  | number _ digit length =>
    obtain ⟨numerals, stops⟩ := number_reaches length.symm
    exact .number digit numerals stops
  | word starts => exact shape_of_word starts munched

end

/-- Literals stand in quotes or between apostrophes; all other tokens are made of edges alone. -/
theorem Shape.kinds {c : Char} {w rest : List Char} {kind : Kind} (shape : Shape c w rest kind) :
    (kind.isQuoted = true ∧ c = '"' ∧ w.getLast? = some '"') ∨
      (kind = .charLiteral ∧ c = '\'' ∧ w.getLast? = some '\'') ∨
      (kind.isQuoted = false ∧ ∀ d ∈ c :: w, isEdge d = true) := by
  cases shape with
  | quoted isQuoted opened closed => exact .inl ⟨isQuoted, opened, closed⟩
  | character opened closed => exact .inr (.inl ⟨rfl, opened, closed⟩)
  | word starts continues _ =>
    refine .inr (.inr ⟨isQuoted_wordKind _ _, fun d member => ?_⟩)
    rcases List.mem_cons.mp member with rfl | inWord
    · exact isEdge_of_startsWord starts
    · simp [isEdge, continues d inWord]
  | number digit numerals _ =>
    refine .inr (.inr ⟨rfl, fun d member => ?_⟩)
    rcases List.mem_cons.mp member with rfl | inNumber
    · exact isEdge_of_isNumeral (by simp [isNumeral, Char.isAlphanum, digit])
    · rcases numerals d inNumber with numeral | rfl
      · exact isEdge_of_isNumeral numeral
      · rfl
  | ellipsis opened more =>
    subst opened more
    exact .inr (.inr ⟨rfl, List.all_eq_true.mp (by decide)⟩)
  | dot opened alone | slash opened alone =>
    subst opened alone
    exact .inr (.inr ⟨rfl, List.all_eq_true.mp (by decide)⟩)
  | sign found alone =>
    subst alone
    refine .inr (.inr ⟨?_, by simp [isEdge, found]⟩)
    unfold Kind.ofCharacter? at found
    split at found <;> cases found <;> rfl

/-- A quoted token starts and ends with a quote, and no other token does. -/
theorem Shape.edges {c : Char} {w rest : List Char} {kind : Kind} (shape : Shape c w rest kind) :
    (kind.isQuoted = true ∧ c = '"' ∧ w.getLast? = some '"') ∨
      (kind.isQuoted = false ∧ isEdge c = true ∧
        ∃ d, (c :: w).getLast? = some d ∧ isEdge d = true) := by
  rcases shape.kinds with quoted | ⟨rfl, rfl, closed⟩ | ⟨notQuoted, edges⟩
  · exact .inl quoted
  · exact .inr ⟨rfl, rfl, '\'', by rw [List.getLast?_cons, closed]; rfl, rfl⟩
  · exact .inr ⟨notQuoted, edges c List.mem_cons_self, _,
      List.getLast?_eq_some_getLast (List.cons_ne_nil c w), edges _ (List.getLast_mem _)⟩

/-- Whether the first or the last sign of a token is a quote tells whether the token is quoted, and
neither of them is white space. -/
theorem Shape.solid {c d : Char} {w rest : List Char} {kind : Kind} (shape : Shape c w rest kind)
    (edge : d = c ∨ (c :: w).getLast? = some d) :
    Unicode.isBlank d = false ∧ (d = '"' ↔ kind.isQuoted = true) := by
  rcases shape.edges with ⟨quoted, rfl, closed⟩ | ⟨notQuoted, opens, e, final, closes⟩
  · have isQuote : d = '"' := by
      rcases edge with first | last
      · exact first
      · rw [List.getLast?_cons, closed] at last
        exact (Option.some.inj last).symm
    subst isQuote
    exact ⟨by decide, by simp [quoted]⟩
  · have isEdge : isEdge d = true := by
      rcases edge with rfl | last
      · exact opens
      · rw [final] at last
        rwa [← Option.some.inj last]
    refine ⟨?_, ?_⟩
    · by_contra blank
      rw [isEdge_of_isBlank (by simpa using blank)] at isEdge
      cases isEdge
    · rw [notQuoted]
      refine ⟨?_, nofun⟩
      rintro rfl
      exact absurd isEdge (by decide)

end Munch

/-! ### Tokens that make up a text -/

/-- A token of a text was munched where it stands, when nothing is skipped behind the last one. -/
theorem Munch.Strung.munched {skipped text : List Char} {before after : List Mark} {m : Mark}
    (strung : Strung skipped text (before ++ m :: after))
    (whole : skipped ++ text = Mark.spread (before ++ m :: after)) :
    ∃ c w, m.text.toList = c :: w ∧ munch c (w ++ Mark.spread after) = (some m.kind, w.length) ∧
      m.kind.isTrivia = false := by
  induction before generalizing skipped text with
  | nil =>
    cases strung with
    | @next _ gap w rest c kind _ gap_ munched significant later =>
    obtain rfl : rest = Mark.spread after := by simpa [Mark.spread] using whole
    exact ⟨c, w, by simp, munched, significant⟩
  | cons n before ih =>
    cases strung with
    | @next _ gap w rest c kind _ gap_ munched significant later =>
    exact ih later (by simpa [Mark.spread] using whole)

theorem Munch.Strung.gap {skipped text : List Char} {ms : List Mark} (strung : Strung skipped text ms)
    (start : skipped = []) : ∀ m ∈ ms, Gap m.leading.toList := by
  induction strung with
  | stop => exact nofun
  | next gap_ _ _ _ ih =>
    subst start
    exact List.forall_mem_cons.mpr ⟨by simpa using gap_, ih rfl⟩

/-- The text is taken apart into the tokens, with nothing skipped before the first of them or behind
the last. -/
structure Token.MakeUp (tokens : List Token) (text : String) : Prop where
  lexed : ofSource text = .ok tokens
  nonempty : tokens ≠ []
  leading : ∀ first, tokens.head? = some first → first.leading = ""
  spread : text.toList = Mark.spread (tokens.map mark)

namespace Token.MakeUp

variable {tokens before after : List Token} {t first last : Token} {text : String}

/-- The source text of a run of tokens is made up of tokens. -/
theorem of_run {source : String} {more : List Token} (lexed : ofSource source = .ok tokens)
    (run : first :: more <:+: tokens) : ∃ found, MakeUp found (Fragment.ofTokens first more).text := by
  obtain ⟨before, after, rfl⟩ := run
  rw [List.append_assoc] at lexed
  obtain ⟨ms, m, marks, spelled, scanned⟩ := scan_slice lexed
  obtain ⟨found, again, same⟩ := ofSource_of_scan scanned
  have start : (ms ++ [m]).head?.map Mark.leading = some "" := by
    rw [← marks]
    rfl
  have leading (t : Token) (isFirst : found.head? = some t) : t.leading = "" := by
    have opens : (found.map mark).head?.map Mark.leading = some t.leading := by
      rw [List.head?_map, isFirst]
      rfl
    rw [same] at opens
    -- Only the kind of the last token can differ.
    have kept : (ms ++ [m]).head?.map Mark.leading = some t.leading := by
      cases ms <;> exact opens
    exact Option.some.inj (kept.symm.trans start)
  refine ⟨found, again, ?_, leading, ?_⟩
  · rintro rfl
    simp at same
  · rw [spelled, same]
    simp [Mark.spread]

theorem strung (made : MakeUp tokens text) : Munch.Strung [] text.toList (tokens.map mark) :=
  Munch.strung_of_scan (scan_of_ofSource made.lexed)

theorem munched (made : MakeUp (before ++ t :: after) text) :
    ∃ c w, t.text.toList = c :: w ∧
      Munch.munch c (w ++ Mark.spread (after.map mark)) = (some t.kind, w.length) ∧
      t.kind.isTrivia = false := by
  have strung := made.strung
  have spread := made.spread
  rw [List.map_append, List.map_cons] at strung spread
  exact strung.munched spread

theorem shape (made : MakeUp (before ++ t :: after) text) :
    ∃ c w, t.text.toList = c :: w ∧ Munch.Shape c w (Mark.spread (after.map mark)) t.kind := by
  obtain ⟨c, w, spelled, munched, significant⟩ := made.munched
  exact ⟨c, w, spelled, Munch.shape_of_munch munched significant⟩

theorem gap (made : MakeUp tokens text) (member : t ∈ tokens) : Munch.Gap t.leading.toList :=
  made.strung.gap rfl t.mark (List.mem_map_of_mem member)

/-- The text starts with a quote when its first token is quoted, and never with white space. -/
theorem starts (made : MakeUp tokens text) (isFirst : tokens.head? = some first) :
    ∃ c, text.toList.head? = some c ∧ Unicode.isBlank c = false ∧
      (c = '"' ↔ first.kind.isQuoted = true) := by
  obtain ⟨more, rfl⟩ := List.head?_eq_some_iff.mp isFirst
  have opening : MakeUp ([] ++ first :: more) text := made
  obtain ⟨c, w, spelled, shape⟩ := opening.shape
  have leading := made.leading first rfl
  refine ⟨c, ?_, shape.solid (.inl rfl)⟩
  simp [made.spread, Mark.spread, mark, leading, spelled]

/-- The text ends with a quote when its last token is quoted, and never with white space. -/
theorem ends (made : MakeUp tokens text) (isLast : tokens.getLast? = some last) :
    ∃ d, text.toList.getLast? = some d ∧ Unicode.isBlank d = false ∧
      (d = '"' ↔ last.kind.isQuoted = true) := by
  obtain ⟨front, rfl⟩ := List.getLast?_eq_some_iff.mp isLast
  obtain ⟨c, w, spelled, shape⟩ := made.shape
  have final := List.getLast?_eq_some_getLast (List.cons_ne_nil c w)
  refine ⟨(c :: w).getLast (List.cons_ne_nil c w), ?_, shape.solid (.inr final)⟩
  rw [made.spread, List.map_append, List.map_singleton, Mark.spread, List.flatMap_append]
  simp [mark, spelled, final]

/-- There is no white space to trim. -/
theorem trim_eq (made : MakeUp tokens text) : Text.trim text.toList = text.toList := by
  obtain ⟨c, starts, firstSolid, -⟩ := made.starts (List.head?_eq_some_head made.nonempty)
  obtain ⟨d, ends, lastSolid, -⟩ := made.ends (List.getLast?_eq_some_getLast made.nonempty)
  have trimmed : Text.trim ([] ++ text.toList ++ []) = text.toList :=
    Text.trim_between nofun nofun starts firstSolid ends lastSolid
  simpa using trimmed

end Token.MakeUp

/-! ### Texts between quotes -/

namespace Text.Quoted

theorem unescape_plain {c : Char} (notSlash : c ≠ '\\') (rest read : List Char) :
    unescape (c :: rest) read = unescape rest (c :: read) := by
  rw [unescape]
  · exact fun _ _ slash => absurd slash notSlash
  · exact fun slash => absurd slash notSlash

/-- Where no escape starts and no backslash stands alone, there is none. -/
private theorem ne_backslash {c : Char} {rest : List Char}
    (notEscape : ∀ d more, c = '\\' → rest = d :: more → False)
    (notAlone : c = '\\' → rest = [] → False) : c ≠ '\\' := by
  intro slash
  cases rest with
  | nil => exact notAlone slash rfl
  | cons d more => exact notEscape d more slash rfl

/-- A text that does not end in a backslash is read to its end, whatever follows it. -/
theorem unescape_through {text : List Char} (ends : text.getLast? ≠ some '\\') :
    ∃ out, ∀ rest read, unescape (text ++ rest) read = unescape rest (out ++ read) := by
  obtain ⟨seen⟩ : Nonempty (List Char) := ⟨[]⟩
  induction text, seen using unescape.induct with
  | case1 => exact ⟨[], fun _ _ => rfl⟩
  | case2 c more _ ih =>
    obtain ⟨out, through⟩ := ih fun final => ends (by simp [List.getLast?_cons, final])
    refine ⟨out ++ [escaped c], fun rest read => ?_⟩
    rw [List.cons_append, List.cons_append, unescape, through]
    simp
  | case3 => exact absurd rfl ends
  | case4 c more _ notEscape notAlone ih =>
    obtain ⟨out, through⟩ := ih fun final => ends (by simp [List.getLast?_cons, final])
    refine ⟨out ++ [c], fun rest read => ?_⟩
    rw [List.cons_append, unescape_plain (ne_backslash notEscape notAlone), through]
    simp

/-- The content of a string literal ends in no open escape. -/
theorem isSome_unescape {content rest : List Char} {n : Nat}
    (ended : Munch.stringContent (content ++ '"' :: rest) n = n + content.length)
    (read : List Char) : (unescape content read).isSome = true := by
  induction content, read using unescape.induct generalizing n with
  | case1 => rfl
  | case2 c more read ih =>
    rw [List.cons_append, List.cons_append, Munch.stringContent] at ended
    rw [unescape]
    split at ended
    next => simp at ended
    next => exact ih (n := n + 2) (by rw [ended, List.length_cons, List.length_cons]; omega)
  | case3 =>
    -- The backslash would take the closing quote.
    have passed := Munch.le_stringContent rest (n + 2)
    simp [Munch.stringContent] at ended
    omega
  | case4 c more read notEscape notAlone ih =>
    have notSlash := ne_backslash notEscape notAlone
    rw [List.cons_append, Munch.stringContent_plain notSlash] at ended
    rw [unescape_plain notSlash]
    split at ended
    next => simp at ended
    next => exact ih (n := n + 1) (by rw [ended, List.length_cons]; omega)

/-- A token in quotes has a content that can be read, whatever was read before it. -/
theorem content_of_munch {w rest : List Char} {kind : Kind}
    (munched : Munch.munch '"' (w ++ rest) = (some kind, w.length)) :
    ∃ content, w = content ++ ['"'] ∧ ∀ read, (unescape content read).isSome = true := by
  have quoted : Munch.quote (w ++ rest) = (some kind, w.length) := munched
  rcases Munch.quote_eq_some quoted with ⟨content, behind, -, length, parted, -⟩ |
    ⟨content, behind, -, length, parted, ended, -⟩
  · let inner := '"' :: '"' :: content ++ ['"', '"']
    have split : w ++ rest = (inner ++ ['"']) ++ behind := by simpa [inner] using parted
    obtain ⟨rfl, -⟩ := List.append_inj split (by simp [inner, length])
    -- The last sign of a block before its last quote is a quote too.
    have ends : inner.getLast? = some '"' := by
      rw [List.getLast?_append]
      rfl
    have noSlash : inner.getLast? ≠ some '\\' := by
      rw [ends]
      decide
    obtain ⟨out, through⟩ := unescape_through noSlash
    refine ⟨inner, rfl, fun read => ?_⟩
    rw [← List.append_nil inner, through]
    rfl
  · have split : w ++ rest = (content ++ ['"']) ++ behind := by simpa using parted
    obtain ⟨rfl, -⟩ := List.append_inj split (by simp [length])
    exact ⟨content, rfl, isSome_unescape (n := 0) (by rw [ended, Nat.zero_add])⟩

/-- The literal stands in quotes, and between them the value is written with escapes. -/
def Denotes (literal value : String) : Prop :=
  ∃ inner, literal.toList = '"' :: (inner ++ ['"']) ∧ unescape inner [] = some value.toList

end Text.Quoted

namespace Token.MakeUp

open Text.Quoted

variable {tokens : List Token} {first last : Token} {text : String}

theorem decode?_eq_some_iff (made : MakeUp tokens text) {value : String} :
    decode? text = some value ↔ Denotes text value := by
  rw [decode?, made.trim_eq]
  constructor
  · intro decoded
    split at decoded
    next rest opened =>
      split at decoded
      next inner closed =>
        obtain ⟨chars, unescaped, rfl⟩ := Option.map_eq_some_iff.mp decoded
        obtain rfl := Text.append_of_withoutEnding? closed
        exact ⟨inner, opened, by rw [unescaped, String.toList_ofList]⟩
      next => cases decoded
    next => cases decoded
  · rintro ⟨inner, spelled, unescaped⟩
    have closed : Text.withoutEnding? ['"'] (inner ++ ['"']) = some inner := by
      simp [Text.withoutEnding?]
    rw [spelled]
    simp [closed, unescaped]

/-- A text denotes a value exactly when its first and its last token are quoted. -/
theorem denotes_iff (made : MakeUp tokens text) (isFirst : tokens.head? = some first)
    (isLast : tokens.getLast? = some last) :
    (∃ value, Denotes text value) ↔ first.kind.isQuoted = true ∧ last.kind.isQuoted = true := by
  obtain ⟨c, starts, -, quoteFirst⟩ := made.starts isFirst
  obtain ⟨d, ends, -, quoteLast⟩ := made.ends isLast
  constructor
  · rintro ⟨value, inner, spelled, -⟩
    rw [spelled] at starts ends
    have final : d = '"' := by
      rw [← List.cons_append, List.getLast?_concat] at ends
      exact (Option.some.inj ends).symm
    exact ⟨quoteFirst.mp (Option.some.inj starts).symm, quoteLast.mp final⟩
  · rintro ⟨firstQuoted, lastQuoted⟩
    obtain ⟨front, rfl⟩ := List.getLast?_eq_some_iff.mp isLast
    obtain ⟨e, w, spelled, munched, significant⟩ := made.munched
    obtain ⟨-, isQuote⟩ := (Munch.shape_of_munch munched significant).solid (.inl rfl)
    obtain rfl := isQuote.mpr lastQuoted
    obtain ⟨content, rfl, readable⟩ := content_of_munch munched
    -- What stands before the last literal is empty, or it starts with the quote of the first one.
    let before := Mark.spread (front.map mark) ++ last.leading.toList
    have whole : text.toList = before ++ '"' :: (content ++ ['"']) := by
      rw [made.spread, List.map_append, Mark.spread, List.flatMap_append]
      simp [before, Mark.spread, mark, spelled]
    obtain ⟨inner, opened, isRead⟩ : ∃ inner, text.toList = '"' :: (inner ++ ['"']) ∧
        (unescape inner []).isSome = true := by
      rw [whole]
      cases parted : before with
      | nil => exact ⟨content, rfl, readable []⟩
      | cons f more =>
        rw [whole, parted] at starts
        obtain rfl : f = c := Option.some.inj starts
        obtain rfl := quoteFirst.mpr firstQuoted
        have ends : (more ++ ['"']).getLast? ≠ some '\\' := by
          rw [List.getLast?_concat]
          decide
        obtain ⟨out, through⟩ := unescape_through ends
        refine ⟨more ++ ['"'] ++ content, by simp, ?_⟩
        rw [through]
        exact readable _
    obtain ⟨chars, unescaped⟩ := Option.isSome_iff_exists.mp isRead
    exact ⟨String.ofList chars, inner, opened, by rw [unescaped, String.toList_ofList]⟩

end Token.MakeUp

end TestDouble
