import TestDouble.Proofs.Written

/-!
# What may follow a token

A token looks at what follows it only as far as the next character or the next two dots. So it is
found again before any other text that starts with a sign that parts tokens, or with the character
that stood there before.
-/

namespace TestDouble

namespace Munch

/-- A character that no token before it can take. -/
def parts (c : Char) : Bool := isSpace c || c == ';' || c == ',' || c == '(' || c == ')'

def partingSigns : List Char := [' ', '\t', '\n', '\r', '\x0c', ';', ',', '(', ')']

/-- What follows a token may be replaced: the new text starts with a sign that parts tokens, or with
the character that stood there before. -/
structure Follows (rest rest' : List Char) : Prop where
  head : ∀ d, rest'.head? = some d → parts d = true ∨ rest.head? = some d
  dots : ['.', '.'] <+: rest' → ['.', '.'] <+: rest

theorem parts_iff {c : Char} : parts c = true ↔ c ∈ partingSigns := by
  simp [parts, partingSigns, isSpace, or_assoc]

/-- What is false of every sign that parts tokens is told by looking at them. -/
theorem eq_false_of_parts {p : Char → Bool} (none : partingSigns.any p = false) {d : Char}
    (parted : parts d = true) : p d = false := by
  rw [List.any_eq_false] at none
  simpa using none d (parts_iff.mp parted)

theorem Follows.of_parts {rest rest' : List Char} (parted : ∀ d, rest'.head? = some d → parts d = true) :
    Follows rest rest' := by
  refine ⟨fun d starts => .inl (parted d starts), ?_⟩
  rintro ⟨more, rfl⟩
  exact absurd (parted '.' rfl) (by decide)

/-- A character of a class without parting signs starts the new text only if it started the old one.
-/
theorem Follows.of_head {rest rest' : List Char} (follows : Follows rest rest') {p : Char → Bool}
    (apart : ∀ d, parts d = true → p d = false) {d : Char} (starts : rest'.head? = some d)
    (holds : p d = true) : rest.head? = some d := by
  rcases follows.head d starts with parted | same
  · rw [apart d parted] at holds
    cases holds
  · exact same

/-! ### Literals -/

theorem le_stringContent (text : List Char) (n : Nat) : n ≤ stringContent text n := by
  induction text, n using stringContent.induct <;> grind [stringContent]

theorem le_blockContent (text : List Char) (n : Nat) : n ≤ blockContent text n := by
  induction text, n using blockContent.induct <;> grind [blockContent]

theorem stringContent_plain {c : Char} (notSlash : c ≠ '\\') (text : List Char) (n : Nat) :
    stringContent (c :: text) n =
      if c = '"' ∨ c = '\n' then n else stringContent text (n + 1) := by
  rw [stringContent]
  · simp
  · exact fun _ _ same => absurd same notSlash
  · exact fun same => absurd same notSlash

/-- The content of a string literal ends at its quote, whatever follows. -/
theorem stringContent_append {rest : List Char} (rest' : List Char) {w : List Char} {n : Nat}
    (ended : stringContent (w ++ '"' :: rest) n = n + w.length) :
    stringContent (w ++ '"' :: rest') n = n + w.length := by
  induction size : w.length using Nat.strongRecOn generalizing w n with
  | ind _ ih =>
  subst size
  rcases w with _ | ⟨c, w⟩
  · simp [stringContent]
  by_cases slash : c = '\\'
  · subst slash
    rcases w with _ | ⟨d, w⟩
    · have passed := le_stringContent rest (n + 2)
      simp only [List.cons_append, List.nil_append, stringContent, List.length_cons,
        List.length_nil, Char.reduceEq, if_false] at ended
      omega
    · simp only [List.cons_append, stringContent, List.length_cons] at ended ih ⊢
      by_cases feed : d = '\n'
      · rw [if_pos feed] at ended
        omega
      · rw [if_neg feed] at ended ⊢
        rw [ih w.length (by omega) (by omega) rfl]
        omega
  · rw [List.cons_append, stringContent_plain slash] at ended ⊢
    simp only [List.length_cons] at ended ih ⊢
    by_cases stops : c = '"' ∨ c = '\n'
    · rw [if_pos stops] at ended
      omega
    · rw [if_neg stops] at ended ⊢
      rw [ih w.length (by omega) (by omega) rfl]
      omega

theorem blockContent_plain {c : Char} (plain : isBlockPlain c = true) (text : List Char) (n : Nat) :
    blockContent (c :: text) n = blockContent text (n + 1) := by
  simp only [isBlockPlain, Bool.and_eq_true, bne_iff_ne, ne_eq] at plain
  rw [blockContent]
  · simp [isBlockPlain, plain]
  · exact fun _ _ same => absurd same plain.2
  · exact fun _ _ same => absurd same plain.1
  · exact fun _ _ same => absurd same plain.1

theorem blockContent_quote {c : Char} (notQuote : c ≠ '"') (text : List Char) (n : Nat) :
    blockContent ('"' :: c :: text) n =
      if isBlockPlain c = true then blockContent text (n + 2) else n := by
  rw [blockContent]
  exact fun _ _ same => absurd same notQuote

/-- The content of a text block ends at its three quotes, whatever follows. -/
theorem blockContent_append {rest : List Char} (rest' : List Char) {w : List Char} {n : Nat}
    (ended : blockContent (w ++ '"' :: '"' :: '"' :: rest) n = n + w.length) :
    blockContent (w ++ '"' :: '"' :: '"' :: rest') n = n + w.length := by
  -- Up to three characters are passed at once, so the induction is on the length.
  induction size : w.length using Nat.strongRecOn generalizing w n with
  | ind _ ih =>
  subst size
  rcases w with _ | ⟨c, w⟩
  · simp [blockContent, isBlockPlain]
  by_cases plain : isBlockPlain c = true
  · rw [List.cons_append, blockContent_plain plain] at ended ⊢
    simp only [List.length_cons] at ended ih ⊢
    rw [ih w.length (by omega) (by omega) rfl]
    omega
  · -- A backslash takes one more character with it, a quote one or two.
    have special : c = '\\' ∨ c = '"' := by
      simp only [isBlockPlain, Bool.and_eq_true, bne_iff_ne, ne_eq] at plain
      grind
    rcases special with rfl | rfl
    · rcases w with _ | ⟨d, w⟩
      · have passed := le_blockContent ('"' :: '"' :: rest) (n + 2)
        simp only [List.cons_append, List.nil_append, blockContent, List.length_cons,
          List.length_nil, Char.reduceEq, if_false] at ended
        omega
      · simp only [List.cons_append, blockContent, List.length_cons] at ended ih ⊢
        by_cases feed : d = '\n'
        · rw [if_pos feed] at ended
          omega
        · rw [if_neg feed] at ended ⊢
          rw [ih w.length (by omega) (by omega) rfl]
          omega
    · rcases w with _ | ⟨d, w⟩
      · simp [blockContent, isBlockPlain] at ended
      by_cases second : d = '"'
      · subst second
        rcases w with _ | ⟨e, w⟩
        · simp [blockContent, isBlockPlain] at ended
        simp only [List.cons_append, blockContent, List.length_cons] at ended ih ⊢
        by_cases third : isBlockPlain e = true
        · rw [if_pos third] at ended ⊢
          rw [ih w.length (by omega) (by omega) rfl]
          omega
        · rw [if_neg third] at ended
          omega
      · rw [List.cons_append, List.cons_append, blockContent_quote second] at ended ⊢
        simp only [List.length_cons] at ended ih ⊢
        by_cases plainSecond : isBlockPlain d = true
        · rw [if_pos plainSecond] at ended ⊢
          rw [ih w.length (by omega) (by omega) rfl]
          omega
        · rw [if_neg plainSecond] at ended
          omega

private theorem split_of_drop {text behind : List Char} {n : Nat} {c : Char}
    (dropped : text.drop n = c :: behind) :
    (text.take n).length = n ∧ text = text.take n ++ c :: behind := by
  constructor
  · apply List.length_take_of_le
    by_contra beyond
    rw [List.drop_eq_nil_of_le (by omega)] at dropped
    cases dropped
  · rw [← dropped, List.take_append_drop]

/-- What a double quote starts: a text block between three quotes, or a string literal. -/
theorem quote_eq_some {text : List Char} {kind : Kind} {n : Nat}
    (quoted : quote text = (some kind, n)) :
    (∃ content behind, kind = .textBlock ∧ n = content.length + 5 ∧
      text = '"' :: '"' :: content ++ '"' :: '"' :: '"' :: behind ∧
      blockContent (content ++ '"' :: '"' :: '"' :: behind) 0 = content.length) ∨
    (∃ content behind, kind = .stringLiteral ∧ n = content.length + 1 ∧
      text = content ++ '"' :: behind ∧
      stringContent (content ++ '"' :: behind) 0 = content.length ∧
      ¬['"', '"'] <+: content ++ '"' :: behind) := by
  unfold quote at quoted
  -- Two more quotes open a text block; without them there is a string literal.
  split at quoted
  next more =>
    dsimp only at quoted
    split at quoted
    next behind closed =>
      obtain ⟨size, parted⟩ := split_of_drop closed
      simp only [Prod.mk.injEq, Option.some.injEq] at quoted
      obtain ⟨rfl, rfl⟩ := quoted
      refine .inl ⟨more.take (blockContent more 0), behind, rfl, by rw [size], ?_, ?_⟩
      · rw [List.cons_append, List.cons_append, ← parted]
      · rw [← parted, size]
    next => cases quoted
  next notBlock =>
    dsimp only at quoted
    split at quoted
    next behind closed =>
      obtain ⟨size, parted⟩ := split_of_drop closed
      simp only [Prod.mk.injEq, Option.some.injEq] at quoted
      obtain ⟨rfl, rfl⟩ := quoted
      refine .inr ⟨text.take (stringContent text 0), behind, rfl, by rw [size], parted, ?_, ?_⟩
      · rw [← parted, size]
      · rintro ⟨others, opened⟩
        rw [← parted] at opened
        exact notBlock others opened.symm
    next => cases quoted

theorem quote_append {w rest rest' : List Char} {kind : Kind}
    (quoted : quote (w ++ rest) = (some kind, w.length))
    (follows : rest'.head? = some '"' → rest.head? = some '"') :
    quote (w ++ rest') = (some kind, w.length) := by
  rcases quote_eq_some quoted with ⟨content, behind, rfl, length, whole, ended⟩ |
    ⟨content, behind, rfl, length, whole, ended, single⟩
  · have parted : w ++ rest = ('"' :: '"' :: content ++ ['"', '"', '"']) ++ behind := by
      rw [whole, List.append_assoc]
      rfl
    obtain ⟨rfl, rfl⟩ := List.append_inj parted (by simp [length])
    have kept := blockContent_append rest' (w := content) (n := 0) (by rw [ended, Nat.zero_add])
    rw [Nat.zero_add] at kept
    simp only [List.cons_append, List.append_assoc, List.nil_append, quote, kept, List.drop_left]
    simp
  · have parted : w ++ rest = (content ++ ['"']) ++ behind := by
      rw [whole, List.append_assoc]
      rfl
    obtain ⟨rfl, rfl⟩ := List.append_inj parted (by simp [length])
    have kept := stringContent_append rest' (w := content) (n := 0) (by rw [ended, Nat.zero_add])
    rw [Nat.zero_add] at kept
    have singleStill : ¬['"', '"'] <+: content ++ '"' :: rest' := by
      rcases content with _ | ⟨c, _ | ⟨d, content⟩⟩
      · -- An empty literal is no text block as long as no third quote follows.
        rintro ⟨others, opened⟩
        simp only [List.nil_append, List.cons_append, List.cons.injEq, true_and] at opened
        have third := follows (by rw [← opened]; rfl)
        obtain ⟨more, rfl⟩ : ∃ more, rest = '"' :: more := by
          cases rest with
          | nil => cases third
          | cons e more => exact ⟨more, by rw [Option.some.inj third]⟩
        exact single ⟨more, rfl⟩
      · rintro ⟨others, opened⟩
        simp only [List.cons_append, List.nil_append, List.cons.injEq] at opened
        rw [← opened.1] at ended
        simp [stringContent] at ended
      · rintro ⟨others, opened⟩
        simp only [List.cons_append, List.nil_append, List.cons.injEq] at opened
        rw [← opened.1] at ended
        simp [stringContent] at ended
    rw [List.append_assoc, List.cons_append, List.nil_append]
    unfold quote
    split
    next others opened => exact absurd ⟨others, opened.symm⟩ singleStill
    next =>
      simp only [kept, List.drop_left]
      simp

/-- A slash before text that starts no comment is an operator. -/
theorem slash_of_head {rest : List Char} (notLine : rest.head? ≠ some '/')
    (notBlock : rest.head? ≠ some '*') : slash rest = (some .operator, 0) := by
  unfold slash
  split
  next => exact absurd rfl notLine
  next => exact absurd rfl notBlock
  next => rfl

theorem dots_of_single {rest : List Char} (single : ¬['.', '.'] <+: rest) :
    dots rest = (some .dot, 0) := by
  unfold dots
  split
  next behind => exact absurd ⟨behind, rfl⟩ single
  next => rfl

/-! ### Numbers and words -/

private theorem takeWhile_of_head {p : Char → Bool} {text : List Char}
    (stops : ∀ d, text.head? = some d → p d = false) : text.takeWhile p = [] := by
  cases text with
  | nil => rfl
  | cons d text => exact List.takeWhile_cons_of_neg (by simp [stops d rfl])

theorem head_dropWhile {p : Char → Bool} (text : List Char) {d : Char}
    (starts : (text.dropWhile p).head? = some d) : p d = false := by
  have stopped := List.head?_dropWhile_not p text
  rw [starts] at stopped
  simpa using stopped

/-- How far a number reaches: digits, and at most one dot with digits behind it. -/
theorem numberLength_append {w rest rest' : List Char}
    (reached : numberLength (w ++ rest) = w.length)
    (follows : ∀ d, rest'.head? = some d → isNumeral d = true ∨ d = '.' → rest.head? = some d) :
    numberLength (w ++ rest') = w.length := by
  have whole := List.takeWhile_append_dropWhile (p := isNumeral) (l := w ++ rest)
  have numeral : ∀ d ∈ (w ++ rest).takeWhile isNumeral, isNumeral d = true := fun d member =>
    List.all_eq_true.mp (List.all_takeWhile (p := isNumeral)) d member
  have stopped (d : Char) := head_dropWhile (p := isNumeral) (w ++ rest) (d := d)
  unfold numberLength at reached
  dsimp only at reached
  rw [dropped_length_takeWhile] at reached
  -- The digits and what stands behind them are all that matters of the text from here on.
  generalize (w ++ rest).takeWhile isNumeral = digits at whole numeral reached
  generalize (w ++ rest).dropWhile isNumeral = behind at whole stopped reached
  split at reached
  next fraction =>
    have parted : w ++ rest = (digits ++ '.' :: fraction.takeWhile isNumeral) ++
        fraction.dropWhile isNumeral := by
      rw [List.append_assoc, List.cons_append, List.takeWhile_append_dropWhile, whole]
    obtain ⟨rfl, rfl⟩ := List.append_inj parted (by simp [← reached]; omega)
    have ends : rest'.takeWhile isNumeral = [] := takeWhile_of_head fun d starts => by
      by_contra continues
      have same := follows d starts (.inl (by simpa using continues))
      exact continues (head_dropWhile fraction same)
    have numeralBehind : ∀ d ∈ fraction.takeWhile isNumeral, isNumeral d = true := fun d member =>
      List.all_eq_true.mp (List.all_takeWhile (p := isNumeral)) d member
    have first : (digits ++ '.' :: (fraction.takeWhile isNumeral ++ rest')).takeWhile isNumeral =
        digits := by
      rw [List.takeWhile_append_of_pos numeral, takeWhile_of_head, List.append_nil]
      intro d starts
      obtain rfl : '.' = d := Option.some.inj starts
      rfl
    rw [List.append_assoc, List.cons_append]
    unfold numberLength
    simp only [first, List.drop_left, List.takeWhile_append_of_pos numeralBehind, ends]
    simp
    omega
  next noFraction =>
    have parted : w ++ rest = digits ++ behind := whole.symm
    obtain ⟨rfl, rfl⟩ := List.append_inj parted reached.symm
    have ends : rest'.takeWhile isNumeral = [] := takeWhile_of_head fun d starts => by
      by_contra continues
      have same := follows d starts (.inl (by simpa using continues))
      exact continues (stopped d same)
    have first : (w ++ rest').takeWhile isNumeral = w := by
      rw [List.takeWhile_append_of_pos numeral, ends, List.append_nil]
    unfold numberLength
    simp only [first, List.drop_left]
    split
    next more =>
      have same := follows '.' rfl (.inr rfl)
      cases rest with
      | nil => cases same
      | cons d others => exact absurd (by rw [Option.some.inj same]) (noFraction others)
    next => rfl

/-- A number holds numerals and dots only, and no numeral stands behind it. -/
theorem number_reaches {w rest : List Char} (reached : numberLength (w ++ rest) = w.length) :
    (∀ d ∈ w, isNumeral d = true ∨ d = '.') ∧ ∀ d, rest.head? = some d → isNumeral d = false := by
  have whole := List.takeWhile_append_dropWhile (p := isNumeral) (l := w ++ rest)
  have numeral (text : List Char) : ∀ d ∈ text.takeWhile isNumeral, isNumeral d = true ∨ d = '.' :=
    fun d member => .inl (List.all_eq_true.mp (List.all_takeWhile (p := isNumeral)) d member)
  have before := numeral (w ++ rest)
  have stopped (d : Char) := head_dropWhile (p := isNumeral) (w ++ rest) (d := d)
  unfold numberLength at reached
  dsimp only at reached
  rw [dropped_length_takeWhile] at reached
  generalize (w ++ rest).takeWhile isNumeral = digits at whole before reached
  generalize (w ++ rest).dropWhile isNumeral = behind at whole stopped reached
  split at reached
  next fraction =>
    have parted : w ++ rest = (digits ++ '.' :: fraction.takeWhile isNumeral) ++
        fraction.dropWhile isNumeral := by
      rw [List.append_assoc, List.cons_append, List.takeWhile_append_dropWhile, whole]
    obtain ⟨rfl, rfl⟩ := List.append_inj parted (by simp [← reached]; omega)
    refine ⟨fun d member => ?_, fun d => head_dropWhile fraction⟩
    rw [List.mem_append, List.mem_cons] at member
    obtain here | dot | later := member
    · exact before d here
    · exact .inr dot
    · exact numeral fraction d later
  next =>
    obtain ⟨rfl, rfl⟩ := List.append_inj whole.symm reached.symm
    exact ⟨before, stopped⟩

private def sharesLead (c : Char) : Bool := startsLikeWord [c]

private theorem startsLikeWord_cons (c : Char) (rest : List Char) :
    startsLikeWord (c :: rest) = sharesLead c := rfl

private theorem not_continuesWord_of_parts (d : Char) (parted : parts d = true) :
    continuesWord d = false :=
  eq_false_of_parts (by decide) parted

private theorem not_sharesLead_of_parts (d : Char) (parted : parts d = true) :
    sharesLead d = false :=
  eq_false_of_parts (by decide) parted

private theorem not_numeral_of_parts (d : Char) (parted : parts d = true) :
    (isNumeral d || d == '.') = false :=
  eq_false_of_parts (p := fun d => isNumeral d || d == '.') (by decide) parted

private theorem not_sign_of_parts (d : Char) (parted : parts d = true) :
    (d == '"' || d == '/' || d == '*') = false :=
  eq_false_of_parts (p := fun d => d == '"' || d == '/' || d == '*') (by decide) parted

theorem wordKind_significant (w : String) (behind : List Char) :
    (wordKind w behind).isTrivia = false := by
  unfold wordKind
  split
  · rfl
  · rcases Kind.ofWord_cases w with same | ⟨entry, listed, same⟩
    · rw [same]
      rfl
    · have all : ∀ entry ∈ Kind.keywords, entry.2.isTrivia = false := by decide
      rw [same]
      exact all entry listed

theorem munch_of_isDigit {c : Char} (digit : c.isDigit = true) (rest : List Char) :
    munch c rest = (some .number, numberLength rest) := by
  have noSymbol : Kind.ofCharacter? c = none := by
    unfold Kind.ofCharacter?
    split <;> first | rfl | exact absurd digit (by decide)
  have notSpace : isSpace c = false := by
    simp only [isSpace, Bool.or_eq_false_iff, beq_eq_false_iff_ne, ne_eq]
    refine ⟨⟨⟨⟨?_, ?_⟩, ?_⟩, ?_⟩, ?_⟩ <;> rintro rfl <;> exact absurd digit (by decide)
  unfold munch
  split
  case h_1 | h_2 | h_3 | h_4 => exact absurd digit (by decide)
  case h_5 => simp [noSymbol, notSpace, digit]

/-- The kind of a token when other text stands behind it: a word that was an identifier only because
of what followed it may be reserved, and nothing else changes. -/
def kindBefore (kind : Kind) (word : String) (behind : List Char) : Kind :=
  if kind = .identifier then wordKind word behind else kind

theorem kindBefore_significant {kind : Kind} (significant : kind.isTrivia = false) (word : String)
    (behind : List Char) : (kindBefore kind word behind).isTrivia = false := by
  unfold kindBefore
  split
  · exact wordKind_significant word behind
  · exact significant

/-- A word that is not reserved is an identifier whatever follows it. -/
theorem kindBefore_of_free {kind : Kind} {word : String}
    (free : kind = .identifier → Kind.ofWord word = .identifier) (behind : List Char) :
    kindBefore kind word behind = kind := by
  unfold kindBefore
  split
  next identifier =>
    rw [wordKind, free identifier, ite_self, identifier]
  next => rfl

section

variable {c : Char} {w rest rest' : List Char} {kind : Kind}

/-- Text that may follow a word makes it longer nowhere. -/
theorem word_append (starts : startsWord c = true)
    (munched : munch c (w ++ rest) = (some kind, w.length)) (follows : Follows rest rest') :
    (munch c (w ++ rest') = (some (wordKind (String.ofList (c :: w)) rest'), w.length)) ∧
      kind = wordKind (String.ofList (c :: w)) rest := by
  rw [munch_of_startsWord starts] at munched
  simp only [Prod.mk.injEq, Option.some.injEq] at munched
  obtain ⟨ofWord, length⟩ := munched
  have whole := List.takeWhile_append_dropWhile (p := continuesWord) (l := w ++ rest)
  obtain ⟨taken, left⟩ := List.append_inj whole length
  have continues : ∀ d ∈ w, continuesWord d = true := fun d member =>
    List.all_eq_true.mp (List.all_takeWhile (p := continuesWord)) d (by rwa [taken])
  have ends : rest'.takeWhile continuesWord = [] := takeWhile_of_head fun d first => by
    by_contra goesOn
    have same := follows.of_head not_continuesWord_of_parts first (by simpa using goesOn)
    rw [← left] at same
    exact goesOn (head_dropWhile _ same)
  have kept : (w ++ rest').takeWhile continuesWord = w := by
    rw [List.takeWhile_append_of_pos continues, ends, List.append_nil]
  have behind : (w ++ rest').dropWhile continuesWord = rest' := by
    have again := List.takeWhile_append_dropWhile (p := continuesWord) (l := w ++ rest')
    rw [kept] at again
    exact List.append_cancel_left again
  rw [munch_of_startsWord starts, kept, behind]
  rw [taken, left] at ofWord
  exact ⟨rfl, ofWord.symm⟩

/-- Text that may follow a reserved word leaves it reserved. -/
theorem wordKind_of_follows {word : String} (follows : Follows rest rest')
    (reserved : wordKind word rest ≠ .identifier) : wordKind word rest' = wordKind word rest := by
  have before : startsLikeWord rest = false := by
    by_contra likeWord
    exact reserved (if_pos (by simpa using likeWord))
  have after : startsLikeWord rest' = false := by
    cases rest' with
    | nil => rfl
    | cons d more =>
      by_contra likeWord
      have shares : sharesLead d = true := by simpa [startsLikeWord_cons] using likeWord
      have same := follows.of_head not_sharesLead_of_parts (d := d) rfl shares
      cases rest with
      | nil => cases same
      | cons e others =>
        obtain rfl := Option.some.inj same
        simp [startsLikeWord_cons, shares] at before
  rw [wordKind, wordKind, before, after]

/-- A token is found again before other text that may follow it. -/
theorem munch_append (munched : munch c (w ++ rest) = (some kind, w.length))
    (significant : kind.isTrivia = false) (follows : Follows rest rest') :
    munch c (w ++ rest') =
      (some (kindBefore kind (String.ofList (c :: w)) rest'), w.length) := by
  by_cases starts : startsWord c = true
  · obtain ⟨again, rfl⟩ := word_append starts munched follows
    rw [again, kindBefore]
    split
    next => rfl
    next reserved => rw [wordKind_of_follows follows reserved]
  have notWord : kind ≠ .identifier := by
    rcases munch_eq_some munched with ⟨word, -⟩ | ⟨notIdentifier, -⟩
    · rw [List.take_left, isWord, Bool.and_eq_true] at word
      exact absurd word.1 starts
    · exact notIdentifier
  -- The signs that could lengthen a token are not at the front of the new text unless they were
  -- at the front of the old one.
  have sign {d : Char} (starts : rest'.head? = some d) (isSign : d = '"' ∨ d = '/' ∨ d = '*') :
      rest.head? = some d :=
    follows.of_head not_sign_of_parts starts (by simpa [or_assoc] using isSign)
  rw [kindBefore, if_neg notWord]
  cases munchedAs_of_munch munched with
  | quote same quoted =>
    subst same
    exact quote_append quoted fun first => sign first (.inl rfl)
  | character same enclosed parted length =>
    subst same
    obtain ⟨rfl, rfl⟩ := List.append_inj parted length
    exact enclosed.apostrophe rest'
  | lineComment | blockComment | spaces => cases significant
  | slash same notLine notBlock short =>
    subst same
    obtain rfl := List.eq_nil_of_length_eq_zero short
    exact slash_of_head (fun first => notLine (sign first (.inr (.inl rfl))))
      fun first => notBlock (sign first (.inr (.inr rfl)))
  | ellipsis same dotted length =>
    subst same
    obtain ⟨rfl, -⟩ := List.append_inj dotted length
    rfl
  | dot same single short =>
    subst same
    obtain rfl := List.eq_nil_of_length_eq_zero short
    exact dots_of_single fun dotted => single (follows.dots dotted)
  | sign found short => rw [munch_of_ofCharacter? found, short]
  | number _ digit length =>
    rw [munch_of_isDigit digit, numberLength_append length.symm fun d first numeral =>
      follows.of_head not_numeral_of_parts first (by simpa using numeral)]
  | word starts' => exact absurd starts' starts

end

/-- There it has a kind of its own, the same one unless it is a reserved word. -/
theorem exists_munch_append {c : Char} {w rest rest' : List Char} {kind : Kind}
    (munched : munch c (w ++ rest) = (some kind, w.length)) (significant : kind.isTrivia = false)
    (follows : Follows rest rest') :
    ∃ kind', munch c (w ++ rest') = (some kind', w.length) ∧ kind'.isTrivia = false ∧
      ((kind = .identifier → Kind.ofWord (String.ofList (c :: w)) = .identifier) →
        kind' = kind) :=
  ⟨_, munch_append munched significant follows, kindBefore_significant significant _ _,
    fun free => kindBefore_of_free free _⟩

end Munch

end TestDouble
