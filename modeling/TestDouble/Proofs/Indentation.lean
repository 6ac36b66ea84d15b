import TestDouble.Proofs.PieceSlices
import TestDouble.Proofs.RenderedLines

/-!
# Code that is indented anew

A statement that is just code is written line by line, each line with the indentation of the body.
That changes what is skipped between two tokens and nothing else, as long as every token stays on its
line: the tokens are found again, and the semicolon behind them.
-/

namespace TestDouble

namespace Text

/-- A text as it is written line by line behind an indentation: every line end is a line feed, with
the indentation of the next line behind it. -/
def indented (indent : List Char) : List Char → List Char
  | [] => []
  | c :: rest =>
    if c = '\r' ∧ rest.head? = some '\n' then indented indent rest
    else if c = '\n' then '\n' :: indent ++ indented indent rest
    else c :: indented indent rest

section

variable {indent : List Char}

theorem indented_feed (rest : List Char) :
    indented indent ('\n' :: rest) = '\n' :: indent ++ indented indent rest := by
  rw [indented, if_neg (by simp), if_pos rfl]

theorem indented_return (rest : List Char) :
    indented indent ('\r' :: '\n' :: rest) = '\n' :: indent ++ indented indent rest := by
  rw [indented, if_pos ⟨rfl, rfl⟩, indented_feed]

theorem indented_plain {c : Char} {rest : List Char} (notFeed : c ≠ '\n')
    (notReturn : c = '\r' → rest.head? ≠ some '\n') :
    indented indent (c :: rest) = c :: indented indent rest := by
  rw [indented, if_neg (fun both => notReturn both.1 both.2), if_neg notFeed]

/-- Texts are indented one by one where no line end is parted. -/
theorem indented_append {first second : List Char}
    (whole : first.getLast? = some '\r' → second.head? ≠ some '\n') :
    indented indent (first ++ second) = indented indent first ++ indented indent second := by
  induction first with
  | nil => rfl
  | cons c first ih =>
    have next : first ≠ [] → (first ++ second).head? = first.head? := by
      intro some
      obtain ⟨d, more, rfl⟩ := List.exists_cons_of_ne_nil some
      rfl
    have later := ih fun last => whole (by simp [List.getLast?_cons, last])
    -- A line end that starts here does not reach into the second text.
    by_cases ended : c = '\r' ∧ (first ++ second).head? = some '\n'
    · obtain ⟨rfl, feed⟩ := ended
      have some : first ≠ [] := by
        rintro rfl
        exact whole rfl feed
      rw [List.cons_append, indented, if_pos ⟨rfl, feed⟩, later, indented,
        if_pos ⟨rfl, next some ▸ feed⟩]
    · have endedAlone : ¬(c = '\r' ∧ first.head? = some '\n') := by
        rintro ⟨rfl, feed⟩
        refine ended ⟨rfl, ?_⟩
        rw [List.head?_append, feed, Option.some_or]
      rw [List.cons_append, indented, if_neg ended, indented, if_neg endedAlone, later]
      split
      · simp
      · rfl

theorem indented_of_oneLine {text : List Char} (oneLine : '\n' ∉ text) :
    indented indent text = text := by
  induction text with
  | nil => rfl
  | cons c rest ih =>
    rw [List.mem_cons, not_or] at oneLine
    have noFeed : rest.head? ≠ some '\n' := fun feed => oneLine.2 (List.mem_of_mem_head? feed)
    rw [indented_plain (Ne.symm oneLine.1) (fun _ => noFeed), ih oneLine.2]

/-- The first sign stays, unless it is that of a line end. -/
theorem head_indented {text : List Char} {d : Char} (first : (indented indent text).head? = some d) :
    d = '\n' ∨ text.head? = some d := by
  cases text with
  | nil => exact .inr first
  | cons c rest =>
    rw [indented] at first
    split at first
    next ended =>
      obtain ⟨rfl, feed⟩ := ended
      obtain ⟨more, rfl⟩ := List.head?_eq_some_iff.mp feed
      rw [indented_feed] at first
      exact .inl (Option.some.inj first).symm
    next =>
      split at first
      next => exact .inl (Option.some.inj first).symm
      next => exact .inr first

theorem eq_nil_of_indented {text : List Char} (none : indented indent text = []) : text = [] := by
  induction text with
  | nil => rfl
  | cons c rest ih =>
    rw [indented] at none
    split at none
    next ended =>
      rw [ih none] at ended
      exact absurd ended.2 (by simp)
    next => split at none <;> cases none

theorem mem_of_mem_withoutReturn {line : List Char} {c : Char} (member : c ∈ withoutReturn line) :
    c ∈ line := by
  unfold withoutReturn at member
  split at member
  next => exact List.mem_cons_of_mem _ member
  next => exact member

/-- A line that ends with a line feed. -/
theorem indented_line {line : List Char} (oneLine : '\n' ∉ line) (rest : List Char) :
    indented indent (line.reverse ++ '\n' :: rest) =
      (withoutReturn line).reverse ++ '\n' :: indent ++ indented indent rest := by
  have parted {line : List Char} (oneLine : '\n' ∉ line) (text : List Char)
      (whole : line.head? = some '\r' → text.head? ≠ some '\n') :
      indented indent (line.reverse ++ text) = line.reverse ++ indented indent text := by
    rw [indented_append (by simpa using whole), indented_of_oneLine (by simpa using oneLine)]
  unfold withoutReturn
  split
  next more =>
    rw [List.mem_cons, not_or] at oneLine
    rw [List.reverse_cons, List.append_assoc, List.singleton_append,
      parted oneLine.2 _ (fun _ => by simp), indented_return]
    simp
  next notReturn =>
    have whole : line.head? = some '\r' → ('\n' :: rest).head? ≠ some '\n' := by
      intro last
      obtain ⟨more, rfl⟩ := List.head?_eq_some_iff.mp last
      exact absurd rfl (notReturn more)
    rw [parted oneLine _ whole, indented_feed]
    simp

end

/-- What is written for the lines of the rest of a text, behind the lines read so far. -/
private theorem join_linesFrom (config : Config) (level : Nat) {indent : List Char}
    (indents : (String.join (List.replicate level config.indent)).toList = indent)
    (rest line : List Char) (oneLine : '\n' ∉ line) (nonempty : line.reverse ++ rest ≠ [])
    (ended : (line.reverse ++ rest).getLast? ≠ some '\n') (read : List String) :
    (String.join ((linesFrom rest line read).map (config.line level))).toList =
      (String.join (read.reverse.map (config.line level))).toList ++
        (indent ++ indented indent (line.reverse ++ rest) ++ ['\n']) := by
  -- By induction on the rest; the begun line holds no line feed, and is put behind its indentation
  -- when it ends.
  induction rest generalizing line read with
  | nil =>
    obtain ⟨c, more, rfl⟩ : ∃ c more, line = c :: more :=
      List.exists_cons_of_ne_nil (by simpa using nonempty)
    rw [List.append_nil, indented_of_oneLine (by rwa [List.mem_reverse]), linesFrom]
    · simp [String.toList_join, Config.line, indents]
    · simp
  | cons c rest ih =>
    by_cases feed : c = '\n'
    · subst feed
      have more : rest ≠ [] := by
        rintro rfl
        simp at ended
      have endedRest : rest.getLast? ≠ some '\n' := by
        obtain ⟨d, others, rfl⟩ := List.exists_cons_of_ne_nil more
        simpa [List.getLast?_cons] using ended
      rw [linesFrom, ih [] List.not_mem_nil more endedRest, indented_line oneLine]
      simp [String.toList_join, Config.line, indents]
    · have same : (c :: line).reverse ++ rest = line.reverse ++ c :: rest := by simp
      have oneLineAgain : '\n' ∉ c :: line := by simp [Ne.symm feed, oneLine]
      rw [linesFrom]
      · rw [ih (c :: line) oneLineAgain (by simp) (by rwa [same]), same]
      · exact feed

/-- What is written for the lines of a text that does not end with a line feed. -/
theorem join_lines (config : Config) (level : Nat) {text : String} {indent : List Char}
    (indents : (String.join (List.replicate level config.indent)).toList = indent)
    (nonempty : text.toList ≠ []) (ended : text.toList.getLast? ≠ some '\n') :
    (String.join ((lines text).map (config.line level))).toList =
      indent ++ indented indent text.toList ++ ['\n'] := by
  have whole := join_linesFrom config level indents text.toList [] List.not_mem_nil nonempty ended []
  simpa [lines] using whole

end Text

/-! ### What is skipped -/

namespace Munch

section

variable {indent : List Char} (blank : ∀ c ∈ indent, isSpace c = true)

theorem getLast?_of_commentLength? {comment : List Char} {n : Nat}
    (ended : commentLength? comment n = some (n + comment.length)) :
    comment.getLast? = some '/' := by
  induction comment generalizing n with
  | nil => cases ended
  | cons c rest ih =>
    rw [commentLength?_cons, List.length_cons] at ended
    split at ended
    next closes =>
      have one : rest.length = 1 := by
        have := Option.some.inj ended
        omega
      obtain ⟨d, rfl⟩ := List.length_eq_one_iff.mp one
      rw [List.getLast?_cons]
      exact closes.2
    next =>
      have last := ih (ended.trans (by congr 1; omega))
      simp [List.getLast?_cons, last]

include blank

private theorem commentLength?_blanks (text : List Char) (n : Nat) :
    commentLength? (indent ++ text) n = commentLength? text (n + indent.length) := by
  induction indent generalizing n with
  | nil => rfl
  | cons c indent ih =>
    obtain ⟨here, others⟩ := List.forall_mem_cons.mp blank
    have notStar : ¬(c = '*' ∧ (indent ++ text).head? = some '/') := by
      rintro ⟨rfl, -⟩
      cases here
    rw [List.cons_append, commentLength?_cons, if_neg notStar, ih others, List.length_cons]
    congr 1
    omega

/-- A comment that is indented ends where it ended. -/
private theorem commentLength?_indented {comment : List Char} {n : Nat}
    (ended : commentLength? comment n = some (n + comment.length)) (k : Nat) :
    commentLength? (Text.indented indent comment) k =
      some (k + (Text.indented indent comment).length) := by
  induction comment generalizing n k with
  | nil => cases ended
  | cons c rest ih =>
    rw [commentLength?_cons, List.length_cons] at ended
    by_cases closes : c = '*' ∧ rest.head? = some '/'
    · rw [if_pos closes] at ended
      have one : rest.length = 1 := by
        have := Option.some.inj ended
        omega
      obtain ⟨d, rfl⟩ := List.length_eq_one_iff.mp one
      obtain ⟨rfl, slash⟩ := closes
      obtain rfl := Option.some.inj slash
      rw [Text.indented_of_oneLine (by decide)]
      rfl
    · rw [if_neg closes] at ended
      have later := ih (ended.trans (by congr 1; omega))
      rw [Text.indented]
      split
      next => exact later k
      next =>
        split
        next =>
          rw [List.cons_append, commentLength?_cons, if_neg (by simp), commentLength?_blanks blank,
            later]
          simp only [List.length_cons, List.length_append]
          congr 1
          omega
        next =>
          -- No star is moved before a slash: what follows it is kept, or becomes a line feed.
          have goesOn : ¬(c = '*' ∧ (Text.indented indent rest).head? = some '/') := by
            rintro ⟨rfl, slash⟩
            rcases Text.head_indented slash with feed | same
            · cases feed
            · exact closes ⟨rfl, same⟩
          rw [commentLength?_cons, if_neg goesOn, later, List.length_cons]
          congr 1
          omega

/-- What is skipped is still skipped when it is indented. -/
theorem Gap.indented {text : List Char} (gap : Gap text) : Gap (Text.indented indent text) := by
  induction gap with
  | nil => exact .nil
  | space isSpace _ ih =>
    -- A blank may be the carriage return or the line feed of a line end.
    rw [Text.indented]
    split
    next => exact ih
    next =>
      split
      next => exact .space rfl (ih.spaces blank)
      next => exact .space isSpace ih
  | mark _ ih =>
    rw [Text.indented_plain (by decide) (by simp)]
    exact .mark ih
  | @line comment text oneLine _ ih =>
    have reversed : '\n' ∉ comment.reverse := by rwa [List.mem_reverse]
    have whole := @Text.indented_line indent _ reversed text
    rw [List.reverse_reverse] at whole
    rw [List.cons_append, List.cons_append, Text.indented_plain (by decide) (by simp),
      Text.indented_plain (by decide) (by simp), whole, List.append_assoc]
    refine .line (fun member => ?_) (ih.spaces blank)
    exact reversed (Text.mem_of_mem_withoutReturn (List.mem_reverse.mp member))
  | @block comment text ended _ ih =>
    -- The comment ends with a slash, so no line end is parted behind it.
    have closes := ended.trans (congrArg some (Nat.zero_add _).symm)
    have last : comment.getLast? = some '/' := getLast?_of_commentLength? closes
    rw [List.cons_append, List.cons_append, Text.indented_plain (by decide) (by simp),
      Text.indented_plain (by decide) (by simp), Text.indented_append (by simp [last])]
    refine .block ?_ ih
    rw [commentLength?_indented blank closes, Nat.zero_add]

end

/-! ### Tokens on one line -/

/-- The content of a string literal has no line feed. -/
theorem oneLine_of_stringContent {rest content : List Char} {n : Nat}
    (ended : stringContent (content ++ '"' :: rest) n = n + content.length) : '\n' ∉ content := by
  induction size : content.length using Nat.strongRecOn generalizing content n with
  | ind _ ih =>
  subst size
  rcases content with _ | ⟨c, content⟩
  · exact List.not_mem_nil
  by_cases slash : c = '\\'
  · subst slash
    rcases content with _ | ⟨d, content⟩
    · simp
    · simp only [List.cons_append, stringContent, List.length_cons] at ended ih
      by_cases feed : d = '\n'
      · rw [if_pos feed] at ended
        omega
      · rw [if_neg feed] at ended
        have later := ih content.length (by omega) (ended.trans (by omega)) rfl
        simp [Ne.symm feed, later]
  · rw [List.cons_append, stringContent_plain slash] at ended
    simp only [List.length_cons] at ended ih
    by_cases stops : c = '"' ∨ c = '\n'
    · rw [if_pos stops] at ended
      omega
    · rw [if_neg stops] at ended
      rw [not_or] at stops
      have later := ih content.length (by omega) (ended.trans (by omega)) rfl
      simp [Ne.symm stops.2, later]

end Munch

namespace Text

/-- The text stays on its line: it has no line feed, and does not end with what could be half of a
line end. -/
structure Inline (text : List Char) : Prop where
  nonempty : text ≠ []
  oneLine : '\n' ∉ text
  ended : text.getLast? ≠ some '\r'

/-- What has neither a line feed nor a carriage return stays on its line. -/
theorem Inline.of_forall {c : Char} {text : List Char}
    (each : ∀ d ∈ c :: text, d ≠ '\n' ∧ d ≠ '\r') : Inline (c :: text) where
  nonempty := List.cons_ne_nil c text
  oneLine member := (each '\n' member).1 rfl
  ended last := (each '\r' (List.mem_of_mem_getLast? last)).2 rfl

/-- Only what stands around such a text is indented. -/
theorem Inline.indented_append {indent text : List Char} (inline : Inline text) (rest : List Char) :
    indented indent (text ++ rest) = text ++ indented indent rest := by
  rw [Text.indented_append fun last => absurd last inline.ended, indented_of_oneLine inline.oneLine]

theorem Inline.indented_around {indent text : List Char} (inline : Inline text)
    (before rest : List Char) :
    indented indent (before ++ (text ++ rest)) =
      indented indent before ++ (text ++ indented indent rest) := by
  have apart : (text ++ rest).head? ≠ some '\n' := by
    obtain ⟨c, more, rfl⟩ := List.exists_cons_of_ne_nil inline.nonempty
    intro feed
    obtain rfl := Option.some.inj feed
    exact inline.oneLine List.mem_cons_self
  rw [Text.indented_append fun _ => apart, inline.indented_append]

end Text

namespace Munch

private theorem CharacterTail.inline {tail : List Char} (enclosed : CharacterTail tail) :
    Text.Inline ('\'' :: tail) := by
  cases enclosed with
  | escaped _ notFeed => exact ⟨by simp, by simp [Ne.symm notFeed], by simp⟩
  | plain _ _ _ notFeed => exact ⟨by simp, by simp [Ne.symm notFeed], by simp⟩
  | numbered hexA hexB hexC hexD =>
    have notFeed {e : Char} (isHex : isHexDigit e = true) : '\n' ≠ e := by
      rintro rfl
      cases isHex
    refine ⟨by simp, ?_, by simp⟩
    simp [notFeed hexA, notFeed hexB, notFeed hexC, notFeed hexD]

/-- A token that is no text block stays on its line. -/
theorem inline_of_munch {c : Char} {rest : List Char} {kind : Kind} {n : Nat}
    (munched : munch c rest = (some kind, n)) (significant : kind.isTrivia = false)
    (notBlock : kind ≠ .textBlock) : Text.Inline (c :: rest.take n) := by
  cases munchedAs_of_munch munched with
  | quote same quoted =>
    subst same
    rcases quote_eq_some quoted with ⟨_, _, isBlock, _⟩ | ⟨content, behind, _, rfl, rfl, ended, _⟩
    · exact absurd isBlock notBlock
    · -- A literal has no line feed inside and ends with its quote.
      have oneLine := oneLine_of_stringContent (ended.trans (Nat.zero_add _).symm)
      have taken : (content ++ '"' :: behind).take (content.length + 1) = content ++ ['"'] := by
        rw [List.take_length_add_append]
        rfl
      rw [taken]
      exact ⟨by simp, by simp [oneLine], by simp [List.getLast?_cons]⟩
  | character same enclosed parted length =>
    subst same parted length
    rw [List.take_left]
    exact enclosed.inline
  | lineComment | blockComment | spaces => cases significant
  | slash same _ _ short =>
    subst same short
    exact .of_forall (by simp)
  | ellipsis same dotted length =>
    subst same dotted length
    exact .of_forall (by simp)
  | dot same _ short =>
    subst same short
    exact .of_forall (by simp)
  | sign found short =>
    subst short
    refine .of_forall fun d member => ?_
    obtain rfl : d = c := by simpa using member
    constructor <;> (rintro rfl; cases found)
  -- The rest of a number or a word consists of signs that are no line breaks.
  | number notSpace _ length =>
    subst length
    have bound := List.length_take_of_le (numberLength_le rest)
    obtain ⟨numerals, -⟩ := number_reaches (by rw [List.take_append_drop, bound])
    refine .of_forall fun d member => ?_
    rcases List.mem_cons.mp member with rfl | later
    · constructor <;> (rintro rfl; cases notSpace)
    · rcases numerals d later with numeral | rfl
      · constructor <;> (rintro rfl; cases numeral)
      · decide
  | word starts length =>
    subst length
    rw [taken_length_takeWhile]
    refine .of_forall fun d member => ?_
    have continues : continuesWord d = true := by
      rcases List.mem_cons.mp member with rfl | later
      · exact continuesWord_of_startsWord starts
      · exact List.all_eq_true.mp List.all_takeWhile d later
    constructor <;> (rintro rfl; exact absurd continues (by decide))

end Munch

/-! ### Statements -/

/-- A token with what is skipped before it indented anew. -/
def Mark.indented (indent : List Char) (m : Mark) : Mark :=
  { m with leading := String.ofList (Text.indented indent m.leading.toList) }

namespace Munch.Strung

variable {text : List Char} {ms : List Mark}

/-- Tokens that are no text blocks, nor reserved words taken for identifiers, stay what they are. -/
theorem kept (strung : Strung [] text ms) (settled : ∀ m ∈ ms, m.lexeme.Settled)
    (noBlock : ∀ m ∈ ms, m.kind ≠ .textBlock) :
    ∀ m ∈ ms, m.lexeme.Kept ∧ Text.Inline m.text.toList := by
  generalize nothing : ([] : List Char) = skipped at strung
  induction strung with
  | stop => simp
  | @next skipped gap w rest c kind ms _ munched significant later ih =>
    subst nothing
    obtain ⟨settledHere, settledLater⟩ := List.forall_mem_cons.mp settled
    obtain ⟨noBlockHere, noBlockLater⟩ := List.forall_mem_cons.mp noBlock
    have inline := inline_of_munch munched significant noBlockHere
    rw [List.take_left] at inline
    refine List.forall_mem_cons.mpr ⟨?_, ih settledLater noBlockLater rfl⟩
    rw [String.toList_ofList]
    refine ⟨⟨significant, settledHere, ?_⟩, inline⟩
    rw [Mark.lexeme, String.toList_ofList]
    exact inline.oneLine

/-- Tokens may be indented anew. -/
theorem relaid_indented {indent : List Char} (blank : ∀ c ∈ indent, isSpace c = true)
    (strung : Strung [] text ms) : List.Forall₂ Mark.Relaid ms (ms.map (Mark.indented indent)) := by
  generalize nothing : ([] : List Char) = skipped at strung
  induction strung with
  | stop => exact .nil
  | @next skipped gap w rest c kind ms isGap _ _ _ ih =>
    subst nothing
    refine .cons ⟨rfl, rfl, ?_, ?_, ?_⟩ (ih rfl)
    · simpa [Mark.indented] using isGap.indented blank
    · intro d first
      rcases Text.head_indented (by simpa [Mark.indented] using first) with rfl | same
      · exact .inl (by decide)
      · exact .inr (by simpa using same)
    · intro none
      simpa using Text.eq_nil_of_indented (by simpa [Mark.indented] using none)

end Munch.Strung

namespace Mark

variable {indent : List Char}

/-- The text of tokens is indented by indenting what is skipped between them. -/
theorem spread_indented {ms : List Mark} (inline : ∀ m ∈ ms, Text.Inline m.text.toList) :
    spread (ms.map (Mark.indented indent)) = Text.indented indent (spread ms) := by
  induction ms with
  | nil => rfl
  | cons m ms ih =>
    obtain ⟨here, later⟩ := List.forall_mem_cons.mp inline
    rw [List.map_cons, spread_cons, spread_cons, ih later, here.indented_around]
    simp [Mark.indented]

theorem quote_indented {m : Mark} {ms : List Mark}
    (inline : ∀ n ∈ m :: ms, Text.Inline n.text.toList) :
    (quote ((m :: ms).map (Mark.indented indent))).toList =
      Text.indented indent (quote (m :: ms)).toList := by
  obtain ⟨here, later⟩ := List.forall_mem_cons.mp inline
  rw [List.map_cons, toList_quote, toList_quote, spread_indented later, here.indented_append]
  rfl

end Mark

/-- Code that is indented anew is found as its tokens before anything that parts them from what
follows. -/
theorem Munch.Strung.scan_indented {indent text : List Char}
    (blank : ∀ c ∈ indent, isSpace c = true) {m : Mark} {ms : List Mark}
    (strung : Strung [] text (m :: ms)) (settled : ∀ n ∈ m :: ms, n.lexeme.Settled)
    {rest : List Char} (parted : ∀ d, rest.head? = some d → parts d = true) (skipped : List Char) :
    ∃ found, found.map Mark.lexeme = (m :: ms).map Mark.lexeme ∧
      Mark.quote found = Mark.quote ((m :: ms).map (Mark.indented indent)) ∧
      scan skipped ((Mark.quote ((m :: ms).map (Mark.indented indent))).toList ++ rest) =
        (scan [] rest).map (found ++ ·) := by
  obtain ⟨first, found, scanned, quoted, lexemes⟩ :=
    strung.scan_quote (strung.relaid_indented blank) parted skipped
  have same : ((m :: ms).map (Mark.indented indent)).map Mark.lexeme = (m :: ms).map Mark.lexeme := by
    rw [List.map_map]
    rfl
  refine ⟨first :: found, ?_, quoted, scanned⟩
  rw [← same]
  apply lexemes
  intro n listed
  rw [← List.map_cons] at listed
  obtain ⟨k, member, rfl⟩ := List.mem_map.mp listed
  exact settled k member

section

variable {config : Config} (blank : ∀ c ∈ config.indent.toList, c = ' ' ∨ c = '\t')

/-- The blanks before a statement. -/
def Config.margin (config : Config) : List Char :=
  (String.join (List.replicate 2 config.indent)).toList

include blank

theorem Config.isSpace_margin : ∀ c ∈ config.margin, Munch.isSpace c = true :=
  Config.isSpace_indent blank 2

/-- Code is written as its tokens and a semicolon, on as many lines as it had. -/
theorem Statement.laidAs_code {text : List Char} {m : Mark} {ms : List Mark}
    (strung : Munch.Strung [] text (m :: ms)) (settled : ∀ n ∈ m :: ms, n.lexeme.Settled)
    (noBlock : ∀ n ∈ m :: ms, n.kind ≠ .textBlock) :
    (code (Mark.quote (m :: ms))).LaidAs config
      ⟨Mark.quote ((m :: ms).map (Mark.indented config.margin)), (m :: ms).map Mark.lexeme⟩ := by
  have kept := strung.kept settled noBlock
  have inline : ∀ n ∈ m :: ms, Text.Inline n.text.toList := fun n member => (kept n member).2
  refine ⟨Mark.quote (m :: ms), expand_code _, ?_⟩
  have written : String.join ((Text.lines ((Mark.quote (m :: ms)).push ';')).map (config.line 2)) =
      String.join (List.replicate 2 config.indent) ++
        (Mark.quote ((m :: ms).map (Mark.indented config.margin)) ++ (";" ++ "\n")) := by
    rw [← String.toList_inj, Text.join_lines config 2 rfl (by simp) (by simp)]
    have ending : Text.indented config.margin [';'] = [';'] := Text.indented_of_oneLine (by decide)
    rw [String.toList_push, Text.indented_append (by simp)]
    change config.margin ++ (Text.indented config.margin _ ++ Text.indented config.margin [';']) ++ _ = _
    rw [ending, ← Mark.quote_indented inline]
    simp [Config.margin]
  rw [written]
  apply (Config.laid_indent blank 2).append
  apply Laid.semicolon.cons_of_scan
  intro skipped rest
  have parted : ∀ d, ((";" ++ "\n").toList ++ rest).head? = some d → Munch.parts d = true := by
    simp [Munch.parts]
  obtain ⟨found, lexemes, quoted, scanned⟩ :=
    strung.scan_indented (Config.isSpace_margin blank) settled parted skipped
  refine ⟨found, lexemes, quoted, ?_, scanned⟩
  intro l listed
  obtain ⟨n, member, rfl⟩ := List.mem_map.mp listed
  exact (kept n member).1

end

end TestDouble
