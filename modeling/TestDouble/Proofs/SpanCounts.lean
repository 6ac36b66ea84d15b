import TestDouble.Proofs.LiteralTexts
import TestDouble.Proofs.SpanNesting

/-!
# Lines and columns of spans

The start of a span is the place of a token, and places of tokens are counted over the source. The
end of a span is not: it is the place of the last token with the number of characters in it added to
the column. This is what counting gives as long as no line feed and no carriage return stands in the
token, and only then. Where they can stand is in literals, and only fields end with literals.

The main result is `CompilationUnit.span_ends_counted_unless_broken`: every start is counted, and so
is every end but those of fields whose last token holds a line feed or a carriage return. Such an end
has the right offset, with a line or a column that does not belong to it.
-/

namespace TestDouble

open SpanTree (Between AllBetween)

/-! ### Counted places -/

namespace Location

/-- The line and the column are those that counting over the source up to the offset gives. -/
def CountedIn (source : String) (l : Location) : Prop :=
  ∃ before after, source = before ++ after ∧ l = behind before.toList

variable {source : String} {a b l : Location} {text : List Char}

theorem counted_of_toList {before after : List Char} (whole : source.toList = before ++ after) :
    (origin.after before).CountedIn source := by
  refine ⟨String.ofList before, String.ofList after, ?_, ?_⟩
  · rw [← String.ofList_append, ← whole, String.ofList_toList]
  · rw [String.toList_ofList, origin_after]

theorem origin_counted (source : String) : origin.CountedIn source :=
  ⟨"", source, String.empty_append.symm, rfl⟩

/-- The front of a text is told by its size. -/
private theorem front_unique {before before' after after' : String}
    (same : before ++ after = before' ++ after') (size : before.utf8ByteSize = before'.utf8ByteSize) :
    before = before' := by
  have longer {a b : String} {more : List Char} (whole : b.toList = a.toList ++ more)
      (size : a.utf8ByteSize = b.utf8ByteSize) : a = b := by
    obtain rfl : b = a ++ String.ofList more := by
      rw [← String.toList_inj, String.toList_append, String.toList_ofList, whole]
    rw [String.utf8ByteSize_append] at size
    rw [String.utf8ByteSize_eq_zero_iff.mp (by omega : (String.ofList more).utf8ByteSize = 0)]
    exact String.append_empty.symm
  have lists := congrArg String.toList same
  rw [String.toList_append, String.toList_append] at lists
  rcases List.append_eq_append_iff.mp lists with ⟨more, whole, -⟩ | ⟨more, whole, -⟩
  · exact longer whole size
  · exact (longer whole size.symm).symm

/-- At each offset there is one line and one column. -/
theorem CountedIn.unique (first : a.CountedIn source) (second : b.CountedIn source)
    (same : a.offset = b.offset) : a = b := by
  obtain ⟨before, after, rfl, rfl⟩ := first
  obtain ⟨before', after', whole, rfl⟩ := second
  have size : before.utf8ByteSize = before'.utf8ByteSize := by
    simpa only [behind, String.ofList_toList] using same
  rw [front_unique whole size]

theorem line_after (l : Location) (text : List Char) :
    (l.after text).line = l.line + text.count '\n' := by
  induction text generalizing l with
  | nil => rfl
  | cons c text ih =>
    have stepped : (l.after (c :: text)).line = ((l.step c).after text).line := rfl
    rw [stepped, ih, List.count_cons, step]
    split
    next feed =>
      subst feed
      simp only [beq_self_eq_true, if_true]
      omega
    next notFeed =>
      have other : (c == '\n') = false := by simpa using notFeed
      split <;> simp [other]

/-- As long as the line goes on, carriage returns alone take no column. -/
theorem column_after (l : Location) (oneLine : '\n' ∉ text) :
    (l.after text).column = l.column + text.countP (· ≠ '\r') := by
  induction text generalizing l with
  | nil => rfl
  | cons c text ih =>
    obtain ⟨notFeed, rest⟩ := List.ne_and_not_mem_of_not_mem_cons oneLine
    have stepped : (l.after (c :: text)).column = ((l.step c).after text).column := rfl
    rw [stepped, ih _ rest, step, if_neg notFeed.symm, List.countP_cons]
    split
    next carriage => simp [carriage]
    next notCarriage =>
      simp only [notCarriage, ne_eq, not_false_eq_true, decide_true, if_true]
      omega

/-- Adding to the column what counting passes is right exactly where no line breaks. -/
theorem after_eq_iff (l : Location) (text : List Char) :
    l.after text = ⟨l.line, l.column + text.length, (l.after text).offset⟩ ↔
      '\n' ∉ text ∧ '\r' ∉ text := by
  constructor
  · -- The line tells that there is no line feed, and then the column that there is no return.
    intro same
    have line := congrArg Location.line same
    rw [line_after] at line
    have oneLine : '\n' ∉ text := List.count_eq_zero.mp (Nat.add_eq_left.mp line)
    have column := congrArg Location.column same
    rw [column_after l oneLine] at column
    have all := List.countP_eq_length.mp (Nat.add_left_cancel column)
    exact ⟨oneLine, fun member => by simpa using all _ member⟩
  · rintro ⟨oneLine, noReturn⟩
    have line : (l.after text).line = l.line := by
      rw [line_after, List.count_eq_zero.mpr oneLine, Nat.add_zero]
    have column : (l.after text).column = l.column + text.length := by
      rw [column_after l oneLine, List.countP_eq_length.mpr]
      intro c member
      simpa using ne_of_mem_of_not_mem member noReturn
    rw [← line, ← column]

end Location

/-! ### Counted tokens -/

/-- A line feed or a carriage return stands in the token. -/
def Token.Breaks (t : Token) : Prop := '\n' ∈ t.text.toList ∨ '\r' ∈ t.text.toList

instance (t : Token) : Decidable t.Breaks := inferInstanceAs (Decidable (_ ∨ _))

theorem Kind.mayBreak_of_isQuoted {kind : Kind} (quoted : kind.isQuoted = true) :
    kind.mayBreak = true := by
  cases kind <;> first | rfl | cases quoted

/-- A token of a text was munched, whatever stands behind it. -/
theorem Munch.Strung.munched_of_mem {text : List Char} {ms : List Mark} {m : Mark}
    (strung : Strung [] text ms) (member : m ∈ ms) :
    ∃ c w rest, m.text.toList = c :: w ∧ munch c (w ++ rest) = (some m.kind, w.length) ∧
      m.kind.isTrivia = false := by
  obtain ⟨before, after, rfl⟩ := List.append_of_mem member
  obtain ⟨text', here⟩ := strung.drop
  cases here with
  | @next _ gap w rest c kind _ _ munched significant _ =>
    exact ⟨c, w, rest, String.toList_ofList, munched, significant⟩

namespace Token

variable {source : String} {tokens : List Token} {t : Token}

/-- Lines break in literals only. -/
theorem mayBreak_of_breaks (lexed : ofSource source = .ok tokens) (member : t ∈ tokens)
    (breaks : t.Breaks) : t.kind.mayBreak = true := by
  have strung := Munch.strung_of_scan (scan_of_ofSource lexed)
  obtain ⟨c, w, rest, spelled, munched, significant⟩ :=
    strung.munched_of_mem (List.mem_map_of_mem (f := mark) member)
  have shape : Munch.Shape c w rest t.kind := Munch.shape_of_munch munched significant
  rcases shape.kinds with ⟨isQuoted, -⟩ | ⟨isCharacter, -⟩ | ⟨-, edges⟩
  · exact Kind.mayBreak_of_isQuoted isQuoted
  · rw [isCharacter]
    rfl
  · -- No token starts or ends with white space, and other tokens are all edge.
    have text : t.text.toList = c :: w := spelled
    rw [Breaks, text] at breaks
    rcases breaks with feed | carriage
    · exact absurd (edges _ feed) (by decide)
    · exact absurd (edges _ carriage) (by decide)

/-- A token starts at a counted place, and counting over its text gives another one. -/
theorem counted (lexed : ofSource source = .ok tokens) (member : t ∈ tokens) :
    t.location.CountedIn source ∧ (t.location.after t.text.toList).CountedIn source := by
  obtain ⟨before, after, rfl⟩ := List.append_of_mem member
  obtain ⟨front, back, whole, tiles⟩ := (ofSource_tiles lexed).split
  cases tiles with
  | @cons _ leading text rest kind _ _ =>
    have start : source.toList = (front ++ leading) ++ (text ++ rest) := by simp [whole]
    have stop : source.toList = (front ++ leading ++ text) ++ rest := by simp [whole]
    simp only [String.toList_ofList, ← Location.after_append]
    exact ⟨Location.counted_of_toList start, Location.counted_of_toList stop⟩

/-- The end of a token is counted exactly if no line breaks in it. -/
theorem stop_counted_iff (lexed : ofSource source = .ok tokens) (member : t ∈ tokens) :
    t.stop.CountedIn source ↔ ¬t.Breaks := by
  obtain ⟨-, after⟩ := counted lexed member
  have offset : (t.location.after t.text.toList).offset = t.stopOffset := by
    rw [Location.offset_after, String.ofList_toList, stopOffset]
  have isStop : t.stop = ⟨t.location.line, t.location.column + t.text.toList.length,
      (t.location.after t.text.toList).offset⟩ := by
    rw [offset, stop, String.length_toList]
  have straight := Location.after_eq_iff t.location t.text.toList
  rw [← isStop, ← not_or] at straight
  rw [Breaks, ← straight]
  -- Counting over the text of the token gives a place at the same offset, and there is no other.
  constructor
  · exact fun counts => after.unique counts offset
  · exact fun same => same ▸ after

/-- The end of a token in which no line can break is counted. -/
theorem stop_counted (lexed : ofSource source = .ok tokens) (member : t ∈ tokens)
    (plain : t.kind.mayBreak = false) : t.stop.CountedIn source := by
  refine (stop_counted_iff lexed member).mpr fun breaks => ?_
  rw [mayBreak_of_breaks lexed member breaks] at plain
  cases plain

end Token

/-! ### Counted spans -/

/-- The span of a field ends with a token, and its end is counted exactly if no line breaks in this
token, as it can in literals only. -/
def Span.EndsFieldIn (source : String) (tokens : List Token) (span : Span) : Prop :=
  ∃ last ∈ tokens, span.stop = last.stop ∧ (last.Breaks → last.kind.mayBreak = true) ∧
    (span.stop.CountedIn source ↔ ¬last.Breaks)

/-- All starts in a tree of spans are counted, and all ends but those of fields that a line breaks
in. -/
inductive SpanTree.Counted (source : String) (tokens : List Token) : SpanTree → Prop where
  | node {span : Span} {parts : List SpanTree} : span.start.CountedIn source →
      span.stop.CountedIn source → (∀ part ∈ parts, Counted source tokens part) →
      Counted source tokens (.node false span parts)
  | field {span : Span} {parts : List SpanTree} : span.start.CountedIn source →
      span.EndsFieldIn source tokens → (∀ part ∈ parts, Counted source tokens part) →
      Counted source tokens (.node true span parts)

namespace SpanTree

variable {source : String} {tokens : List Token}

theorem counted_fragment (lexed : Token.ofSource source = .ok tokens) {c d : Cursor}
    (stands : c.StandsIn tokens) {first : Token} {more : List Token}
    (passes : c.Passes (first :: more) d) : (Fragment.ofTokens first more).tree.Counted source tokens := by
  have placed (t : Token) (taken : t ∈ first :: more) : t.location.CountedIn source := by
    refine (Token.counted lexed (stands.mem_of_ahead ?_)).1
    rw [passes.ahead]
    exact List.mem_append_left _ taken
  have last : more.getLast?.getD first ∈ first :: more := List.mem_of_getLast? List.getLast?_cons
  exact .node (placed first List.mem_cons_self) (placed _ last) (List.forall_mem_nil _)

mutual

theorem Between.counted (lexed : Token.ofSource source = .ok tokens) {c d : Cursor} {t : SpanTree}
    (stands : c.StandsIn tokens) : Between c t d → t.Counted source tokens
  | @Between.node _ c₁ d₁ _ isField parts before all shorter plain behind => by
    have standsThere := stands.leads before
    obtain ⟨⟨first, isFirst, start⟩, last, isLast, final⟩ := standsThere.edges all.leads shorter
    have starts : c₁.location.CountedIn source := start ▸ (Token.counted lexed isFirst).1
    have stop : d₁.lastStop = last.stop := by rw [Cursor.lastStop, final]
    have each := all.counted lexed standsThere
    -- The last token decides: no line breaks in it, unless the node is a field.
    cases isField with
    | false =>
      have ends := Token.stop_counted lexed isLast (plain rfl last final)
      exact .node starts (stop ▸ ends) each
    | true =>
      refine .field starts ⟨last, isLast, stop, Token.mayBreak_of_breaks lexed isLast, ?_⟩ each
      exact stop ▸ Token.stop_counted_iff lexed isLast
  | .fragment before passes _ => counted_fragment lexed (stands.leads before) passes

theorem AllBetween.counted (lexed : Token.ofSource source = .ok tokens) {c d : Cursor}
    {ts : List SpanTree} (stands : c.StandsIn tokens) :
    AllBetween c ts d → ∀ t ∈ ts, t.Counted source tokens
  | .nil _ => List.forall_mem_nil _
  | .cons first rest => by
    have here := first.counted lexed stands
    exact List.forall_mem_cons.mpr ⟨here, rest.counted lexed (stands.leads first.leads)⟩
  | .fields way _ group rest => by
    intro t member
    rcases List.mem_append.mp member with inGroup | behind
    · exact (group t inGroup).counted lexed stands
    · exact rest.counted lexed (stands.leads way) t behind

end

end SpanTree

/-- In what is read from a source, the start of every span has the line and the column that counting
over the source up to its offset gives, and so has the end of every span, but for fields whose last
token holds a line feed or a carriage return. -/
theorem CompilationUnit.span_ends_counted_unless_broken {source : String} {unit : CompilationUnit}
    (returned : (read source).outcome = .ok unit) :
    ∃ tokens, Token.ofSource source = .ok tokens ∧ unit.tree.Counted source tokens := by
  obtain ⟨tokens, lexed, tree⟩ := tree_between returned
  refine ⟨tokens, lexed, ?_⟩
  rcases tree with ⟨-, empty⟩ | ⟨d, between⟩
  · have start := Location.origin_counted source
    rw [empty]
    exact .node start start (List.forall_mem_nil _)
  · exact between.counted lexed ⟨0, Cursor.at_start tokens⟩

/-- A field whose initializer is a text block of two lines, and one behind it. -/
private def blockSource : String := "class A \x7b String s = \"\"\"\n\"\"\"; int n; \x7d"

private def TypeDecl.fieldSpans : TypeDecl → List Span
  | .classDecl c => c.body.filterMap fun
    | .field f => some f.span
    | _ => none
  | _ => []

/-- The text block ends on the second line; the field is said to end on the first. -/
theorem CompilationUnit.span_ends_counted_unless_broken_by_block :
    ∃ unit tokens, (read blockSource).outcome = .ok unit ∧
      unit.types.flatMap TypeDecl.fieldSpans =
        [⟨⟨1, 11, 10⟩, ⟨1, 29, 28⟩⟩, ⟨⟨2, 6, 30⟩, ⟨2, 11, 35⟩⟩] ∧
      Token.ofSource blockSource = .ok tokens ∧ unit.tree.Counted blockSource tokens ∧
      Location.CountedIn blockSource ⟨2, 4, 28⟩ ∧ ¬Location.CountedIn blockSource ⟨1, 29, 28⟩ := by
  have computed : (read blockSource).outcome.toOption.map
        (fun unit => unit.types.flatMap TypeDecl.fieldSpans) =
      some [⟨⟨1, 11, 10⟩, ⟨1, 29, 28⟩⟩, ⟨⟨2, 6, 30⟩, ⟨2, 11, 35⟩⟩] := by
    have signs : blockSource.toList = _ := String.toList_ofList
    rw [read, Token.ofSource, Piece.ofSource, signs]
    decide +kernel
  obtain ⟨unit, ended, spans⟩ := Option.map_eq_some_iff.mp computed
  have returned := toOption_eq_some ended
  obtain ⟨tokens, lexed, counted⟩ := span_ends_counted_unless_broken returned
  have there : Location.CountedIn blockSource ⟨2, 4, 28⟩ :=
    Location.counted_of_toList (List.take_append_drop 28 blockSource.toList).symm
  refine ⟨unit, tokens, returned, spans, lexed, counted, there, fun here => ?_⟩
  exact absurd (here.unique there rfl) (by decide)

end TestDouble
