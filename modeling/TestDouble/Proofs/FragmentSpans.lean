import TestDouble.Proofs.RawTexts
import TestDouble.Proofs.SpanNesting

/-!
# Where the spans of fragments end

The span of a statement or an initializer ends where its last token starts, while its text holds that
token as well. So the source between the two offsets of the span is never the text: it lacks the last
token, and where the fragment is one token long it is empty. The text stands where it should, from the
start of the span up to the end of the last token.
-/

namespace TestDouble

/-! ### Texts between offsets -/

namespace Text.Stands

variable {source text more : String} {start stop : Nat}

/-- Two offsets tell how long the text between them is. -/
theorem size_eq (stands : Stands source start stop text) : start + text.utf8ByteSize = stop := by
  obtain ⟨before, after, -, rfl, rfl⟩ := stands
  rw [String.utf8ByteSize_append]

/-- What starts a text stands at the same place, as far as it goes. -/
theorem front (stands : Stands source start stop (text ++ more)) :
    Stands source start (start + text.utf8ByteSize) text := by
  obtain ⟨before, after, rfl, rfl, -⟩ := stands
  refine ⟨before, more ++ after, ?_, rfl, String.utf8ByteSize_append⟩
  simp only [String.append_assoc]

end Text.Stands

/-! ### Fragments -/

namespace Fragment

/-- The span of the fragment ends at its last token, which its text still holds: the text stands in
the source up to the end of this token, and what stands there up to the end of the span lacks it. -/
structure EndsShort (source : String) (tokens : List Token) (f : Fragment) (last : Token)
    (front : String) : Prop where
  member : last ∈ tokens
  stop : f.span.stop = last.location
  text : f.text = front ++ last.text
  whole : Text.Stands source f.span.start.offset last.stopOffset f.text
  short : Text.Stands source f.span.start.offset f.span.stop.offset front
  never : ¬Text.Stands source f.span.start.offset f.span.stop.offset f.text

/-- The text of a fragment ends with its last token. -/
theorem text_endsWith (first : Token) (more : List Token) :
    ∃ front, (ofTokens first more).text = front ++ (more.getLast?.getD first).text := by
  rcases List.eq_nil_or_concat more with rfl | ⟨between, last, rfl⟩
  · exact ⟨"", by simp [ofTokens]⟩
  · refine ⟨(ofTokens first between).text ++ last.leading, ?_⟩
    simp [ofTokens, String.append_assoc]

theorem endsShort_of_run {source : String} {tokens more : List Token} {first : Token}
    (lexed : Token.ofSource source = .ok tokens) (run : first :: more <:+: tokens) :
    ∃ last front, EndsShort source tokens (ofTokens first more) last front := by
  obtain ⟨start, last, isFirst, isLast, stands⟩ := Token.quotes_of_run lexed run
  obtain rfl : first = start := Option.some.inj isFirst
  obtain rfl : more.getLast?.getD first = last := by
    rw [List.getLast?_cons] at isLast
    exact Option.some.inj isLast
  obtain ⟨front, text⟩ := text_endsWith first more
  generalize atEnd : more.getLast?.getD first = last at *
  have member : last ∈ tokens := run.subset (List.mem_of_getLast? isLast)
  have stop : (ofTokens first more).span.stop = last.location := by rw [← atEnd]; rfl
  have positive := (Token.inOrder_of_ofSource lexed).positive last member
  have size := stands.size_eq
  rw [text, String.utf8ByteSize_append] at size
  rw [Token.stopOffset] at size positive
  have upTo : first.location.offset + front.utf8ByteSize = last.location.offset := by omega
  refine ⟨last, front, member, stop, text, stands, ?_, ?_⟩
  · rw [text] at stands
    rw [stop, ← upTo]
    exact stands.front
  · -- Between these offsets there is room for the front alone, and the last token takes some room.
    intro whole
    have room : first.location.offset + _ = _ := whole.size_eq
    rw [text, String.utf8ByteSize_append, stop] at room
    omega

end Fragment

/-- In what is read from a source, the span of every statement and of every initializer ends where its
last token starts, so that the source between its offsets is the text without this token. -/
theorem CompilationUnit.fragment_spans_end_short {source : String} {unit : CompilationUnit}
    (returned : (read source).outcome = .ok unit) :
    ∃ tokens, Token.ofSource source = .ok tokens ∧
      ∀ f, .statement f ∈ unit.raws ∨ .initializer f ∈ unit.raws →
        ∃ last front, f.EndsShort source tokens last front := by
  obtain ⟨tokens, types, lexed, whole⟩ := read_eq_ok returned
  have taken := takenFrom_of_ofTokens (congrArg Prod.snd whole)
  refine ⟨tokens, lexed, fun f member => ?_⟩
  have run : ∃ first more, first :: more <:+: tokens ∧ f = Fragment.ofTokens first more := by
    rcases member with statement | initializer
    · obtain ⟨first, more, run, cut, -⟩ := taken _ statement
      exact ⟨first, more, run, cut⟩
    · exact taken _ initializer
  obtain ⟨first, more, run, rfl⟩ := run
  exact Fragment.endsShort_of_run lexed run

/-- A class with an initializer of one token and a statement of four. -/
private def fragmentSource : String := "class A \x7b int f = 1; void m() \x7b a( b ); \x7d \x7d"

private def Raw.initializer? : Raw → Option Fragment
  | .initializer f => some f
  | _ => none

private def Raw.statement? : Raw → Option Fragment
  | .statement f => some f
  | _ => none

private theorem Raw.mem_initializer? {xs : List Raw} {f : Fragment}
    (member : f ∈ xs.filterMap initializer?) : .initializer f ∈ xs := by
  obtain ⟨x, inList, is⟩ := List.mem_filterMap.mp member
  cases x <;> cases is
  exact inList

private theorem Raw.mem_statement? {xs : List Raw} {f : Fragment}
    (member : f ∈ xs.filterMap statement?) : .statement f ∈ xs := by
  obtain ⟨x, inList, is⟩ := List.mem_filterMap.mp member
  cases x <;> cases is
  exact inList

/-- Between the offsets of the one nothing is left, between those of the other five bytes of six. -/
theorem CompilationUnit.fragment_spans_end_short_of_class :
    ∃ tokens unit, Token.ofSource fragmentSource = .ok tokens ∧
      (read fragmentSource).outcome = .ok unit ∧
      (∃ f last front, .initializer f ∈ unit.raws ∧ f = ⟨"1", ⟨⟨1, 19, 18⟩, ⟨1, 19, 18⟩⟩⟩ ∧
        f.EndsShort fragmentSource tokens last front) ∧
      ∃ f last front, .statement f ∈ unit.raws ∧ f = ⟨"a( b )", ⟨⟨1, 33, 32⟩, ⟨1, 38, 37⟩⟩⟩ ∧
        f.EndsShort fragmentSource tokens last front := by
  have kept : (read fragmentSource).outcome.toOption.map
        (fun unit => (unit.raws.filterMap Raw.initializer?, unit.raws.filterMap Raw.statement?)) =
      some ([⟨"1", ⟨⟨1, 19, 18⟩, ⟨1, 19, 18⟩⟩⟩], [⟨"a( b )", ⟨⟨1, 33, 32⟩, ⟨1, 38, 37⟩⟩⟩]) := by
    have signs : fragmentSource.toList = _ := String.toList_ofList
    rw [read, Token.ofSource, Piece.ofSource, signs]
    decide +kernel
  obtain ⟨unit, found, raws⟩ := Option.map_eq_some_iff.mp kept
  obtain ⟨initializers, statements⟩ := Prod.mk.inj raws
  have returned := toOption_eq_some found
  obtain ⟨tokens, lexed, each⟩ := fragment_spans_end_short returned
  refine ⟨tokens, unit, lexed, returned, ?_, ?_⟩
  · have member := Raw.mem_initializer? (initializers ▸ List.mem_cons_self)
    obtain ⟨last, front, short⟩ := each _ (.inr member)
    exact ⟨_, last, front, member, rfl, short⟩
  · have member := Raw.mem_statement? (statements ▸ List.mem_cons_self)
    obtain ⟨last, front, short⟩ := each _ (.inl member)
    exact ⟨_, last, front, member, rfl, short⟩

end TestDouble
