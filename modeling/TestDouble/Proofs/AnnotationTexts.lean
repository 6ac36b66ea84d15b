import TestDouble.Proofs.DeclarationInverse
import TestDouble.Proofs.LiteralTexts
import TestDouble.Proofs.NestedValues
import TestDouble.Proofs.Seams

/-!
# Annotations are recovered from their text

An annotation is written with its name and, in round brackets, its arguments: values, or keys and values
with a sign of assignment between them. Whatever the values hold in brackets of their own, such a text is
read back with the same name and the same arguments, each value as it was written. What decides this is
that no value has a comma outside of its brackets, and that none looks like a key and a value itself.
-/

namespace TestDouble

/-! ### Items with separators -/

namespace Cursor

/-- Items are read one by one when each of them is read before a separator and before what follows the
last one. -/
theorem sepByTail_of_separated {α : Type} {Item : List Token → α → Prop} {origin : Cursor}
    {separator : Kind} {item : (c : Cursor) → c.size ≤ origin.size → Reading α c}
    (Ends : Cursor → Prop) (parted : ∀ c : Cursor, c.nextKind = some separator → Ends c)
    (each : ∀ c within taken a d, Item taken a → c.Passes taken d → Ends d →
      ∃ h, item c within = .ok ⟨a, d, h⟩) {taken : List Token} {items : List α}
    (separated : Separated Item separator taken items) {c d : Cursor}
    (within : c.size ≤ origin.size) (passes : c.Passes taken d) (ends : Ends d)
    (last : d.nextKind ≠ some separator) (read : List α) :
    ∃ h, sepByTail origin separator item c within read = .ok ⟨read.reverse ++ items, d, h⟩ := by
  induction separated generalizing c read with
  | one here =>
    obtain ⟨h, itemRead⟩ := each c within _ _ d here passes ends
    refine ⟨by omega, ?_⟩
    rw [sepByTail, itemRead, ok_bind]
    simp only [accept?_eq_none last, List.reverse_cons]
    rfl
  | @more taken rest t a items here kind _ ih =>
    obtain ⟨c₁, passedItem, others⟩ := passes.split
    obtain ⟨c₂, passedSign, others⟩ := others.uncons
    obtain ⟨h₁, itemRead⟩ := each c within _ _ c₁ here passedItem
      (parted c₁ (by rw [passedSign.nextKind, kind]))
    obtain ⟨h₂, accepted⟩ := passedSign.accept? kind
    obtain ⟨h, tail⟩ := ih (by omega) others (a :: read)
    refine ⟨h, ?_⟩
    rw [sepByTail, itemRead, ok_bind]
    simp only [accepted, tail, List.reverse_cons, List.append_assoc]
    rfl

end Cursor

/-! ### Names -/

namespace Munch

/-- A word that is not reserved is a token where its end shows. -/
theorem scan_identifier {w : String} (identifier : IsIdentifier w) {rest : List Char}
    (ended : ends rest = true) :
    scan [] (w.toList ++ rest) = (scan [] rest).map (⟨.identifier, w, ""⟩ :: ·) := by
  rw [scan, pieces_word identifier.word ended, identifier.free, marks]
  simp [Kind.isTrivia, scan]

/-- The marks of a dotted name, which has nothing skipped between its words and dots. -/
theorem exists_marks_of_dotted {name : String} (dotted : Dotted IsIdentifier name) :
    ∃ ms, ms.map Mark.lexeme = Lexeme.name name ∧ name.toList = Mark.spread ms ∧
      ∀ rest, ends rest = true → scan [] (name.toList ++ rest) = (scan [] rest).map (ms ++ ·) := by
  induction dotted with
  | @one w identifier =>
    refine ⟨[⟨.identifier, w, ""⟩], ?_, by simp [Mark.spread], fun rest ended => ?_⟩
    · rw [Lexeme.name_word identifier.word, Lexeme.word, identifier.free]
      rfl
    · rw [scan_identifier identifier ended]
      rfl
  | @more name w _ identifier ih =>
    obtain ⟨ms, lexemes, whole, scanned⟩ := ih
    refine ⟨ms ++ [⟨.dot, ".", ""⟩, ⟨.identifier, w, ""⟩], ?_, ?_, fun rest ended => ?_⟩
    · rw [Lexeme.name_more _ identifier.word, List.map_append, lexemes, Lexeme.word, identifier.free]
      rfl
    · rw [Mark.spread_append, ← whole]
      simp [Mark.spread]
    · obtain ⟨c, more, chars⟩ := List.exists_cons_of_ne_nil identifier.word.nonempty
      have notDot : c ≠ '.' := by
        rintro rfl
        exact identifier.word.dot_not_mem (by simp [chars])
      -- The dot ends the word before it, and the word behind it keeps it a single dot.
      have dot : scan [] ('.' :: (w.toList ++ rest)) =
          (scan [] (w.toList ++ rest)).map (⟨.dot, ".", ""⟩ :: ·) := by
        rw [scan, chars, List.cons_append, pieces_dot notDot, marks]
        simp [Kind.isTrivia, scan]
      have split : (name ++ "." ++ w).toList ++ rest = name.toList ++ '.' :: (w.toList ++ rest) := by
        simp [String.toList_append]
      rw [split, scanned _ (ends_of_mem_signs (by decide) _), dot, scan_identifier identifier ended]
      simp [Function.comp_def]

theorem ends_of_parts {d : Char} (parted : parts d = true) (rest : List Char) :
    ends (d :: rest) = true := by
  have apart : (!ends [d]) = false :=
    eq_false_of_parts (p := fun d => !ends [d]) (by decide +kernel) parted
  rw [Bool.not_eq_false'] at apart
  exact apart

theorem stretch_of_dotted {name : String} (dotted : Dotted IsIdentifier name) :
    ∃ ms, ms.map Mark.lexeme = Lexeme.name name ∧ Stretch name.toList ms [] := by
  obtain ⟨ms, lexemes, whole, scanned⟩ := exists_marks_of_dotted dotted
  exact ⟨ms, lexemes, by rw [whole, List.append_nil], fun d more parted =>
    scanned _ (ends_of_parts parted more)⟩

end Munch

/-! ### Arguments as they are written -/

namespace Token.MakeUp

instance (tokens : List Token) (text : String) : Decidable (MakeUp tokens text) :=
  decidable_of_iff ((ofSource text).toOption = some tokens ∧ tokens ≠ [] ∧
      (∀ first, tokens.head? = some first → first.leading = "") ∧
      text.toList = Mark.spread (tokens.map mark))
    ⟨fun ⟨lexed, nonempty, leading, spread⟩ => ⟨toOption_eq_some lexed, nonempty, leading, spread⟩,
      fun made => ⟨by rw [made.lexed]; rfl, made.nonempty, made.leading, made.spread⟩⟩

/-- Whether a text is made up of tokens of some sort can be told from the tokens it is taken apart into. -/
instance (text : String) (p : List Token → Prop) [DecidablePred p] :
    Decidable (∃ ts, MakeUp ts text ∧ p ts) :=
  decidable_of_iff (∃ ts ∈ (ofSource text).toOption, MakeUp ts text ∧ p ts)
    ⟨fun ⟨ts, _, both⟩ => ⟨ts, both⟩, fun ⟨ts, made, holds⟩ =>
      ⟨ts, by rw [made.lexed]; rfl, made, holds⟩⟩

end Token.MakeUp

namespace AnnotationArgument

/-- The argument as it is written in a source. -/
def spelling : AnnotationArgument → String
  | .value v => v
  | .named k v => k ++ " = " ++ v

/-- The argument can be written. Its value is a text with nothing skipped before its first token or
behind its last one, whose brackets are nested, with no comma outside of them; a key is a word that is
not reserved, and a value without a key does not look like one that has a key. -/
def Writable : AnnotationArgument → Prop
  | .value v => ∃ ts, Token.MakeUp ts v ∧ Token.IsValue [.comma] ts ∧
      ¬[Kind.identifier, .assign] <+: ts.map Token.kind
  | .named k v => IsIdentifier k ∧ ∃ ts, Token.MakeUp ts v ∧ Token.IsValue [.comma] ts

instance : DecidablePred Writable
  | .value v => inferInstanceAs (Decidable (∃ ts, Token.MakeUp ts v ∧ Token.IsValue [.comma] ts ∧
      ¬[Kind.identifier, .assign] <+: ts.map Token.kind))
  | .named k v =>
    inferInstanceAs (Decidable (IsIdentifier k ∧ ∃ ts, Token.MakeUp ts v ∧ Token.IsValue [.comma] ts))

/-- The tokens are those of the argument: of its value alone, or of a key, a sign of assignment and its
value. -/
inductive Shows : List Token → AnnotationArgument → Prop where
  | value {ts : List Token} : Token.IsValue [.comma] ts →
      ¬[Kind.identifier, .assign] <+: ts.map Token.kind → Shows ts (.value (Mark.quote (ts.map Token.mark)))
  | named {key sign : Token} {ts : List Token} : key.kind = .identifier → sign.kind = .assign →
      Token.IsValue [.comma] ts → Shows (key :: sign :: ts) (.named key.text (Mark.quote (ts.map Token.mark)))

end AnnotationArgument

theorem Mark.quote_behind (left : List Char) (ms : List Mark) : quote (behind left ms) = quote ms := by
  cases ms <;> rfl

theorem Mark.behind_nil (ms : List Mark) : behind [] ms = ms := by
  cases ms <;> simp [behind]

theorem Mark.map_kind_behind (left : List Char) (ms : List Mark) :
    (behind left ms).map kind = ms.map kind := by
  cases ms <;> rfl

namespace Token.MakeUp

variable {ts taken : List Token} {v : String}

theorem stretch (made : MakeUp ts v) : Munch.Stretch v.toList (ts.map mark) [] :=
  .of_spread made.strung made.spread

theorem quote_eq (made : MakeUp ts v) : Mark.quote (ts.map mark) = v := by
  obtain ⟨first, more, rfl⟩ := List.exists_cons_of_ne_nil made.nonempty
  have leading : first.leading = "" := made.leading first rfl
  rw [← String.toList_inj, made.spread, List.map_cons, Mark.toList_quote, Mark.spread_cons]
  simp [mark, leading]

/-- Tokens with these marks have the kinds and the text of the value. -/
theorem of_marks (made : MakeUp ts v) {left : List Char}
    (marked : taken.map mark = Mark.behind left (ts.map mark)) :
    taken.map kind = ts.map kind ∧ Mark.quote (taken.map mark) = v := by
  constructor
  · have kinds := congrArg (List.map Mark.kind) marked
    rwa [Mark.map_kind_behind, List.map_map, List.map_map] at kinds
  · rw [marked, Mark.quote_behind, made.quote_eq]

end Token.MakeUp

namespace AnnotationArgument

open Munch (Stretch Sealed)

/-- The spelling of an argument is taken apart into its tokens. -/
theorem Writable.stretch {a : AnnotationArgument} (writable : a.Writable) :
    ∃ ms, ms ≠ [] ∧ Stretch a.spelling.toList ms [] ∧
      ∀ left taken, taken.map Token.mark = Mark.behind left ms → Shows taken a := by
  cases a with
  | value v =>
    obtain ⟨ts, made, value, noKey⟩ := writable
    refine ⟨ts.map Token.mark, by simp [made.nonempty], made.stretch, fun left taken marked => ?_⟩
    obtain ⟨kinds, text⟩ := made.of_marks marked
    rw [← text]
    exact .value (value.of_kinds kinds) (kinds ▸ noKey)
  | named k v =>
    obtain ⟨identifier, ts, made, value⟩ := writable
    obtain ⟨ns, lexemes, key⟩ := Munch.stretch_of_dotted (.one identifier)
    rw [Lexeme.name_word identifier.word, Lexeme.word, identifier.free] at lexemes
    -- The key is one token, so what it is taken apart into is one mark.
    obtain ⟨key_, rfl⟩ : ∃ m, ns = [m] := List.length_eq_one_iff.mp (by
      simpa using congrArg List.length lexemes)
    have isKey : key_.lexeme = ⟨.identifier, k⟩ := List.head_eq_of_cons_eq lexemes
    have sign : Stretch ['='] [⟨.assign, "=", ""⟩] [] :=
      ⟨by simp [Mark.spread], fun d more _ => Munch.scan_sign rfl rfl [] (d :: more)⟩
    have nonempty : ts.map Token.mark ≠ [] := by simp [made.nonempty]
    have whole := (key.blank sign (by simp)).blank made.stretch nonempty
    have spelled : (spelling (.named k v)).toList = k.toList ++ ' ' :: ['='] ++ ' ' :: v.toList := by
      simp [spelling]
    rw [← spelled] at whole
    refine ⟨_, ?_, whole, fun left taken marked => ?_⟩
    · simp
    · obtain ⟨first, taken, rfl, isFirst, marked⟩ := List.map_eq_cons_iff.mp marked
      obtain ⟨second, taken, rfl, isSecond, marked⟩ := List.map_eq_cons_iff.mp marked
      obtain ⟨kinds, text⟩ := made.of_marks marked
      have kind : first.kind = .identifier := (congrArg Mark.kind isFirst).trans (congrArg Lexeme.kind isKey)
      have keyText : first.text = k := (congrArg Mark.text isFirst).trans (congrArg Lexeme.text isKey)
      rw [← text, ← keyText]
      exact .named kind (congrArg Mark.kind isSecond) (value.of_kinds kinds)

/-- Arguments in their order, with a comma and a blank between two of them. -/
def spellingAll (arguments : List AnnotationArgument) : String :=
  String.intercalate ", " (arguments.map spelling)

/-- So are several arguments up to the bracket that closes them. -/
theorem sealed_of_writable {arguments : List AnnotationArgument} (nonempty : arguments ≠ [])
    (writable : ∀ a ∈ arguments, a.Writable) :
    ∃ ms, ms ≠ [] ∧ Sealed ((spellingAll arguments).toList ++ [')']) ms ∧
      ∀ left taken, taken.map Token.mark = Mark.behind left ms → ∃ inner closing,
        taken = inner ++ [closing] ∧ closing.kind = .rightParen ∧
          Cursor.Separated Shows .comma inner arguments := by
  induction arguments with
  | nil => exact absurd rfl nonempty
  | cons a arguments ih =>
    obtain ⟨here, writable⟩ := List.forall_mem_cons.mp writable
    obtain ⟨ms, some_, stretch, shows_⟩ := here.stretch
    -- What seals an argument is the bracket behind the last one and a comma behind any other.
    cases arguments with
    | nil =>
      refine ⟨_, by simp, stretch.sealed (d := ')') rfl rfl rfl, fun left taken marked => ?_⟩
      rw [Mark.behind_append some_] at marked
      obtain ⟨inner, rest, rfl, isInner, isRest⟩ := List.map_eq_append_iff.mp marked
      obtain ⟨closing, none, rfl, isClosing, isNone⟩ := List.map_eq_cons_iff.mp isRest
      obtain rfl := List.map_eq_nil_iff.mp isNone
      exact ⟨inner, closing, rfl, congrArg Mark.kind isClosing, .one (shows_ left inner isInner)⟩
    | cons b arguments =>
      obtain ⟨ns, someMore, sealed_, showsMore⟩ := ih (by simp) writable
      have whole := (stretch.sealed (d := ',') rfl rfl rfl).append (sealed_.blank someMore)
      have spelled : (spellingAll (a :: b :: arguments)).toList ++ [')'] =
          a.spelling.toList ++ [','] ++ ' ' :: ((spellingAll (b :: arguments)).toList ++ [')']) := by
        simp [spellingAll]
      rw [← spelled] at whole
      refine ⟨_, ?_, whole, fun left taken marked => ?_⟩
      · simp
      · rw [Mark.behind_append (by simp), Mark.behind_append some_, List.append_assoc] at marked
        obtain ⟨first, rest, rfl, isFirst, isRest⟩ := List.map_eq_append_iff.mp marked
        obtain ⟨comma, rest, rfl, isComma, isRest⟩ := List.map_eq_cons_iff.mp isRest
        obtain ⟨inner, closing, rfl, closes, separated⟩ := showsMore [' '] rest isRest
        exact ⟨first ++ comma :: inner, closing, by simp, closes,
          .more (shows_ left first isFirst) (congrArg Mark.kind isComma) separated⟩

end AnnotationArgument

/-! ### Reading them back -/

namespace Annotation

open AnnotationArgument (Shows)

variable {c d : Cursor} {taken : List Token} {a : AnnotationArgument}

/-- Where a value ends: before a comma or the bracket that closes the arguments. -/
def EndsArgument (d : Cursor) : Prop := d.nextKind = some .comma ∨ d.nextKind = some .rightParen

/-- A value is read up to there, and its text is that of its tokens. -/
theorem readValue_of_isValue (value : Token.IsValue [.comma] taken) (passes : c.Passes taken d)
    (ends : EndsArgument d) : ∃ f h, Fragment.readValue c "annotation value" atComma = .ok ⟨f, d, h⟩ ∧
      f.text = Mark.quote (taken.map Token.mark) := by
  have only (t : Token) (rest : List Token) (stops : atComma (t :: rest) = true) :
      t.kind ∈ [Kind.comma] := by
    simpa [atComma] using stops
  obtain ⟨next, others, ahead, kind⟩ : ∃ next others, d.ahead = next :: others ∧
      (next.kind = .comma ∨ next.kind = .rightParen) := by
    obtain ⟨last, _ | ⟨next, others⟩⟩ := d
    · simp [EndsArgument, Cursor.nextKind] at ends
    · exact ⟨next, others, rfl, by simpa [EndsArgument, Cursor.nextKind] using ends⟩
  obtain ⟨f, h, read, same⟩ := Fragment.readValue_of_isValue only value passes ahead
    (by rcases kind with kind | kind <;> rw [kind] <;> rfl)
    (by rcases kind with kind | kind <;> simp [kind, atComma, Kind.closes]) "annotation value"
  refine ⟨f, h, read, ?_⟩
  obtain ⟨first, more, rfl⟩ := List.exists_cons_of_ne_nil value.nonempty
  obtain rfl := Option.some.inj same
  exact Fragment.text_ofTokens first more

/-- Whether a key and a sign of assignment come next decides how an argument is read. -/
theorem readArgument_of_noKey {f : Fragment} {h : d.size < c.size}
    (noKey : ∀ key sign rest, c.ahead = key :: sign :: rest →
      ¬(key.kind = .identifier ∧ sign.kind = .assign))
    (read : Fragment.readValue c "annotation value" atComma = .ok ⟨f, d, h⟩) :
    readArgument c = .ok ⟨.value f.text, d, h⟩ := by
  unfold readArgument
  split
  next last key sign rest =>
    rw [if_neg (noKey key sign rest rfl)]
    exact bind_of_ok read rfl
  next => exact bind_of_ok read rfl

theorem readArgument_of_key {last : Option Token} {key sign : Token} {rest : List Token} {f : Fragment}
    (isKey : key.kind = .identifier) (isSign : sign.kind = .assign)
    {h : d.size < Cursor.size ⟨some sign, rest⟩}
    (read : Fragment.readValue ⟨some sign, rest⟩ "annotation value" atComma = .ok ⟨f, d, h⟩) :
    ∃ h, readArgument ⟨last, key :: sign :: rest⟩ = .ok ⟨.named key.text f.text, d, h⟩ := by
  have shorter : d.size < Cursor.size ⟨last, key :: sign :: rest⟩ := by
    simp only [Cursor.size, List.length_cons] at h ⊢
    omega
  refine ⟨shorter, ?_⟩
  exact (if_pos ⟨isKey, isSign⟩).trans (bind_of_ok read rfl)

theorem readArgument_of_shows (shows_ : Shows taken a) (passes : c.Passes taken d)
    (ends : EndsArgument d) : ∃ h, readArgument c = .ok ⟨a, d, h⟩ := by
  cases shows_ with
  | value value noKey =>
    obtain ⟨f, h, read, text⟩ := readValue_of_isValue value passes ends
    rw [← text]
    refine ⟨h, readArgument_of_noKey ?_ read⟩
    -- What looks like a key and its sign would stand in the value or reach behind it.
    rintro key sign rest ahead ⟨isKey, isSign⟩
    have split : key :: sign :: rest = taken ++ d.ahead := ahead.symm.trans passes.ahead
    rcases taken with _ | ⟨t, _ | ⟨u, more⟩⟩
    · exact value.nonempty rfl
    · have behind : sign :: rest = d.ahead := (List.cons.inj split).2
      simp [EndsArgument, Cursor.nextKind, ← behind, isSign] at ends
    · obtain ⟨rfl, later⟩ := List.cons.inj split
      obtain ⟨rfl, -⟩ := List.cons.inj later
      exact noKey ⟨more.map Token.kind, by simp [isKey, isSign]⟩
  | @named key sign ts isKey isSign value =>
    have passes : c.Passes ([key, sign] ++ ts) d := passes
    obtain ⟨c₁, passedKey, passedValue⟩ := passes.split
    obtain ⟨f, h, read, text⟩ := readValue_of_isValue value passedValue ends
    rw [← text]
    obtain ⟨last, ahead⟩ := c
    obtain rfl : ahead = key :: sign :: c₁.ahead := passedKey.ahead
    obtain ⟨last₁, ahead₁⟩ := c₁
    obtain rfl : last₁ = some sign := passedKey.last
    exact readArgument_of_key isKey isSign read

/-- Nothing that closes a bracket starts an argument. -/
theorem not_rightParen_of_shows (shows_ : Shows taken a) (more : List Token) :
    (taken ++ more).head?.map Token.kind ≠ some .rightParen := by
  cases shows_ with
  | value value _ =>
    obtain ⟨t, ts, rfl⟩ := List.exists_cons_of_ne_nil value.nonempty
    obtain ⟨awaited, nests, -⟩ := Token.nested_cons_iff.mp value.nested
    intro closing
    have kind : t.kind = .rightParen := Option.some.inj closing
    exact absurd (nests.pos_of_closes (by rw [kind]; rfl)) (Nat.lt_irrefl 0)
  | named isKey _ _ =>
    intro closing
    have kind := isKey.symm.trans (Option.some.inj closing)
    cases kind

theorem readArguments_of_separated {arguments : List AnnotationArgument} {inner : List Token}
    {closing : Token} (separated : Cursor.Separated Shows .comma inner arguments)
    (closes : closing.kind = .rightParen) (passes : c.Passes (inner ++ [closing]) d) :
    ∃ h, readArguments c = .ok ⟨arguments, d, h⟩ := by
  obtain ⟨c₁, passedInner, passedClosing⟩ := passes.split
  have next : c₁.nextKind = some .rightParen := by rw [passedClosing.nextKind, closes]
  have some_ : c.sees [.rightParen] = false := by
    have notClosing : c.nextKind ≠ some .rightParen := by
      rw [Cursor.nextKind, passedInner.ahead]
      cases separated with
      | one shows_ => exact not_rightParen_of_shows shows_ _
      | more shows_ _ _ =>
        rw [List.append_assoc]
        exact not_rightParen_of_shows shows_ _
    rw [Cursor.sees_one]
    simpa using notClosing
  obtain ⟨h₁, listed⟩ := Cursor.sepByTail_of_separated EndsArgument (fun _ comma => .inl comma)
    (fun _ _ _ _ _ shows_ passes ends => readArgument_of_shows shows_ passes ends) separated c.size_le
    passedInner (.inr next) (by simp [next]) []
  obtain ⟨h₂, accepted⟩ := passedClosing.accept? closes
  have read : c.sepBy .comma (fun c' _ => readArgument c') = .ok ⟨arguments, c₁, h₁⟩ := listed
  have expected : c₁.expect .rightParen "')' after annotation arguments" = .ok ⟨closing, d, h₂⟩ := by
    rw [Cursor.expect, accepted]
  refine ⟨by omega, ?_⟩
  rw [readArguments, some_, if_neg (by decide), read]
  exact bind_of_ok rfl (bind_of_ok expected rfl)

/-- The annotation as it is written in a source. -/
def spelling (name : String) (arguments : List AnnotationArgument) : String :=
  "@" ++ name ++ "(" ++ AnnotationArgument.spellingAll arguments ++ ")"

/-- An annotation is read from its sign, its name and its arguments in brackets. -/
theorem read_of_separated {name : String} (dotted : Dotted IsIdentifier name)
    {arguments : List AnnotationArgument} {sign paren closing : Token} {words inner : List Token}
    (isSign : sign.kind = .atSign) (named : words.map Token.lexeme = Lexeme.name name)
    (opens : paren.kind = .leftParen) (closes : closing.kind = .rightParen)
    (separated : Cursor.Separated Shows .comma inner arguments)
    (passes : c.Passes (sign :: (words ++ paren :: (inner ++ [closing]))) d) :
    ∃ a h, read c = .ok ⟨a, d, h⟩ ∧ a.name = name ∧ a.arguments = arguments := by
  obtain ⟨c₁, passedSign, passes⟩ := passes.uncons
  obtain ⟨c₂, passedName, passes⟩ := passes.split
  obtain ⟨c₃, passedParen, passes⟩ := passes.uncons
  obtain ⟨h₁, acceptedSign⟩ := passedSign.accept? isSign
  obtain ⟨h₂, nameRead⟩ := Cursor.dottedName_of_spells dotted ⟨words, passedName, named⟩
    (by rw [passedParen.nextKind, opens]; exact nofun)
  obtain ⟨h₃, acceptedParen⟩ := passedParen.accept? opens
  obtain ⟨h₄, listed⟩ := readArguments_of_separated separated closes passes
  have expected : c.expect .atSign "'@'" = .ok ⟨sign, c₁, h₁⟩ := by rw [Cursor.expect, acceptedSign]
  have shorter : d.size < c.size := by omega
  refine ⟨⟨name, arguments, ⟨c.location, d.lastStop⟩⟩, shorter, ?_, rfl, rfl⟩
  rw [read, expected, ok_bind]
  simp only [nameRead, ok_bind, Cursor.clause, acceptedParen, listed]
  rfl

end Annotation

/-! ### Where arguments are looked up -/

namespace AnnotationArgument

/-- The argument has this key, or it has none and the key is `value`. -/
def AnswersTo (key : String) : AnnotationArgument → Prop
  | .value _ => key = "value"
  | .named k _ => k = key

instance (key : String) : DecidablePred (AnswersTo key)
  | .value _ => inferInstanceAs (Decidable (key = "value"))
  | .named k _ => inferInstanceAs (Decidable (k = key))

theorem answer?_eq (key : String) (a : AnnotationArgument) :
    a.answer? key = if a.AnswersTo key then some a.text else none := by
  cases a <;> rfl

end AnnotationArgument

/-- What is found under a key is the value of the first argument that answers to it. -/
theorem Annotation.argument?_eq_find? (a : Annotation) (key : String) :
    a.argument? key = (a.arguments.find? (·.AnswersTo key)).map AnnotationArgument.text := by
  rw [argument?]
  induction a.arguments with
  | nil => rfl
  | cons first others ih =>
    rw [List.findSome?_cons, List.find?_cons, AnnotationArgument.answer?_eq, ih]
    by_cases answers : first.AnswersTo key <;> simp [answers]

/-! ### The whole text -/

/-- A sealed text is found at the start of any source that goes on behind it. -/
theorem Token.exists_of_sealed {text rest : String} {m : Mark} {ms : List Mark} {after : List Token}
    (sealed_ : Munch.Sealed text.toList (m :: ms)) (leading : m.leading = "")
    (lexed : ofSource rest = .ok after) :
    ∃ own behind, ofSource (text ++ rest) = .ok (own ++ behind) ∧ own.map mark = m :: ms ∧
      behind.map mark = after.map mark ∧ Quotes (text ++ rest) own text := by
  have scanned : Munch.scan [] (text ++ rest).toList = some (m :: ms ++ after.map mark) := by
    rw [String.toList_append, sealed_.before, scan_of_ofSource lexed]
    rfl
  obtain ⟨tokens, whole, marked⟩ := ofSource_of_scan scanned
  obtain ⟨own, behind, rfl, isOwn, isBehind⟩ := List.map_eq_append_iff.mp marked
  refine ⟨own, behind, whole, isOwn, isBehind, ?_⟩
  obtain ⟨first, more, rfl, -, -⟩ := List.map_eq_cons_iff.mp isOwn
  have quotes := quotes_of_run whole (List.prefix_append _ behind).isInfix
  have same : (Fragment.ofTokens first more).text = text := by
    rw [Fragment.text_ofTokens, isOwn, ← String.toList_inj, Mark.toList_quote, sealed_.whole,
      Mark.spread_cons, leading]
    simp
  rwa [same] at quotes

/-- An annotation that is written with arguments is taken apart into tokens of its own, whatever follows
it, and wherever these tokens stand they are read as this annotation, to the last of them. What is found
under a key is the value of the first argument that answers to it. -/
theorem Annotation.read_recovers_arguments {name : String} (dotted : Dotted IsIdentifier name)
    {arguments : List AnnotationArgument} (nonempty : arguments ≠ [])
    (writable : ∀ a ∈ arguments, a.Writable) {rest : String} {after : List Token}
    (lexed : Token.ofSource rest = .ok after) :
    ∃ own behind, Token.ofSource (spelling name arguments ++ rest) = .ok (own ++ behind) ∧
      behind.map Token.mark = after.map Token.mark ∧
      Token.Quotes (spelling name arguments ++ rest) own (spelling name arguments) ∧
      ∀ left taken c d, taken.map Token.mark = Mark.behind left (own.map Token.mark) →
        c.Passes taken d → ∃ a h, read c = .ok ⟨a, d, h⟩ ∧ a.name = name ∧ a.arguments = arguments ∧
          ∀ key, a.argument? key =
            (arguments.find? (·.AnswersTo key)).map AnnotationArgument.text := by
  obtain ⟨ns, lexemes, stretch⟩ := Munch.stretch_of_dotted dotted
  obtain ⟨ms, -, sealed_, separated⟩ := AnnotationArgument.sealed_of_writable nonempty writable
  have sign : Munch.Sealed ['@'] [⟨.atSign, "@", ""⟩] := .sign rfl rfl
  have whole := sign.append ((stretch.sealed (d := '(') rfl rfl rfl).append sealed_)
  have spelled : (spelling name arguments).toList =
      ['@'] ++ (name.toList ++ ['('] ++ ((AnnotationArgument.spellingAll arguments).toList ++ [')'])) := by
    simp [spelling]
  rw [← spelled] at whole
  obtain ⟨own, behind, wholeLexed, isOwn, isBehind, quotes⟩ :=
    Token.exists_of_sealed whole rfl lexed
  refine ⟨own, behind, wholeLexed, isBehind, quotes, fun left taken c d marked passes => ?_⟩
  -- The tokens are cut as the text was put together: the sign, the name, the bracket, the arguments.
  rw [isOwn] at marked
  obtain ⟨first, taken, rfl, isFirst, marked⟩ := List.map_eq_cons_iff.mp marked
  have marked : taken.map Token.mark = ns ++ [⟨.leftParen, "(", ""⟩] ++ ms := marked
  obtain ⟨front, inner, rfl, isFront, isInner⟩ := List.map_eq_append_iff.mp marked
  obtain ⟨words, bracket, rfl, isName, isBracket⟩ := List.map_eq_append_iff.mp isFront
  obtain ⟨paren, none, rfl, isParen, isNone⟩ := List.map_eq_cons_iff.mp isBracket
  obtain rfl := List.map_eq_nil_iff.mp isNone
  obtain ⟨inner, closing, rfl, closes, separated⟩ :=
    separated [] inner (by rw [isInner, Mark.behind_nil])
  have named : words.map Token.lexeme = Lexeme.name name := by
    rw [← lexemes, ← isName, List.map_map]
    rfl
  have opens : paren.kind = .leftParen := congrArg Mark.kind isParen
  obtain ⟨a, h, read, isName, isArguments⟩ := read_of_separated dotted (congrArg Mark.kind isFirst)
    named opens closes separated (by simpa using passes)
  exact ⟨a, h, read, isName, isArguments, fun key => by rw [argument?_eq_find?, isArguments]⟩

/-- A value with a call and braces, a value under a key that is an annotation itself, and one more under
the key of the first. -/
private def sampleArguments : List AnnotationArgument :=
  [.value "f(x, \x7b 1, 2 \x7d)", .named "k" "@C(v = 1, w)", .named "value" "\"a, b\""]

/-- The commas in brackets and in quotes part no arguments, and the first value is the one found. -/
theorem Annotation.read_recovers_arguments_of_sample :
    ∃ own behind, Token.ofSource "@a.B(f(x, \x7b 1, 2 \x7d), k = @C(v = 1, w), value = \"a, b\") int x;" =
        .ok (own ++ behind) ∧
      ∃ a h, read (.start (own ++ behind)) = .ok ⟨a, ⟨own.getLast?, behind⟩, h⟩ ∧ a.name = "a.B" ∧
        a.arguments = sampleArguments ∧ a.argument? "value" = some "f(x, \x7b 1, 2 \x7d)" ∧
        a.argument? "k" = some "@C(v = 1, w)" ∧ a.argument? "w" = none := by
  have dotted : Dotted IsIdentifier ("a" ++ "." ++ "B") := .more (.one (by decide)) (by decide)
  have writable : ∀ a ∈ sampleArguments, a.Writable := by decide +kernel
  have follows : (Token.ofSource " int x;").toOption.isSome = true := by decide +kernel
  obtain ⟨after, found⟩ := Option.isSome_iff_exists.mp follows
  obtain ⟨own, behind, lexed, -, -, recovered⟩ :=
    read_recovers_arguments dotted (by decide) writable (toOption_eq_some found)
  obtain ⟨a, h, returned, name, arguments, answers⟩ := recovered [] own (.start (own ++ behind))
    ⟨own.getLast?, behind⟩ (Mark.behind_nil _).symm ⟨rfl, by simp [Cursor.start]⟩
  refine ⟨own, behind, lexed, a, h, returned, name, arguments, ?_, ?_, ?_⟩ <;>
    · rw [answers]
      decide

end TestDouble
