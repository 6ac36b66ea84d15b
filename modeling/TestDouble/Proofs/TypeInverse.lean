import TestDouble.Proofs.Acceptance
import TestDouble.Proofs.TypeReading

/-!
# Types and their text

Where the lexemes of a type come next, that type is read, up to its spans. With what is known of
types that were read this makes the text of types and the reading of types inverse to each other.
-/

namespace TestDouble

mutual

/-- The type with all places left out. -/
def TypeRef.withoutSpans : TypeRef → TypeRef
  | ⟨name, arguments, dimensions, none, _⟩ =>
    ⟨name, TypeArgument.allWithoutSpans arguments, dimensions, none, .synthetic⟩
  | ⟨name, arguments, dimensions, some outer, _⟩ =>
    ⟨name, TypeArgument.allWithoutSpans arguments, dimensions, some outer.withoutSpans, .synthetic⟩

def TypeArgument.withoutSpans : TypeArgument → TypeArgument
  | .type type => .type type.withoutSpans
  | .wildcard _ => .wildcard .synthetic
  | .bounded kind bound _ => .bounded kind bound.withoutSpans .synthetic

def TypeArgument.allWithoutSpans : List TypeArgument → List TypeArgument
  | [] => []
  | argument :: rest => argument.withoutSpans :: TypeArgument.allWithoutSpans rest

end

theorem TypeArgument.allWithoutSpans_eq_map (arguments : List TypeArgument) :
    allWithoutSpans arguments = arguments.map withoutSpans := by
  induction arguments with
  | nil => rfl
  | cons argument rest ih => rw [allWithoutSpans, ih, List.map_cons]

theorem TypeRef.withoutSpans_mk (name : String) (arguments : List TypeArgument) (dimensions : Nat)
    (enclosing : Option TypeRef) (span : Span) :
    (TypeRef.mk name arguments dimensions enclosing span).withoutSpans =
      ⟨name, arguments.map TypeArgument.withoutSpans, dimensions, enclosing.map TypeRef.withoutSpans,
        .synthetic⟩ := by
  cases enclosing <;> simp [withoutSpans, TypeArgument.allWithoutSpans_eq_map]

theorem TypeRef.rawName_withoutSpans (t : TypeRef) : t.withoutSpans.rawName = t.rawName := by
  obtain ⟨name, arguments, dimensions, enclosing, span⟩ := t
  cases enclosing with
  | none => rw [withoutSpans, rawName, rawName]
  | some outer => rw [withoutSpans, rawName, rawName, outer.rawName_withoutSpans]

mutual

theorem TypeRef.text_withoutSpans : (t : TypeRef) → t.withoutSpans.text = t.text
  | ⟨name, arguments, dimensions, none, span⟩ => by
    rw [TypeRef.withoutSpans, TypeRef.text, TypeRef.text, TypeArgument.texts_allWithoutSpans]
  | ⟨name, arguments, dimensions, some outer, span⟩ => by
    rw [TypeRef.withoutSpans, TypeRef.text, TypeRef.text, TypeArgument.texts_allWithoutSpans,
      outer.text_withoutSpans]

theorem TypeArgument.texts_allWithoutSpans : (arguments : List TypeArgument) →
    (written : List String) →
    TypeArgument.texts (TypeArgument.allWithoutSpans arguments) written =
      TypeArgument.texts arguments written
  | [], written => by rw [TypeArgument.allWithoutSpans]
  | .type type :: rest, written => by
    rw [TypeArgument.allWithoutSpans, TypeArgument.withoutSpans, TypeArgument.texts,
      TypeArgument.texts, TypeArgument.text, TypeArgument.text, type.text_withoutSpans,
      TypeArgument.texts_allWithoutSpans rest]
  | .wildcard _ :: rest, written => by
    rw [TypeArgument.allWithoutSpans, TypeArgument.withoutSpans, TypeArgument.texts,
      TypeArgument.texts, TypeArgument.text, TypeArgument.text,
      TypeArgument.texts_allWithoutSpans rest]
  | .bounded _ bound _ :: rest, written => by
    rw [TypeArgument.allWithoutSpans, TypeArgument.withoutSpans, TypeArgument.texts,
      TypeArgument.texts, TypeArgument.text, TypeArgument.text, bound.text_withoutSpans,
      TypeArgument.texts_allWithoutSpans rest]

end

namespace Cursor

/-- What comes next cannot belong to a type that ends here. -/
def EndsType (c : Cursor) : Prop :=
  c.nextKind ≠ some .less ∧ c.nextKind ≠ some .dot ∧ c.nextKind ≠ some .leftBracket ∧
    c.nextKind ≠ some .atSign

/-- What comes next ends a type argument. -/
def EndsArgument (c : Cursor) : Prop := c.nextKind = some .comma ∨ c.nextKind = some .greater

theorem EndsArgument.endsType {c : Cursor} (ends : c.EndsArgument) : c.EndsType := by
  rcases ends with next | next <;> simp [EndsType, next]

end Cursor

open Cursor (Spells EndsType EndsArgument)

namespace TypeRef

/-- Where the lexemes of the type come next and nothing that could go on follows, it is read. -/
def Reads (t : TypeRef) : Prop :=
  ∀ c c' : Cursor, c.Spells t.lexemes c' → c'.EndsType →
    ∃ value h, read c = .ok ⟨value, c', h⟩ ∧ value.withoutSpans = t.withoutSpans

/-- The reading of a type has come to the end of a word of its name. -/
def Arrives (c : Cursor) (name : String) (enclosing : Option TypeRef) (c' : Cursor) : Prop :=
  ∃ within outer, readBase c = readParts c c.location c' within name outer ∧
    outer.map withoutSpans = enclosing.map withoutSpans

end TypeRef

/-- Where the lexemes of the argument come next and its end follows, it is read. -/
def TypeArgument.Reads (a : TypeArgument) : Prop :=
  ∀ c c' : Cursor, c.Spells a.lexemes c' → c'.EndsArgument →
    ∃ value h, TypeArgument.read c = .ok ⟨value, c', h⟩ ∧ value.withoutSpans = a.withoutSpans

/-- Where the arguments and their brackets come next, they are read. -/
def TypeArgument.AllRead (arguments : List TypeArgument) : Prop :=
  ∀ c c' : Cursor, c.Spells (Lexeme.bracketed (arguments.map lexemes)) c' →
    ∃ values h, TypeArgument.readAll c = .ok ⟨values, c', h⟩ ∧
      values.map withoutSpans = arguments.map withoutSpans

namespace TypeRef

theorem dimensioned_of_spells {c c' : Cursor} (k : Nat) (spells : c.Spells (Lexeme.dimensions k) c')
    (ends : c'.EndsType) : Dimensioned c k c' := by
  induction k generalizing c with
  | zero =>
    obtain rfl := spells.nil_eq
    have noMarker := Annotation.pass_of_nextKind ends.2.2.2
    exact .ended noMarker (Cursor.acceptPair?_eq_none ends.2.2.1)
  | succ k ih =>
    rw [Lexeme.dimensions] at spells
    have next : c.nextKind = some .leftBracket := spells.nextKind_eq
    obtain ⟨token, c₁, h₁, found, _, rest⟩ := Cursor.acceptPair?_of_spells spells
    have noMarker : Annotation.pass c = .ok ⟨(), c, c.size_le⟩ :=
      Annotation.pass_of_nextKind (by simp [next])
    exact .pair noMarker found (ih rest)

namespace Arrives

variable {c c₁ c' : Cursor} {name w : String} {enclosing : Option TypeRef}

theorem one (free : Kind.ofWord w = .identifier) (spells : c.Spells [Lexeme.word w] c') :
    Arrives c w none c' := by
  obtain ⟨token, c₁, h₁, found, lexeme, rest⟩ := Cursor.accept?_of_spells spells
  have kind : (Lexeme.word w).kind = .identifier := free
  have text : token.text = w := congrArg Lexeme.text lexeme
  obtain rfl := rest.nil_eq
  have notPrimitive : primitive? c = none := by
    obtain ⟨t, others, place, same, _⟩ := spells.uncons
    rw [place, primitive?]
    have tKind : t.kind = .identifier := by
      rw [← kind]
      exact congrArg Lexeme.kind same
    simp only [tKind]
  rw [kind] at found
  refine ⟨h₁, none, ?_, rfl⟩
  rw [readBase, notPrimitive]
  simp only [found, text]

/-- Without arguments the name goes on with the next word. -/
theorem goOn (arrives : Arrives c name enclosing c₁) (free : Kind.ofWord w = .identifier)
    (spells : c₁.Spells [Kind.dot.lexeme, Lexeme.word w] c') :
    Arrives c (name ++ "." ++ w) enclosing c' := by
  obtain ⟨within, outer, based, same⟩ := arrives
  obtain ⟨token, c₂, h₂, found, lexeme, rest⟩ := Cursor.acceptPair?_of_spells spells
  have kind : (Lexeme.word w).kind = .identifier := free
  have text : token.text = w := congrArg Lexeme.text lexeme
  have noList : c₁.sees [.less] = false := by
    rw [Cursor.sees_one, spells.nextKind_eq]
    rfl
  obtain rfl := rest.nil_eq
  change c₁.acceptPair? .dot _ = _ at found
  rw [kind] at found
  refine ⟨by omega, outer, ?_, same⟩
  rw [based, readParts]
  simp only [noList]
  rw [if_neg (by simp)]
  simp only [pure_bind, found, text]
  simp

/-- With arguments the type encloses what follows. -/
theorem enclose {arguments : List TypeArgument} (arrives : Arrives c name enclosing c₁)
    (listed : TypeArgument.AllRead arguments) (nonempty : arguments ≠ [])
    (free : Kind.ofWord w = .identifier)
    (spells : c₁.Spells (Lexeme.bracketed (arguments.map TypeArgument.lexemes) ++
      [Kind.dot.lexeme, Lexeme.word w]) c') (span : Span) :
    Arrives c w (some ⟨name, arguments, 0, enclosing, span⟩) c' := by
  obtain ⟨within, outer, based, same⟩ := arrives
  obtain ⟨c₂, list, pair⟩ := spells.split
  obtain ⟨values, h₂, listRead, sameValues⟩ := listed c₁ c₂ list
  obtain ⟨token, c₃, h₃, found, lexeme, rest⟩ := Cursor.acceptPair?_of_spells pair
  have kind : (Lexeme.word w).kind = .identifier := free
  have text : token.text = w := congrArg Lexeme.text lexeme
  have someList : c₁.sees [.less] = true := by
    obtain ⟨a, others, rfl⟩ := List.exists_cons_of_ne_nil nonempty
    rw [Cursor.sees_one, list.nextKind_eq]
    rfl
  have someValues : values.isEmpty = false := by
    cases values with
    | nil => exact absurd (List.map_eq_nil_iff.mp sameValues.symm) nonempty
    | cons value values => rfl
  obtain rfl := rest.nil_eq
  change c₂.acceptPair? .dot _ = _ at found
  rw [kind] at found
  refine ⟨by omega, some ⟨name, values, 0, outer, ⟨c.location, c₂.lastStop⟩⟩, ?_, ?_⟩
  · rw [based, readParts, if_pos someList, listRead, ok_bind]
    simp only [pure_bind, found, text, someValues]
    simp
  · simp only [Option.map_some, withoutSpans_mk, sameValues, same]

/-- A name is reached when each of its words would be. -/
theorem dotted {before : List Lexeme}
    (first : ∀ w c', IsIdentifier w → c.Spells (before ++ [Lexeme.word w]) c' →
      Arrives c w enclosing c')
    (dotted : Dotted IsIdentifier name) (spells : c.Spells (before ++ Lexeme.name name) c') :
    Arrives c name enclosing c' := by
  induction dotted generalizing c' with
  | one word =>
    rw [Lexeme.name_word word.word] at spells
    exact first _ c' word spells
  | more _ word ih =>
    rw [Lexeme.name_more _ word.word, ← List.append_assoc] at spells
    obtain ⟨c₁, reached, rest⟩ := spells.split
    exact (ih reached).goOn word.free rest

end Arrives

end TypeRef

/-- A word is no sign. -/
theorem Kind.ofWord_ne {kind : Kind} (sign : kind ∉ identifier :: keywords.map Prod.snd)
    (w : String) : ofWord w ≠ kind := by
  rintro rfl
  rcases ofWord_cases w with same | ⟨entry, listed, same⟩
  · exact sign (by simp [same])
  · exact sign (by rw [same]; exact List.mem_cons_of_mem _ (List.mem_map_of_mem listed))

theorem TypeRef.nextKind_of_spells {t : TypeRef} {ls : List Lexeme} {c c' : Cursor}
    (spells : c.Spells (t.lexemes ++ ls) c') : c.nextKind = some (Kind.ofWord t.firstWord) := by
  obtain ⟨rest, spelled⟩ := t.lexemes_eq_cons
  rw [spelled] at spells
  exact spells.nextKind_eq

/-- A type argument starts with a word or a question mark. -/
private theorem TypeArgument.nextKind_of_spells {a : TypeArgument} {ls : List Lexeme}
    {c c' : Cursor} (spells : c.Spells (a.lexemes ++ ls) c') :
    c.nextKind = some .question ∨ ∃ w, c.nextKind = some (Kind.ofWord w) := by
  cases a with
  | type type => exact .inr ⟨_, TypeRef.nextKind_of_spells spells⟩
  | wildcard span => exact .inl spells.nextKind_eq
  | bounded kind bound span => exact .inl spells.nextKind_eq

private theorem TypeArgument.nextKind_ne {c : Cursor} {kind : Kind}
    (sign : kind ∉ Kind.question :: .identifier :: Kind.keywords.map Prod.snd)
    (next : c.nextKind = some .question ∨ ∃ w, c.nextKind = some (Kind.ofWord w)) :
    c.nextKind ≠ some kind := by
  rw [List.mem_cons, not_or] at sign
  rcases next with same | ⟨w, same⟩
  · simp [same, Ne.symm sign.1]
  · simp [same, Kind.ofWord_ne sign.2 w]

theorem TypeArgument.allRead {arguments : List TypeArgument} (each : ∀ a ∈ arguments, a.Reads)
    (nonempty : arguments ≠ []) : TypeArgument.AllRead arguments := by
  obtain ⟨a, others, rfl⟩ := List.exists_cons_of_ne_nil nonempty
  intro c c' spells
  rw [List.map_cons, Lexeme.bracketed, List.cons_append] at spells
  · obtain ⟨less, c₁, h₁, opened, _, inside⟩ :=
      Cursor.expect_of_spells "'<' for type arguments" spells
    change c.expect .less _ = _ at opened
    obtain ⟨c₂, list, closing⟩ := inside.split
    have notClosed : c₁.accept? .greater = none := by
      have first : ∃ ls, c₁.Spells (a.lexemes ++ ls) c₂ := by
        cases others with
        | nil => exact ⟨[], by simpa using list⟩
        | cons b others =>
          rw [List.map_cons, List.intercalate_cons_cons, List.append_assoc] at list
          exact ⟨_, list⟩
      obtain ⟨ls, spelled⟩ := first
      exact Cursor.accept?_eq_none
        (TypeArgument.nextKind_ne (by decide) (TypeArgument.nextKind_of_spells spelled))
    have next : c₂.nextKind = some .greater := closing.nextKind_eq
    rw [← List.map_cons] at list
    obtain ⟨values, h₂, listed, same⟩ := Cursor.sepBy_of_spells
      (fun c' _ => TypeArgument.read c')
      (fun value a => value.withoutSpans = a.withoutSpans)
      (fun _ parted => .inl parted)
      (fun a member c c' _ spells ends => each a member c c' spells ends)
      nonempty list (.inr next) (by simp [next])
    obtain ⟨greater, c₃, h₃, closed, _, rest⟩ :=
      Cursor.expect_of_spells "'>' after type arguments" closing
    change c₂.expect .greater _ = _ at closed
    obtain rfl := rest.nil_eq
    obtain ⟨h, read⟩ := readAll_eq_ok_iff.mpr (.listed opened notClosed listed closed)
    exact ⟨values, h, read, map_eq_of_forall₂ same⟩
  · simp

/-- The parts of a type that carries arguments can be read. -/
structure TypeRef.Composed (t : TypeRef) : Prop where
  arrives : ∀ c c' : Cursor, c.Spells (TypeRef.mk t.name [] 0 t.enclosing .synthetic).lexemes c' →
    TypeRef.Arrives c t.name t.enclosing c'
  listed : t.arguments ≠ [] → TypeArgument.AllRead t.arguments

namespace TypeRef

/-- Reading on behind the last word of a name: the arguments, if there are any, end the type. -/
private theorem readParts_of_spells {origin c c' : Cursor} {start : Location}
    (within : c.size < origin.size) {name : String} {outer : Option TypeRef}
    {arguments : List TypeArgument}
    (listed : arguments ≠ [] → TypeArgument.AllRead arguments)
    (spells : c.Spells (Lexeme.bracketed (arguments.map TypeArgument.lexemes)) c')
    (notList : c'.nextKind ≠ some .less) (ends : c'.nextKind ≠ some .dot) :
    ∃ values span h, readParts origin start c within name outer =
      .ok ⟨⟨name, values, 0, outer, span⟩, c', h⟩ ∧
      values.map TypeArgument.withoutSpans = arguments.map TypeArgument.withoutSpans := by
  rw [readParts]
  by_cases none : arguments = []
  · subst none
    obtain rfl := spells.nil_eq
    have noList : c'.sees [.less] = false := by
      rw [Cursor.sees_one]
      simp [notList]
    rw [if_neg (by simp [noList])]
    simp only [pure_bind, Cursor.acceptPair?_eq_none ends]
    exact ⟨_, _, within, rfl, rfl⟩
  · have someList : c.sees [.less] = true := by
      obtain ⟨a, others, rfl⟩ := List.exists_cons_of_ne_nil none
      rw [Cursor.sees_one, spells.nextKind_eq]
      rfl
    obtain ⟨values, h, listRead, same⟩ := listed none c c' spells
    rw [if_pos someList, listRead, ok_bind]
    simp only [pure_bind, Cursor.acceptPair?_eq_none ends]
    exact ⟨values, _, by omega, rfl, same⟩

/-- The end of a base: its dimensions follow, or what ends the type. -/
theorem ends_of_dimensions {c c' : Cursor} {n : Nat}
    (spells : c.Spells (Lexeme.dimensions n) c') (ends : c'.EndsType) :
    c.nextKind ≠ some .less ∧ c.nextKind ≠ some .dot ∧ c.nextKind ≠ some .atSign := by
  cases n with
  | zero =>
    obtain rfl := spells.nil_eq
    exact ⟨ends.1, ends.2.1, ends.2.2.2⟩
  | succ n =>
    have next : c.nextKind = some .leftBracket := spells.nextKind_eq
    simp [next]

/-- A type is read once its base is. -/
private theorem read_of_base {c c₁ c' : Cursor} {name : String} {values arguments : List TypeArgument}
    {outer enclosing : Option TypeRef} {span span' : Span} {dimensions : Nat} {h : c₁.size < c.size}
    (start : c.nextKind ≠ some .atSign)
    (based : readBase c = .ok ⟨⟨name, values, 0, outer, span⟩, c₁, h⟩)
    (sameValues : values.map TypeArgument.withoutSpans = arguments.map TypeArgument.withoutSpans)
    (sameOuter : outer.map withoutSpans = enclosing.map withoutSpans)
    (spells : c₁.Spells (Lexeme.dimensions dimensions) c') (ends : c'.EndsType) :
    ∃ value h, read c = .ok ⟨value, c', h⟩ ∧
      value.withoutSpans = (TypeRef.mk name arguments dimensions enclosing span').withoutSpans := by
  obtain ⟨h', returned⟩ := read_eq_ok_iff.mpr ⟨c, c.size_le, _, c₁, dimensions,
    Annotation.pass_of_nextKind start, readBase_eq_ok_iff.mp ⟨h, based⟩,
    dimensioned_of_spells dimensions spells ends, rfl⟩
  refine ⟨_, h', returned, ?_⟩
  rw [withoutSpans_mk, withoutSpans_mk, sameValues, sameOuter]

theorem Composed.reads {t : TypeRef} (composed : t.Composed) : t.Reads := by
  obtain ⟨name, arguments, dimensions, enclosing, span⟩ := t
  intro c c' spells ends
  have start : c.nextKind ≠ some .atSign := by
    rw [← List.append_nil (lexemes _)] at spells
    have sign : Kind.atSign ∉ Kind.identifier :: Kind.keywords.map Prod.snd := by decide
    simp [nextKind_of_spells spells, Kind.ofWord_ne sign]
  rw [lexemes_mk, List.append_assoc] at spells
  obtain ⟨c₁, base, spells⟩ := spells.split
  obtain ⟨c₂, list, pairs⟩ := spells.split
  obtain ⟨notList, notDot, _⟩ := ends_of_dimensions pairs ends
  obtain ⟨within, outer, based, sameOuter⟩ := composed.arrives c c₁ base
  obtain ⟨values, found, h, parts, sameValues⟩ :=
    readParts_of_spells within composed.listed list notList notDot
  rw [parts] at based
  exact read_of_base start based sameValues sameOuter pairs ends

theorem reads_primitive (p : Primitive) (dimensions : Nat) (span : Span) :
    Reads ⟨p.keyword, [], dimensions, none, span⟩ := by
  intro c c' spells ends
  have kind : Kind.ofWord p.keyword = .primitive p := by cases p <;> rfl
  rw [lexemes, Lexeme.name_word (isWord_primitive p), TypeArgument.lexemesOf, Lexeme.bracketed,
    List.append_nil, List.singleton_append] at spells
  have next : c.nextKind = some (.primitive p) := by rw [spells.nextKind_eq, Lexeme.word, kind]
  obtain ⟨token, rest, place, lexeme, pairs⟩ := spells.uncons
  have tokenKind : token.kind = .primitive p := by
    rw [← kind]
    exact congrArg Lexeme.kind lexeme
  have text : token.text = p.keyword := congrArg Lexeme.text lexeme
  have based : ∃ h, readBase c = .ok ⟨.named p.keyword, ⟨some token, rest⟩, h⟩ := by
    obtain ⟨before, tokens⟩ := c
    obtain rfl : tokens = token :: rest := congrArg Cursor.ahead place
    refine ⟨Cursor.size_tail_lt .., ?_⟩
    rw [readBase, primitive?]
    simp only [tokenKind, text]
  obtain ⟨h, based⟩ := based
  exact read_of_base (by simp [next]) based rfl rfl pairs ends

end TypeRef

mutual

/-- A type made of identifiers is read where its lexemes come next. -/
theorem TypeRef.Named.reads_and_composed {t : TypeRef} :
    t.Named (Dotted IsIdentifier) → t.Reads ∧ (t.arguments ≠ [] → t.Composed)
  | .primitive p dimensions span =>
    ⟨TypeRef.reads_primitive p dimensions span, fun nonempty => absurd rfl nonempty⟩
  | @TypeRef.Named.simple _ name arguments dimensions span dotted named => by
    have composed : TypeRef.Composed ⟨name, arguments, dimensions, none, span⟩ := by
      refine ⟨fun c c' spells => ?_,
        fun nonempty => TypeArgument.allRead (fun a member => (named a member).reads) nonempty⟩
      rw [TypeRef.lexemes, TypeArgument.lexemesOf, Lexeme.bracketed, Lexeme.dimensions,
        List.append_nil, List.append_nil, ← List.nil_append (Lexeme.name name)] at spells
      exact .dotted (fun w c' word spells => .one word.free spells) dotted spells
    exact ⟨composed.reads, fun _ => composed⟩
  | @TypeRef.Named.member _ name arguments outer dimensions span enclosing nonempty flat dotted
      named => by
    have composed : TypeRef.Composed ⟨name, arguments, dimensions, some outer, span⟩ := by
      refine ⟨fun c c' spells => ?_,
        fun nonempty => TypeArgument.allRead (fun a member => (named a member).reads) nonempty⟩
      have composed := enclosing.reads_and_composed.2 nonempty
      rw [TypeRef.lexemes, TypeArgument.lexemesOf, Lexeme.bracketed, Lexeme.dimensions,
        List.append_nil, List.append_nil, ← List.singleton_append, ← List.append_assoc] at spells
      refine .dotted (fun w c' word spells => ?_) dotted spells
      -- The words of the outer type, its arguments, and the dot with the first word behind it.
      obtain ⟨outerName, outerArguments, none, outermost, outerSpan⟩ := outer
      obtain rfl : none = 0 := flat
      rw [TypeRef.lexemes_mk, Lexeme.dimensions, List.append_nil, List.append_assoc,
        List.append_assoc] at spells
      obtain ⟨c₁, base, rest⟩ := spells.split
      exact (composed.arrives c c₁ base).enclose (composed.listed nonempty) nonempty word.free rest
        outerSpan
    exact ⟨composed.reads, fun _ => composed⟩

theorem TypeArgument.Named.reads {a : TypeArgument} : a.Named (Dotted IsIdentifier) → a.Reads
  | .type named => by
    intro c c' spells ends
    rw [TypeArgument.lexemes] at spells
    obtain ⟨value, h, typeRead, same⟩ := named.reads_and_composed.1 c c' spells ends.endsType
    rw [← List.append_nil (TypeRef.lexemes _)] at spells
    have next : c.nextKind = some .question ∨ ∃ w, c.nextKind = some (Kind.ofWord w) :=
      .inr ⟨_, TypeRef.nextKind_of_spells spells⟩
    have question : Kind.question ∉ Kind.identifier :: Kind.keywords.map Prod.snd := by decide
    have notQuestion : c.nextKind ≠ some .question := by
      simp [TypeRef.nextKind_of_spells spells, Kind.ofWord_ne question]
    have unmarked := Annotation.pass_of_nextKind (TypeArgument.nextKind_ne (by decide) next)
    obtain ⟨h', read⟩ := TypeArgument.read_eq_ok_iff.mpr
      ⟨c, c.size_le, unmarked, .type (Cursor.accept?_eq_none notQuestion) typeRead⟩
    exact ⟨.type value, h', read, by rw [TypeArgument.withoutSpans, TypeArgument.withoutSpans, same]⟩
  | .wildcard span => by
    intro c c' spells ends
    rw [TypeArgument.lexemes] at spells
    have next : c.nextKind = some .question := spells.nextKind_eq
    obtain ⟨token, c₁, h₁, found, _, rest⟩ := Cursor.accept?_of_spells spells
    change c.accept? .question = _ at found
    obtain rfl := rest.nil_eq
    have noUpper : c'.accept? .extendsWord = none :=
      Cursor.accept?_eq_none (by rcases ends with next | next <;> simp [next])
    have noLower : c'.accept? .superWord = none :=
      Cursor.accept?_eq_none (by rcases ends with next | next <;> simp [next])
    obtain ⟨h, read⟩ := TypeArgument.read_eq_ok_iff.mpr
      ⟨c, c.size_le, Annotation.pass_of_nextKind (by simp [next]), .wildcard found noUpper noLower⟩
    exact ⟨.wildcard ⟨c.location, c'.lastStop⟩, h, read, rfl⟩
  | .bounded kind span named => by
    intro c c' spells ends
    rw [TypeArgument.lexemes] at spells
    have next : c.nextKind = some .question := spells.nextKind_eq
    obtain ⟨token, c₁, h₁, found, _, spells⟩ := Cursor.accept?_of_spells spells
    change c.accept? .question = _ at found
    obtain ⟨keyword, c₂, h₂, foundWord, _, spells⟩ := Cursor.accept?_of_spells spells
    obtain ⟨value, h, typeRead, same⟩ := named.reads_and_composed.1 c₂ c' spells ends.endsType
    obtain ⟨h', read⟩ := TypeArgument.read_eq_ok_iff.mpr
      ⟨c, c.size_le, Annotation.pass_of_nextKind (by simp [next]), .bounded found foundWord typeRead⟩
    exact ⟨.bounded kind value ⟨c.location, c'.lastStop⟩, h', read,
      by rw [TypeArgument.withoutSpans, TypeArgument.withoutSpans, same]⟩

end

theorem TypeRef.Named.reads {t : TypeRef} (named : t.Named (Dotted IsIdentifier)) : t.Reads :=
  named.reads_and_composed.1

/-! ### Text and reading -/

/-- The tokens of a source are vouched for: their identifiers are words. -/
theorem Vouched.ofSource {source : String} {tokens : List Token}
    (lexed : Token.ofSource source = .ok tokens) : Vouched IsWord tokens where
  word _ member := (Token.genuine_of_ofSource lexed member).word
  fixed _ member := (Token.genuine_of_ofSource lexed member).fixed

/-- Tokens are spelled again as they are exactly when no identifier is a reserved word. -/
private theorem map_respelled_eq_iff (tokens : List Token) :
    tokens.map Token.respelled = tokens.map Token.lexeme ↔
      ∀ t ∈ tokens, t.kind = .identifier → Kind.ofWord t.text = .identifier := by
  have one (t : Token) : t.respelled = t.lexeme ↔
      (t.kind = .identifier → Kind.ofWord t.text = .identifier) := by
    by_cases identifier : t.kind = .identifier <;>
      simp [Token.respelled, Token.lexeme, Lexeme.word, identifier]
  rw [List.map_inj_left]
  exact forall₂_congr fun t _ => one t

/-- The text of a type made of names is read as that type, up to spans, and nothing else is taken.
The text of a type that was read from plain tokens gives these tokens again exactly when none of
the identifiers taken is a reserved word, as is the case in a source without byte order marks. -/
theorem TypeRef.text_and_read_are_inverse {source : String} {tokens : List Token}
    (lexed : Token.ofSource source = .ok tokens) :
    (∀ t : TypeRef, t.Named LexesAsName →
      ∃ own, Token.ofSource t.text = .ok own ∧
        ∀ last rest,
          (∀ next ∈ rest.head?, next.kind ∉ [Kind.less, .dot, .leftBracket, .atSign]) →
          ∃ r, TypeRef.read ⟨last, own ++ rest⟩ = .ok r ∧ r.cursor.ahead = rest ∧
            r.value.withoutSpans = t.withoutSpans) ∧
    ∀ last ahead r, ahead <:+ tokens → TypeRef.read ⟨last, ahead⟩ = .ok r →
      ∃ taken, ahead = taken ++ r.cursor.ahead ∧ (Plain taken →
        ∃ again, Token.ofSource r.value.text = .ok again ∧
          (again.map Token.lexeme = taken.map Token.lexeme ↔
            ∀ t ∈ taken, t.kind = .identifier → Kind.ofWord t.text = .identifier) ∧
          ('\uFEFF' ∉ source.toList → again.map Token.lexeme = taken.map Token.lexeme)) := by
  constructor
  · -- A name as the lexer takes it is made of words, and those spell the text.
    intro t lexes
    have named : t.Named (Dotted IsIdentifier) := lexes.imp fun _ name => name.dotted
    have words : t.Named (Dotted IsWord) := named.imp fun _ name => name.imp fun _ w => w.word
    obtain ⟨own, lexedOwn, spelled⟩ := words.written.ofSource t.lexemes_ne_nil
    refine ⟨own, lexedOwn, fun last rest follows => ?_⟩
    have ends : Cursor.EndsType ⟨own.getLast?.or last, rest⟩ := by
      cases rest with
      | nil => simp [EndsType, Cursor.nextKind]
      | cons next rest => simpa [EndsType, Cursor.nextKind, not_or] using follows
    obtain ⟨value, h, read, same⟩ := named.reads ⟨last, own ++ rest⟩ _
      ⟨own, ⟨rfl, rfl⟩, spelled⟩ ends
    exact ⟨_, read, rfl, same⟩
  · intro last ahead r suffix read
    obtain ⟨taken, passes, told⟩ := TypeRef.read_eq_ok (fun _ word => word) read
    have parted : ahead = taken ++ r.cursor.ahead := passes.ahead
    refine ⟨taken, parted, fun plain => ?_⟩
    have inSource : ∀ t ∈ taken, t ∈ tokens := fun t member =>
      suffix.subset (by rw [parted]; exact List.mem_append_left _ member)
    -- What is known of the tokens of the source is known of those that were taken.
    have vouched : Vouched IsWord taken :=
      ⟨fun t member => (Vouched.ofSource lexed).word t (inSource t member),
       fun t member => (Vouched.ofSource lexed).fixed t (inSource t member)⟩
    have readAs := (told vouched).1
    obtain ⟨again, lexedAgain, spelled⟩ := readAs.named.written.ofSource r.value.lexemes_ne_nil
    rw [← readAs.spelled plain] at spelled
    have free := map_respelled_eq_iff taken
    refine ⟨again, lexedAgain, by rw [spelled]; exact free, fun noMark => ?_⟩
    rw [spelled, free]
    exact fun t member => Token.free_of_ofSource lexed noMark (inSource t member)

/-- The tokens of a type whose first word is reserved, but is taken for an identifier because a byte
order mark follows it. -/
private def markedTokens : List Token :=
  ((Token.ofSource "int\uFEFF<A> x").toOption).getD []

/-- A member of a type with arguments is read back from its text, and a type that starts with a
reserved word before a byte order mark is not. -/
theorem TypeRef.text_and_read_of_member_and_marked :
    (let outer : TypeRef := ⟨"a.Outer", [.bounded .upper (.named "int") .synthetic], 0, none, .synthetic⟩
     let inner : TypeRef := ⟨"Inner", [.type (.named "T")], 2, some outer, .synthetic⟩
     let comma : Token := ⟨.comma, ",", .origin, ""⟩
     ∃ tokens, Token.ofSource inner.text = .ok tokens ∧
       ∃ r, TypeRef.read ⟨none, tokens ++ [comma]⟩ = .ok r ∧ r.cursor.ahead = [comma] ∧
         r.value.withoutSpans = inner.withoutSpans) ∧
    ∃ r, TypeRef.read ⟨none, markedTokens⟩ = .ok r ∧
      ∃ taken, markedTokens = taken ++ r.cursor.ahead ∧
        ∃ again, Token.ofSource r.value.text = .ok again ∧
          again.map Token.lexeme ≠ taken.map Token.lexeme := by
  have marked : Token.ofSource "int\uFEFF<A> x" = .ok markedTokens := by decide +kernel
  have inverse := TypeRef.text_and_read_are_inverse marked
  constructor
  · have single : ∀ name ∈ ["Inner", "T"], LexesAsName name := by
      have kinds : ∀ name ∈ ["Inner", "T"],
          (Piece.ofSource name).map Piece.kind = [some .identifier] := by decide +kernel
      intro name member
      rw [LexesAsName, kinds name member]
      exact .one
    have double : LexesAsName "a.Outer" := by
      have kinds : (Piece.ofSource "a.Outer").map Piece.kind =
          [some .identifier, some .dot, some .identifier] := by decide +kernel
      rw [LexesAsName, kinds]
      exact .more .one
    have inner : TypeRef.Named LexesAsName ⟨"Inner", [.type (.named "T")], 2,
        some ⟨"a.Outer", [.bounded .upper (.named "int") .synthetic], 0, none, .synthetic⟩,
        .synthetic⟩ := by
      have upper : TypeArgument.Named LexesAsName (.bounded .upper (.named "int") .synthetic) :=
        .bounded .upper _ (.primitive .int 0 _)
      have typeVariable : TypeArgument.Named LexesAsName (.type (.named "T")) :=
        .type (.simple 0 _ (single "T" (by simp)) (by simp))
      exact .member 2 _ (.simple 0 _ double (List.forall_mem_singleton.mpr upper)) (by simp) rfl
        (single _ (by simp)) (List.forall_mem_singleton.mpr typeVariable)
    obtain ⟨tokens, lexed, reads⟩ := inverse.1 _ inner
    exact ⟨tokens, lexed, reads none _ (by simp)⟩
  · have length : (TypeRef.read ⟨none, markedTokens⟩).toOption.map (·.cursor.ahead.length) =
        some 1 := by decide +kernel
    cases read : TypeRef.read ⟨none, markedTokens⟩ with
    | error e => simp [read, Except.toOption] at length
    | ok r =>
      obtain ⟨taken, parted, spelled⟩ := inverse.2 none _ r (List.suffix_refl _) read
      have left : r.cursor.ahead.length = 1 := by simpa [read, Except.toOption] using length
      -- One token is left of five, so the type is made of the first four.
      have four : taken = markedTokens.take 4 := by
        have total : markedTokens.length = 5 := by decide +kernel
        have size := congrArg List.length parted
        rw [List.length_append, total, left] at size
        rw [parted, List.take_left' (by omega)]
      have plain : Plain taken := by
        rw [four]
        exact ⟨by decide +kernel, by decide +kernel⟩
      obtain ⟨again, lexedAgain, same, _⟩ := spelled plain
      refine ⟨r, rfl, taken, parted, again, lexedAgain, fun equal => ?_⟩
      have free := same.mp equal
      rw [four] at free
      exact absurd free (by decide +kernel)

end TestDouble
