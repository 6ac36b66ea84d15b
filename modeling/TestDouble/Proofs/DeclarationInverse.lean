import TestDouble.Proofs.RenderedLines
import TestDouble.Proofs.TypeInverse

/-!
# Declarations and their text

Where the lexemes of a declaration come next, that declaration is read, up to its spans. This is
said of each part of a header, of the statements of a body, and of whole members.
-/

namespace TestDouble

open Cursor (Spells EndsType EndsArgument)

/-! ### Names and lists of types -/

namespace Cursor

variable {c c' : Cursor}

/-- The words of a dotted name are taken one after the other. -/
private theorem dottedName_eq_nameTail {name : String} (dotted : Dotted IsIdentifier name)
    (spells : c.Spells (Lexeme.name name) c') :
    ∃ h, c.dottedName = .ok (nameTail c c' h name) := by
  induction dotted generalizing c' with
  | one word =>
    rw [Lexeme.name_word word.word] at spells
    obtain ⟨c₁, h₁, taken, rest⟩ := identifier_of_spells word.free spells
    obtain rfl := rest.nil_eq
    refine ⟨h₁, ?_⟩
    rw [dottedName, taken]
    rfl
  | @more name w _ word ih =>
    rw [Lexeme.name_more _ word.word] at spells
    obtain ⟨c₁, first, rest⟩ := spells.split
    obtain ⟨h₁, begun⟩ := ih first
    obtain ⟨token, c₂, h₂, found, lexeme, rest⟩ := acceptPair?_of_spells rest
    obtain rfl := rest.nil_eq
    have kind : (Lexeme.word w).kind = .identifier := word.free
    have text : token.text = w := congrArg Lexeme.text lexeme
    rw [kind] at found
    change c₁.acceptPair? .dot .identifier = _ at found
    refine ⟨Nat.lt_trans h₂ h₁, ?_⟩
    rw [begun, nameTail]
    simp only [found, text]

theorem dottedName_of_spells {name : String} (dotted : Dotted IsIdentifier name)
    (spells : c.Spells (Lexeme.name name) c') (ends : c'.nextKind ≠ some .dot) :
    ∃ h, c.dottedName = .ok ⟨name, c', h⟩ := by
  obtain ⟨h, begun⟩ := dottedName_eq_nameTail dotted spells
  refine ⟨h, ?_⟩
  rw [begun, nameTail, acceptPair?_eq_none ends]

theorem dimensions_of_nextKind (ends : c.nextKind ≠ some .leftBracket) :
    c.dimensions = ⟨0, c, c.size_le⟩ := by
  rw [dimensions, bracketPairs, acceptPair?_eq_none ends]

theorem clause_of_nextKind {α : Type} {kind : Kind}
    {item : (c₁ : Cursor) → c₁.size ≤ c.size → Reading α c₁} (other : c.nextKind ≠ some kind) :
    c.clause kind item = .ok ⟨none, c, c.size_le⟩ := by
  rw [clause, accept?_eq_none other]
  rfl

end Cursor

theorem TypeRef.readList_of_spells {types : List TypeRef} {c c' : Cursor}
    (each : ∀ t ∈ types, t.Named (Dotted IsIdentifier)) (nonempty : types ≠ [])
    (spells : c.Spells ([Kind.comma.lexeme].intercalate (types.map lexemes)) c')
    (ends : c'.EndsType) (last : c'.nextKind ≠ some .comma) :
    ∃ values h, readList c = .ok ⟨values, c', h⟩ ∧
      values.map withoutSpans = types.map withoutSpans := by
  obtain ⟨values, h, listed, same⟩ := Cursor.sepBy_of_spells
    (fun c' _ => TypeRef.read c') (fun value t => value.withoutSpans = t.withoutSpans)
    (fun _ parted => (EndsArgument.endsType (.inl parted) : EndsType _))
    (fun t member c c' _ spells ends => (each t member).reads c c' spells ends)
    nonempty spells ends last
  exact ⟨values, h, listed, map_eq_of_forall₂ same⟩

theorem TypeRef.readClause_of_spells {keyword : Kind} {types : List TypeRef} {c c' : Cursor}
    (each : ∀ t ∈ types, t.Named (Dotted IsIdentifier))
    (spells : c.Spells (clauseLexemes keyword types) c') (ends : c'.EndsType)
    (last : c'.nextKind ≠ some .comma) (other : c'.nextKind ≠ some keyword) :
    ∃ values h, readClause c keyword = .ok ⟨values, c', h⟩ ∧
      values.map withoutSpans = types.map withoutSpans := by
  cases types with
  | nil =>
    obtain rfl := spells.nil_eq
    rw [readClause, Cursor.clause_of_nextKind other]
    exact ⟨[], c'.size_le, rfl, rfl⟩
  | cons type more =>
    rw [clauseLexemes] at spells
    · obtain ⟨token, c₁, h₁, found, _, rest⟩ := Cursor.accept?_of_spells spells
      change c.accept? keyword = _ at found
      obtain ⟨values, h₂, listed, same⟩ := readList_of_spells each (by simp) rest ends last
      refine ⟨values, by omega, ?_, same⟩
      rw [readClause, Cursor.clause, found]
      simp only [listed]
      rfl
    · simp

/-! ### Type variables -/

namespace TypeParameter

/-- The type variable with all places left out. -/
def withoutSpans (p : TypeParameter) : TypeParameter :=
  ⟨p.name, p.bounds.map TypeRef.withoutSpans, .synthetic⟩

variable {c c' : Cursor}

/-- The bounds of a type variable, if it has any. -/
private theorem clause_of_spells {bounds : List TypeRef}
    (each : ∀ t ∈ bounds, t.Named (Dotted IsIdentifier)) (nonempty : bounds ≠ [])
    (spells : c.Spells (Kind.extendsWord.lexeme ::
      [Kind.ampersand.lexeme].intercalate (bounds.map TypeRef.lexemes)) c')
    (ends : c'.EndsArgument) :
    ∃ values h, (c.clause .extendsWord fun c₁ _ => c₁.sepBy .ampersand fun c₂ _ => TypeRef.read c₂) =
        .ok ⟨some values, c', h⟩ ∧
      values.map TypeRef.withoutSpans = bounds.map TypeRef.withoutSpans := by
  obtain ⟨token, c₁, h₁, found, _, rest⟩ := Cursor.accept?_of_spells spells
  change c.accept? .extendsWord = _ at found
  have last : c'.nextKind ≠ some .ampersand := by rcases ends with next | next <;> simp [next]
  obtain ⟨values, h₂, listed, same⟩ := Cursor.sepBy_of_spells
    (fun c₂ _ => TypeRef.read c₂) (fun value t => value.withoutSpans = t.withoutSpans)
    (fun d parted => by simp [EndsType, parted] : ∀ d : Cursor, d.nextKind = _ → d.EndsType)
    (fun t member c c' _ spells ends => (each t member).reads c c' spells ends)
    nonempty rest ends.endsType last
  refine ⟨values, by omega, ?_, map_eq_of_forall₂ same⟩
  rw [Cursor.clause, found]
  simp only [listed, ok_bind]
  rfl

theorem read_of_spells {p : TypeParameter} (named : p.Named IsIdentifier)
    (spells : c.Spells p.lexemes c') (ends : c'.EndsArgument) :
    ∃ value h, read c = .ok ⟨value, c', h⟩ ∧ value.withoutSpans = p.withoutSpans := by
  have starts {ls : List Lexeme} (spells : c.Spells (Lexeme.word p.name :: ls) c') :
      c.nextKind ≠ some .atSign := by
    have next : c.nextKind = some (Kind.ofWord p.name) := spells.nextKind_eq
    simp [next, named.name.free]
  cases bounds : p.bounds with
  | nil =>
    rw [lexemes, bounds] at spells
    obtain ⟨c₁, h₁, taken, rest⟩ := Cursor.identifier_of_spells named.name.free spells
    obtain rfl := rest.nil_eq
    have other : c'.nextKind ≠ some .extendsWord := by rcases ends with next | next <;> simp [next]
    refine ⟨⟨p.name, [], ⟨c.location, c'.lastStop⟩⟩, h₁, ?_, by simp [withoutSpans, bounds]⟩
    rw [read, Annotation.pass_of_nextKind (starts spells), ok_bind]
    simp only [taken, ok_bind, Cursor.clause_of_nextKind other]
    rfl
  | cons bound more =>
    rw [lexemes, bounds] at spells
    obtain ⟨c₁, h₁, taken, rest⟩ := Cursor.identifier_of_spells named.name.free spells
    have each : ∀ t ∈ bound :: more, t.Named (Dotted IsIdentifier) := bounds ▸ named.bounds
    obtain ⟨values, h₂, listed, same⟩ := clause_of_spells each (by simp) rest ends
    refine ⟨⟨p.name, values, ⟨c.location, c'.lastStop⟩⟩, by omega, ?_,
      by simp [withoutSpans, same, bounds]⟩
    rw [read, Annotation.pass_of_nextKind (starts spells), ok_bind]
    simp only [taken, ok_bind, listed]
    rfl

/-- The type variables of a declaration with their angle brackets, if there are any. -/
theorem readAll_of_spells {ps : List TypeParameter} (named : ∀ p ∈ ps, p.Named IsIdentifier)
    (spells : c.Spells (Lexeme.bracketed (ps.map lexemes)) c') (ends : c'.nextKind ≠ some .less) :
    ∃ values h, readAll c = .ok ⟨values, c', h⟩ ∧
      values.map withoutSpans = ps.map withoutSpans := by
  by_cases none : ps = []
  · subst none
    obtain rfl := spells.nil_eq
    rw [readAll, Cursor.accept?_eq_none ends]
    exact ⟨[], c'.size_le, rfl, rfl⟩
  · rw [Lexeme.bracketed, List.cons_append] at spells
    · obtain ⟨less, c₁, h₁, opened, _, inside⟩ := Cursor.accept?_of_spells spells
      change c.accept? .less = _ at opened
      obtain ⟨c₂, list, closing⟩ := inside.split
      have next : c₂.nextKind = some .greater := closing.nextKind_eq
      obtain ⟨values, h₂, listed, same⟩ := Cursor.sepBy_of_spells
        (fun c' _ => read c') (fun value p => value.withoutSpans = p.withoutSpans)
        (fun _ parted => .inl parted)
        (fun p member c c' _ spells ends => read_of_spells (named p member) spells ends)
        none list (.inr next) (by simp [next])
      obtain ⟨greater, c₃, h₃, closed, _, rest⟩ :=
        Cursor.expect_of_spells "'>' after type parameters" closing
      change c₂.expect .greater _ = _ at closed
      obtain rfl := rest.nil_eq
      refine ⟨values, by omega, ?_, map_eq_of_forall₂ same⟩
      rw [readAll, opened]
      simp only [listed, ok_bind, closed]
      rfl
    · simpa using none

end TypeParameter

/-! ### Modifiers and marks -/

/-- The lexemes start like a declaration without modifiers and annotations. -/
def Unqualified (ls : List Lexeme) : Prop :=
  ∃ first second rest, ls = first :: second :: rest ∧ first.kind ≠ .atSign ∧
    (∀ m, first.kind ≠ .modifier m) ∧ first.text ≠ "sealed" ∧ second.kind ≠ .operator

namespace Qualifiers

variable {c c' : Cursor}

theorem readFrom_of_unqualified {origin : Cursor} {within : c.size ≤ origin.size}
    {modifiers : ModifierSet} {annotations : List Annotation} {ls : List Lexeme}
    (plain : Unqualified ls) (spells : c.Spells ls c') :
    readFrom origin c within modifiers annotations =
      .ok ⟨⟨modifiers, annotations.reverse⟩, c, within⟩ := by
  obtain ⟨first, second, rest, rfl, notSign, notModifier, notSealed, notOperator⟩ := plain
  have next : c.nextKind = some first.kind := spells.nextKind_eq
  obtain ⟨t₁, others, place, lexeme₁, spells⟩ := spells.uncons
  obtain ⟨t₂, more, placeRest, lexeme₂, _⟩ := spells.uncons
  obtain ⟨before, tokens⟩ := c
  obtain rfl : tokens = t₁ :: others := congrArg Cursor.ahead place
  obtain rfl : others = t₂ :: more := congrArg Cursor.ahead placeRest
  have kind₁ : t₁.kind = first.kind := congrArg Lexeme.kind lexeme₁
  have text₁ : t₁.text = first.text := congrArg Lexeme.text lexeme₁
  have kind₂ : t₂.kind = second.kind := congrArg Lexeme.kind lexeme₂
  -- The first two tokens settle that nothing to be passed comes next: no annotation, no modifier
  -- and, by the second one, no `non-sealed`.
  have noMark : Annotation.comesNext ⟨before, t₁ :: t₂ :: more⟩ = false :=
    Annotation.comesNext_eq_false (by simp [next, notSign])
  have noModifier : modifier? ⟨before, t₁ :: t₂ :: more⟩ = none := by
    rw [modifier?]
    split
    next m same => exact absurd (kind₁.symm.trans same) (notModifier m)
    next => rfl
  have noSealed : passSealed? ⟨before, t₁ :: t₂ :: more⟩ = none := by
    have noWord : Cursor.acceptWord? ⟨before, t₁ :: t₂ :: more⟩ "sealed" = none := by
      simp [Cursor.acceptWord?, text₁, notSealed]
    have notNon : afterNonSealed? (t₁ :: t₂ :: more) = none := by
      cases more with
      | nil => rfl
      | cons t₃ more => simp [afterNonSealed?, kind₂, notOperator]
    rw [passSealed?, noWord]
    simp only
    split
    next found => simp [notNon] at found
    next => rfl
  rw [readFrom, if_neg (by simp [noMark]), noModifier, noSealed]
  rfl

theorem kind_modifier (m : Modifier) : (Lexeme.word m.keyword).kind = .modifier m := by
  cases m <;> rfl

/-- Modifiers are taken one after the other. -/
theorem readFrom_of_modifiers {ms : List Modifier} {c₁ : Cursor} {ls : List Lexeme}
    (spells : c.Spells (ms.map fun m => Lexeme.word m.keyword) c₁) (plain : Unqualified ls)
    (behind : c₁.Spells ls c') {origin : Cursor} (within : c.size ≤ origin.size)
    (modifiers : ModifierSet) (annotations : List Annotation) :
    ∃ h, readFrom origin c within modifiers annotations =
      .ok ⟨⟨ms.foldl ModifierSet.insert modifiers, annotations.reverse⟩, c₁, h⟩ := by
  induction ms generalizing c modifiers with
  | nil =>
    obtain rfl := spells.nil_eq
    exact ⟨within, readFrom_of_unqualified plain behind⟩
  | cons m ms ih =>
    have next : c.nextKind = some (.modifier m) := by
      rw [spells.nextKind_eq, kind_modifier]
    obtain ⟨token, rest, place, lexeme, later⟩ := spells.uncons
    obtain ⟨before, tokens⟩ := c
    obtain rfl : tokens = token :: rest := congrArg Cursor.ahead place
    have kind : token.kind = .modifier m := by
      rw [← kind_modifier m]
      exact congrArg Lexeme.kind lexeme
    have found : modifier? ⟨before, token :: rest⟩ =
        some ⟨m, ⟨some token, rest⟩, Cursor.size_tail_lt ..⟩ := by
      rw [modifier?]
      simp only [kind]
    have noMark : Annotation.comesNext ⟨before, token :: rest⟩ = false :=
      Annotation.comesNext_eq_false (by simp [next])
    have shorter := Cursor.size_tail_lt before token rest
    obtain ⟨h, others⟩ := ih later (by omega) (modifiers.insert m)
    refine ⟨h, ?_⟩
    rw [readFrom, if_neg (by simp [noMark]), found]
    exact others

end Qualifiers

namespace ModifierSet

theorem contains_foldl_insert (ms : List Modifier) (s : ModifierSet) (m : Modifier) :
    (ms.foldl insert s).contains m = (s.contains m || decide (m ∈ ms)) := by
  induction ms generalizing s with
  | nil => simp
  | cons n ms ih =>
    rw [List.foldl_cons, ih, contains_insert]
    by_cases same : n = m
    · simp [same]
    · simp [same, Ne.symm same]

/-- The members of a set make up the set again. -/
theorem foldl_insert_toList (s : ModifierSet) : s.toList.foldl insert empty = s := by
  apply ext_contains
  intro m
  have listed : m ∈ Modifier.all := by cases m <;> decide
  rw [contains_foldl_insert, contains_empty, Bool.false_or]
  by_cases member : s.contains m = true
  · simp [toList, listed, member]
  · simp [toList, member]

end ModifierSet

/-- The mark of an overriding member is read as an annotation without arguments. -/
theorem Annotation.read_override {c c' : Cursor} (spells : c.Spells Line.override.lexemes c')
    (notDot : c'.nextKind ≠ some .dot) (notParen : c'.nextKind ≠ some .leftParen) :
    comesNext c = true ∧ ∃ span h, read c = .ok ⟨⟨"Override", [], span⟩, c', h⟩ := by
  have isOverride : IsIdentifier "Override" := ⟨by decide, rfl⟩
  have first : c.nextKind = some .atSign := spells.nextKind_eq
  obtain ⟨sign, c₁, h₁, opened, _, rest⟩ := Cursor.expect_of_spells "'@'" spells
  change c.expect .atSign _ = _ at opened
  constructor
  · have identifier : (Lexeme.word "Override").kind = .identifier := isOverride.free
    rw [comesNext, Cursor.sees_one, Cursor.sees_two_of_spells spells, first, identifier]
    rfl
  · rw [← Lexeme.name_word isOverride.word] at rest
    obtain ⟨h₂, named⟩ := Cursor.dottedName_of_spells (.one isOverride) rest notDot
    refine ⟨⟨c.location, c'.lastStop⟩, by omega, ?_⟩
    rw [read, opened, ok_bind]
    simp only [named, ok_bind, Cursor.clause_of_nextKind notParen]
    rfl

/-- Modifiers with or without a mark before them. -/
theorem Qualifiers.read_of_spells {c c₀ c₁ c' : Cursor} {s : ModifierSet} {ls : List Lexeme}
    (isOverride : Bool)
    (marked : c.Spells (if isOverride then Line.override.lexemes else []) c₀)
    (spells : c₀.Spells s.lexemes c₁) (modified : s.lexemes ≠ []) (plain : Unqualified ls)
    (behind : c₁.Spells ls c') :
    ∃ annotations h, read c = .ok ⟨⟨s, annotations⟩, c₁, h⟩ ∧
      annotations.map (fun a => (a.name, a.arguments)) =
        if isOverride then [("Override", [])] else [] := by
  cases isOverride with
  | false =>
    obtain rfl := marked.nil_eq
    obtain ⟨h, taken⟩ := readFrom_of_modifiers spells plain behind c₀.size_le .empty []
    refine ⟨[], h, ?_, rfl⟩
    rw [read, taken, ModifierSet.foldl_insert_toList]
    rfl
  | true =>
    -- What follows the mark is a modifier, so the name of the mark ends there.
    obtain ⟨m, others, listed⟩ := List.exists_cons_of_ne_nil modified
    have next : ∃ n, c₀.nextKind = some (.modifier n) := by
      cases members : s.toList with
      | nil => simp [ModifierSet.lexemes, members] at modified
      | cons n ms =>
        rw [ModifierSet.lexemes, members] at spells
        exact ⟨n, by rw [spells.nextKind_eq, kind_modifier]⟩
    obtain ⟨n, next⟩ := next
    obtain ⟨comes, span, h₁, annotated⟩ :=
      Annotation.read_override marked (by simp [next]) (by simp [next])
    obtain ⟨h, taken⟩ := readFrom_of_modifiers spells plain behind (Nat.le_of_lt h₁) .empty
      [⟨"Override", [], span⟩]
    refine ⟨[⟨"Override", [], span⟩], h, ?_, rfl⟩
    rw [read, readFrom, if_pos comes, annotated, ok_bind]
    simp only [taken, ModifierSet.foldl_insert_toList]
    rfl

/-! ### Parameters -/

/-- A lexeme that may stand in a type. -/
def Lexeme.InType (l : Lexeme) : Prop :=
  (∃ w, l = word w) ∨
    l.kind ∈ [Kind.dot, .comma, .less, .greater, .question, .leftBracket, .rightBracket]

theorem Lexeme.InType.kind_ne {l : Lexeme} (inType : l.InType) {kind : Kind}
    (other : kind ∉ .identifier :: Kind.keywords.map Prod.snd ++
      [Kind.dot, .comma, .less, .greater, .question, .leftBracket, .rightBracket]) :
    l.kind ≠ kind := by
  rw [List.mem_append, not_or] at other
  rcases inType with ⟨w, rfl⟩ | listed
  · exact Kind.ofWord_ne other.1 w
  · rintro rfl
    exact other.2 listed

namespace Lexeme

theorem inType_name (text : String) : ∀ l ∈ name text, l.InType := by
  unfold name
  split
  next => simp
  next first more _ =>
    intro l member
    rcases List.mem_cons.mp member with rfl | later
    · exact .inl ⟨_, rfl⟩
    · obtain ⟨w, _, part⟩ := List.mem_flatMap.mp later
      rcases List.mem_pair.mp part with rfl | rfl
      · exact .inr (by decide)
      · exact .inl ⟨_, rfl⟩

theorem inType_dimensions (n : Nat) : ∀ l ∈ dimensions n, l.InType := by
  induction n with
  | zero => simp [dimensions]
  | succ n ih =>
    rw [dimensions, List.forall_mem_cons, List.forall_mem_cons]
    exact ⟨.inr (by decide), .inr (by decide), ih⟩

theorem inType_intercalate {items : List (List Lexeme)} (each : ∀ ls ∈ items, ∀ l ∈ ls, l.InType) :
    ∀ l ∈ [Kind.comma.lexeme].intercalate items, l.InType := by
  induction items with
  | nil => simp
  | cons first items ih =>
    obtain ⟨ofFirst, ofOthers⟩ := List.forall_mem_cons.mp each
    cases items with
    | nil => simpa using ofFirst
    | cons second items =>
      rw [List.intercalate_cons_cons, List.forall_mem_append, List.forall_mem_append]
      exact ⟨⟨ofFirst, by simpa using .inr (by decide)⟩, ih ofOthers⟩

theorem inType_bracketed {items : List (List Lexeme)} (each : ∀ ls ∈ items, ∀ l ∈ ls, l.InType) :
    ∀ l ∈ bracketed items, l.InType := by
  unfold bracketed
  split
  next => simp
  next =>
    rw [List.forall_mem_append, List.forall_mem_cons]
    exact ⟨⟨.inr (by decide), inType_intercalate each⟩, by simpa using .inr (by decide)⟩

end Lexeme

mutual

theorem TypeRef.inType : (t : TypeRef) → ∀ l ∈ t.lexemes, l.InType
  | ⟨name, arguments, dimensions, none, span⟩ => by
    rw [TypeRef.lexemes, List.forall_mem_append, List.forall_mem_append]
    exact ⟨⟨Lexeme.inType_name name, Lexeme.inType_bracketed (TypeArgument.inType arguments)⟩,
      Lexeme.inType_dimensions dimensions⟩
  | ⟨name, arguments, dimensions, some outer, span⟩ => by
    rw [TypeRef.lexemes, List.forall_mem_append, List.forall_mem_append, List.forall_mem_append,
      List.forall_mem_cons]
    exact ⟨⟨⟨outer.inType, .inr (by decide), Lexeme.inType_name name⟩,
      Lexeme.inType_bracketed (TypeArgument.inType arguments)⟩, Lexeme.inType_dimensions dimensions⟩

theorem TypeArgument.inType : (arguments : List TypeArgument) →
    ∀ ls ∈ TypeArgument.lexemesOf arguments, ∀ l ∈ ls, l.InType
  | [] => by simp [TypeArgument.lexemesOf]
  | .type type :: rest => by
    rw [TypeArgument.lexemesOf, TypeArgument.lexemes, List.forall_mem_cons]
    exact ⟨type.inType, TypeArgument.inType rest⟩
  | .wildcard _ :: rest => by
    rw [TypeArgument.lexemesOf, TypeArgument.lexemes, List.forall_mem_cons, List.forall_mem_singleton]
    exact ⟨.inr (by decide), TypeArgument.inType rest⟩
  | .bounded kind bound _ :: rest => by
    rw [TypeArgument.lexemesOf, TypeArgument.lexemes, List.forall_mem_cons, List.forall_mem_cons,
      List.forall_mem_cons]
    exact ⟨⟨.inr (by decide), .inl ⟨_, rfl⟩, bound.inType⟩, TypeArgument.inType rest⟩

end

namespace TypeRef

/-- A type starts with an identifier or a primitive keyword. -/
theorem Named.kind_firstWord {t : TypeRef} (named : t.Named (Dotted IsIdentifier)) :
    Kind.ofWord t.firstWord = .identifier ∨ ∃ p, Kind.ofWord t.firstWord = .primitive p := by
  cases named with
  | primitive p dimensions span =>
    rw [firstWord_mk, firstWord_word (isWord_primitive p)]
    exact .inr ⟨p, by cases p <;> rfl⟩
  | simple dimensions span dotted _ =>
    rw [firstWord_mk]
    induction dotted with
    | one word =>
      rw [firstWord_word word.word]
      exact .inl word.free
    | more _ _ ih =>
      rw [firstWord_more]
      exact ih
  | member dimensions span outer _ _ _ _ =>
    rw [firstWord_mk, firstWord_enclosed]
    exact outer.kind_firstWord

/-- A type and what follows it: the first word, and a second lexeme that is in the type or what
follows. -/
theorem lexemes_eq_cons_cons (t : TypeRef) (next : Lexeme) (ls : List Lexeme) :
    ∃ second rest, t.lexemes ++ next :: ls = Lexeme.word t.firstWord :: second :: rest ∧
      (second.InType ∨ second = next) := by
  obtain ⟨rest, spelled⟩ := t.lexemes_eq_cons
  have inType := t.inType
  rw [spelled] at inType ⊢
  cases rest with
  | nil => exact ⟨next, ls, rfl, .inr rfl⟩
  | cons second rest => exact ⟨second, _, rfl, .inl (inType second (by simp))⟩

theorem Named.unqualified {t : TypeRef} (named : t.Named (Dotted IsIdentifier))
    (notSealed : t.firstWord ≠ "sealed") {next : Lexeme} (notOperator : next.kind ≠ .operator)
    (ls : List Lexeme) : Unqualified (t.lexemes ++ next :: ls) := by
  obtain ⟨second, rest, spelled, inType⟩ := t.lexemes_eq_cons_cons next ls
  have notModifier : ∀ m, (Lexeme.word t.firstWord).kind ≠ .modifier m := by
    intro m
    rcases named.kind_firstWord with same | ⟨p, same⟩ <;> simp [Lexeme.word, same]
  have notSign : (Lexeme.word t.firstWord).kind ≠ .atSign := Kind.ofWord_ne (by decide) _
  refine ⟨_, second, rest, spelled, notSign, notModifier, notSealed, ?_⟩
  rcases inType with inside | rfl
  · exact inside.kind_ne (by decide)
  · exact notOperator

theorem addDimensions_zero (t : TypeRef) : t.addDimensions 0 = t := by cases t; rfl

end TypeRef

namespace Parameter

/-- The parameter with all places left out. -/
def withoutSpans (p : Parameter) : Parameter :=
  { p with type := p.type.withoutSpans, span := .synthetic }

variable {c c' : Cursor}

/-- What stands behind the type of a parameter: perhaps dots, and its name. -/
private theorem nameKind {p : Parameter} (named : p.Named IsIdentifier) {c₁ : Cursor}
    (spells : c₁.Spells [Lexeme.word p.name] c') :
    c₁.nextKind = some .identifier ∧ ∃ h, c₁.identifier = .ok ⟨p.name, c', h⟩ := by
  obtain ⟨c₂, h, taken, rest⟩ := Cursor.identifier_of_spells named.name.free spells
  obtain rfl := rest.nil_eq
  have kind : (Lexeme.word p.name).kind = .identifier := named.name.free
  exact ⟨by rw [spells.nextKind_eq, kind], h, taken⟩

theorem read_of_spells {p : Parameter} (named : p.Named IsIdentifier)
    (spells : c.Spells p.lexemes c')
    (ends : c'.nextKind = some .comma ∨ c'.nextKind = some .rightParen) :
    ∃ value h, read c = .ok ⟨some value, c', h⟩ ∧
      value.withoutSpans = (Counterpart.bare p).withoutSpans := by
  have notBracket : c'.nextKind ≠ some .leftBracket := by rcases ends with next | next <;> simp [next]
  have noDimensions := Cursor.dimensions_of_nextKind notBracket
  have notOperator : (Lexeme.word p.name).kind ≠ .operator := Kind.ofWord_ne (by decide) _
  rw [lexemes] at spells
  -- What stands behind the type decides that no annotation is passed there: the name or the dots.
  cases variadic : p.variadic with
  | false =>
    rw [variadic, if_neg (by decide), List.append_nil] at spells
    have unqualified : Qualifiers.read c = _ :=
      Qualifiers.readFrom_of_unqualified (named.type.unqualified named.start notOperator []) spells
    obtain ⟨c₁, typed, rest⟩ := spells.split
    obtain ⟨next, h₂, taken⟩ := nameKind named rest
    obtain ⟨type, h₁, typeRead, same⟩ := named.type.reads c c₁ typed (by simp [EndsType, next])
    have unmarked : Annotation.pass c₁ = _ := Annotation.pass_of_nextKind (by simp [next])
    have noDots : c₁.accept? .ellipsis = none := Cursor.accept?_eq_none (by simp [next])
    have notThis : c₁.accept? .thisWord = none := Cursor.accept?_eq_none (by simp [next])
    obtain ⟨h, returned⟩ := read_eq_ok_iff.mpr (.named
      ⟨c, c₁, c₁, _, h₁, _, unqualified, typeRead, unmarked, .missing noDots⟩ notThis taken
      noDimensions)
    exact ⟨_, h, returned, by
      simp [withoutSpans, Counterpart.bare, TypeRef.addDimensions_zero, same, variadic]⟩
  | true =>
    rw [variadic, if_pos rfl, List.append_assoc] at spells
    have dotted : Kind.ellipsis.lexeme.kind ≠ .operator := by decide
    have unqualified : Qualifiers.read c = _ :=
      Qualifiers.readFrom_of_unqualified (named.type.unqualified named.start dotted _) spells
    obtain ⟨c₁, typed, rest⟩ := spells.split
    have first : c₁.nextKind = some .ellipsis := rest.nextKind_eq
    obtain ⟨type, h₁, typeRead, same⟩ := named.type.reads c c₁ typed (by simp [EndsType, first])
    have unmarked : Annotation.pass c₁ = _ := Annotation.pass_of_nextKind (by simp [first])
    obtain ⟨dots, c₂, h₂, dotsFound, _, rest⟩ := Cursor.accept?_of_spells rest
    change c₁.accept? .ellipsis = _ at dotsFound
    obtain ⟨next, h₃, taken⟩ := nameKind named rest
    have notThis : c₂.accept? .thisWord = none := Cursor.accept?_eq_none (by simp [next])
    obtain ⟨h, returned⟩ := read_eq_ok_iff.mpr (.named
      ⟨c, c₁, c₁, _, h₁, _, unqualified, typeRead, unmarked, .passed dotsFound⟩ notThis taken
      noDimensions)
    exact ⟨_, h, returned, by
      simp [withoutSpans, Counterpart.bare, TypeRef.addDimensions_zero, same, variadic]⟩

/-- The parameters of a member with their round brackets. -/
theorem readAll_of_spells {ps : List Parameter} (named : ∀ p ∈ ps, p.Named IsIdentifier)
    (spells : c.Spells (listLexemes ps) c') :
    ∃ values h, readAll c = .ok ⟨values, c', h⟩ ∧
      values.map withoutSpans = ps.map fun p => (Counterpart.bare p).withoutSpans := by
  rw [listLexemes, List.cons_append] at spells
  obtain ⟨left, c₁, h₁, opened, _, inside⟩ :=
    Cursor.expect_of_spells "'(' to open parameter list" spells
  change c.expect .leftParen _ = _ at opened
  obtain ⟨c₂, list, closing⟩ := inside.split
  have next : c₂.nextKind = some .rightParen := closing.nextKind_eq
  obtain ⟨right, c₃, h₃, closed, _, rest⟩ :=
    Cursor.expect_of_spells "')' to close parameter list" closing
  change c₂.expect .rightParen _ = _ at closed
  obtain rfl := rest.nil_eq
  by_cases none : ps = []
  · subst none
    obtain rfl := list.nil_eq
    have empty : c₂.sees [.rightParen] = true := by simp [Cursor.sees_one, next]
    refine ⟨[], by omega, ?_, rfl⟩
    rw [readAll, opened, ok_bind]
    simp only [empty, if_true, pure_bind, closed, ok_bind]
    rfl
  · have some : c₁.sees [.rightParen] = false := by
      obtain ⟨p, others, rfl⟩ := List.exists_cons_of_ne_nil none
      have first : ∃ ls, c₁.Spells (p.type.lexemes ++ ls) c₂ := by
        cases others with
        | nil => exact ⟨_, by simpa [lexemes] using list⟩
        | cons q others =>
          rw [List.map_cons, List.map_cons, List.intercalate_cons_cons, lexemes, List.append_assoc,
            List.append_assoc, List.append_assoc] at list
          exact ⟨_, list⟩
      obtain ⟨ls, spelled⟩ := first
      rw [Cursor.sees_one, TypeRef.nextKind_of_spells spelled]
      simpa using Kind.ofWord_ne (by decide) _
    -- No parameter of the list is a receiver, so all that are read are kept.
    have each : ∀ p ∈ ps, ∀ (d d' : Cursor) (_ : d.size ≤ c₁.size), d.Spells p.lexemes d' →
        (d'.nextKind = Option.some .comma ∨ d'.nextKind = Option.some .rightParen) →
        ∃ value h, read d = .ok ⟨value, d', h⟩ ∧
          value.map withoutSpans = Option.some (Counterpart.bare p).withoutSpans := by
      intro p member d d' _ spells ends
      obtain ⟨value, h, found, same⟩ := read_of_spells (named p member) spells ends
      exact ⟨Option.some value, h, found, by simp [same]⟩
    obtain ⟨values, h₂, listed, same⟩ := Cursor.sepBy_of_spells (fun c' _ => read c')
      (fun value p => value.map withoutSpans = Option.some (Counterpart.bare p).withoutSpans)
      (fun _ parted => .inl parted) each none list (.inr next) (by simp [next])
    refine ⟨values.filterMap id, by omega, ?_, ?_⟩
    · rw [readAll, opened, ok_bind]
      simp only [some, Bool.false_eq_true, if_false, listed, ok_bind, pure_bind, closed]
      rfl
    · have all : values.map (Option.map withoutSpans) =
          ps.map fun p => Option.some (Counterpart.bare p).withoutSpans := map_eq_of_forall₂ same
      have flat := congrArg (List.filterMap id) all
      simpa [List.filterMap_map, List.map_filterMap, Function.comp_def] using flat

end Parameter

/-! ### Bodies -/

/-- The second cursor stands behind the tokens of the lines, which come next at the first. -/
def Cursor.Shows (c : Cursor) (lines : List Line) (c' : Cursor) : Prop :=
  ∃ taken, c.Passes taken c' ∧ Lines lines (taken.map Token.mark)

namespace Cursor.Shows

variable {c c' : Cursor} {line : Line} {lines others : List Line}

/-- The first of several lines: its lexemes, and its text where it is quoted. -/
theorem uncons (shows_ : c.Shows (line :: lines) c') :
    ∃ taken c₁, c.Passes taken c₁ ∧ taken.map Token.lexeme = line.lexemes ∧
      Mark.quote (taken.map Token.mark) = line.text ∧ c₁.Shows lines c' := by
  obtain ⟨taken, passes, spelled⟩ := shows_
  generalize marked : taken.map Token.mark = marks at spelled
  cases spelled with
  | @cons _ _ ms others lexemes quoted _ rest =>
    obtain ⟨first, second, rfl, rfl, rfl⟩ := List.map_eq_append_iff.mp marked
    obtain ⟨c₁, passes₁, passes₂⟩ := passes.split
    refine ⟨first, c₁, passes₁, ?_, quoted, second, passes₂, rest⟩
    rw [← lexemes, List.map_map]
    rfl

theorem split (shows_ : c.Shows (lines ++ others) c') :
    ∃ c₁, c.Shows lines c₁ ∧ c₁.Shows others c' := by
  obtain ⟨taken, passes, spelled⟩ := shows_
  obtain ⟨front, back, marked, ofFirst, ofSecond⟩ := spelled.split
  obtain ⟨first, second, rfl, rfl, rfl⟩ := List.map_eq_append_iff.mp marked
  obtain ⟨c₁, passes₁, passes₂⟩ := passes.split
  exact ⟨c₁, ⟨first, passes₁, ofFirst⟩, second, passes₂, ofSecond⟩

theorem spells_cons (shows_ : c.Shows (line :: lines) c') :
    ∃ c₁, c.Spells line.lexemes c₁ ∧ c₁.Shows lines c' := by
  obtain ⟨taken, c₁, passes, lexemes, _, rest⟩ := shows_.uncons
  exact ⟨c₁, ⟨taken, passes, lexemes⟩, rest⟩

theorem nil_eq (shows_ : c.Shows [] c') : c' = c := by
  obtain ⟨taken, passes, spelled⟩ := shows_
  generalize marked : taken.map Token.mark = marks at spelled
  cases spelled
  obtain rfl := List.map_eq_nil_iff.mp marked
  exact Spells.nil_eq ⟨[], passes, rfl⟩

end Cursor.Shows

/-! ### Statements -/

/-- What starts with a bracket in a pair or with no bracket starts a statement. -/
theorem Balanced.head_ne {kind : Kind} {kinds : List Kind} (balanced : Balanced (kind :: kinds)) :
    kind ≠ .leftBrace ∧ kind ≠ .rightBrace ∧ kind ≠ .semicolon := by
  generalize whole : kind :: kinds = all at balanced
  cases balanced with
  | nil => cases whole
  | plain notOpening notClosing notEnd _ =>
    obtain ⟨rfl, -⟩ := List.cons.inj whole
    refine ⟨?_, ?_, fun same => notEnd (by simp [same])⟩
    · rintro rfl
      cases notOpening
    · rintro rfl
      cases notClosing
  | group opens _ _ _ =>
    obtain ⟨rfl, -⟩ := List.cons.inj whole
    rcases List.mem_pair.mp opens with rfl | rfl <;> decide

/-- Lexemes that are read as one statement where a semicolon follows: they start with neither a brace
nor a semicolon, and the scan for the end of the statement stops at the semicolon behind them. -/
structure Sentence (ls : List Lexeme) : Prop where
  starts : ∃ first more, ls = first :: more ∧
    first.kind ≠ .leftBrace ∧ first.kind ≠ .rightBrace ∧ first.kind ≠ .semicolon
  stops : ∀ (c : Cursor) (taken : List Token) (semicolon : Token) (rest : List Token),
    c.ahead = taken ++ semicolon :: rest → taken.map Token.lexeme = ls →
    semicolon.kind = .semicolon →
    Fragment.statementLength? (c.seesWord "do") c.ahead 0 0 = some (taken.length, true)

theorem Phrase.sentence {text : String} {ls : List Lexeme} (phrase : Phrase text ls) :
    Sentence ls := by
  refine ⟨?_, fun c taken semicolon rest ahead lexemes kind => ?_⟩
  · obtain ⟨first, more, rfl⟩ := List.exists_cons_of_ne_nil phrase.nonempty
    exact ⟨first, more, rfl, phrase.balanced.head_ne⟩
  · have kinds : taken.map Token.kind = ls.map Lexeme.kind := by
      rw [← lexemes, List.map_map]
      rfl
    rw [ahead, Fragment.statementLength?_of_balanced phrase.balanced _ kinds, Fragment.statementLength?,
      kind]
    simp

namespace Block

/-- Statements with a semicolon behind each are read one by one, up to the closing brace. -/
theorem readStatements_of_shows {body : List Line}
    (sentences : ∀ line ∈ body, Sentence line.lexemes) {origin : Cursor} (start : Location)
    {c c' : Cursor} (within : c.size < origin.size) (count : Nat) (read : List BodyStatement)
    (few : count + body.length < limit)
    (shows_ : c.Shows (body.flatMap Line.ended ++ [Line.closing]) c') :
    ∃ (fragments : List Fragment) (h : _), readStatements origin start c within count read =
        .ok ⟨read.reverse ++ fragments.map BodyStatement.fragment, c', h⟩ ∧
      fragments.map Fragment.text = body.map Line.text := by
  induction body generalizing c count read with
  | nil =>
    obtain ⟨c₁, spells, rest⟩ := shows_.spells_cons
    obtain rfl := rest.nil_eq
    obtain ⟨brace, c₂, h₂, closed, _, rest⟩ := Cursor.accept?_of_spells spells
    change c.accept? .rightBrace = _ at closed
    obtain rfl := rest.nil_eq
    refine ⟨[], by omega, ?_, rfl⟩
    rw [readStatements, if_neg (by simp only [List.length_nil] at few; omega), closed]
    simp
  | cons line body ih =>
    obtain ⟨sentence, others⟩ := List.forall_mem_cons.mp sentences
    have open_ : ¬limit ≤ count := by omega
    rw [List.flatMap_cons, Line.ended, List.append_assoc, List.cons_append, List.cons_append] at shows_
    obtain ⟨taken, c₁, passes, lexemes, quoted, rest⟩ := shows_.uncons
    obtain ⟨ending, c₂, passesEnd, lexemesEnd, _, rest⟩ := rest.uncons
    obtain ⟨semicolon, rfl, lexeme⟩ := List.map_eq_singleton_iff.mp lexemesEnd
    have kind : semicolon.kind = .semicolon := congrArg Lexeme.kind lexeme
    have whole := passes.trans passesEnd
    -- The semicolon is not inside a bracket of the sentence, so it ends the statement.
    have stops := sentence.stops c taken semicolon c₂.ahead (by simpa using whole.ahead) lexemes kind
    obtain ⟨start_, more, spelled, notOpen, notClosed, notEnded⟩ := sentence.starts
    rw [spelled] at lexemes
    obtain ⟨first, more, rfl, sameFirst, _⟩ := List.map_eq_cons_iff.mp lexemes
    have next : c.nextKind = some start_.kind := by
      rw [Cursor.nextKind, passes.ahead, ← sameFirst]
      rfl
    obtain ⟨h, statement⟩ := Fragment.readStatement_of_passes whole stops (.semicolon kind)
    obtain ⟨fragments, h', later, texts⟩ := ih others (Nat.lt_trans h within) (count + 1)
      (.fragment (Fragment.ofTokens first more) :: read) (by simp only [List.length_cons] at few; omega)
      rest
    have more_ : c.ahead.isEmpty = false := by simp [passes.ahead]
    have notNested : c.sees [.leftBrace] = false := by simp [Cursor.sees_one, next, notOpen]
    refine ⟨Fragment.ofTokens first more :: fragments, h', ?_, ?_⟩
    · rw [readStatements, if_neg open_, Cursor.accept?_eq_none (by simp [next, notClosed]),
        Cursor.accept?_eq_none (by simp [next, notEnded])]
      simp only [more_, notNested, Bool.false_eq_true, if_false, statement, ok_bind, later]
      simp
    · rw [List.map_cons, List.map_cons, Fragment.text_ofTokens, quoted, texts]

/-- A block of statements is read behind its opening brace. -/
theorem read_of_shows {body : List Line} (sentences : ∀ line ∈ body, Sentence line.lexemes)
    (few : body.length < limit) {c c₁ c' : Cursor} (opening : c.Spells [Kind.leftBrace.lexeme] c₁)
    (shows_ : c₁.Shows (body.flatMap Line.ended ++ [Line.closing]) c') :
    ∃ (fragments : List Fragment) (span : Span) (h : _), Block.read c =
        .ok ⟨⟨fragments.map BodyStatement.fragment, span⟩, c', h⟩ ∧
      fragments.map Fragment.text = body.map Line.text := by
  obtain ⟨brace, c₂, h₂, opened, _, rest⟩ :=
    Cursor.expect_of_spells "'\x7b' to open block" opening
  change c.expect .leftBrace _ = _ at opened
  obtain rfl := rest.nil_eq
  obtain ⟨fragments, h, statements, texts⟩ :=
    readStatements_of_shows sentences c.location h₂ 0 [] (by omega) shows_
  refine ⟨fragments, ⟨c.location, c'.lastStop⟩, h, ?_, texts⟩
  rw [Block.read, opened, ok_bind]
  simp only [statements, ok_bind]
  rfl

end Block

end TestDouble
