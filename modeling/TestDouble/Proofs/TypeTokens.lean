import TestDouble.Proofs.DeclarationEcho

/-!
# Tokens of types

A type that was read can be read again wherever its tokens stand, as long as nothing follows that
could go on with it. This holds of the tokens themselves, also where they are not those of the type's
text: a keyword may have been taken for a name, and a pair of angle brackets may hold nothing. The
tokens are all told apart from those around a type: brackets stand in pairs, and behind every comma
there is a closing angle bracket.
-/

namespace TestDouble

open Cursor (Spells EndsType EndsArgument)

/-- Kinds of tokens that stand in a type for themselves; square brackets stand in pairs, and commas
between arguments. -/
def Kind.inType : Kind → Bool
  | identifier | primitive _ | less | greater | dot | question | extendsWord | superWord => true
  | _ => false

/-- Tokens that may stand in a type: brackets in pairs, and commas before a closing angle bracket. -/
inductive TypeTokens : List Token → Prop where
  | nil : TypeTokens []
  | one {t : Token} {ts : List Token} : t.kind.inType = true → TypeTokens ts → TypeTokens (t :: ts)
  | comma {t : Token} {ts : List Token} : t.kind = .comma → .greater ∈ ts.map Token.kind →
      TypeTokens ts → TypeTokens (t :: ts)
  | pair {t u : Token} {ts : List Token} : t.kind = .leftBracket → u.kind = .rightBracket →
      TypeTokens ts → TypeTokens (t :: u :: ts)

theorem TypeTokens.append {ts us : List Token} (first : TypeTokens ts) (second : TypeTokens us) :
    TypeTokens (ts ++ us) := by
  induction first with
  | nil => exact second
  | one kind _ ih => exact .one kind ih
  | comma kind closed _ ih =>
    refine .comma kind ?_ ih
    rw [List.append_eq, List.map_append]
    exact List.mem_append_left _ closed
  | pair left right _ ih => exact .pair left right ih

/-- Tokens without annotations, each with the text that its kind asks for. -/
structure Bare (tokens : List Token) : Prop where
  sign : ∀ t ∈ tokens, t.kind ≠ .atSign
  fixed : ∀ t ∈ tokens, ∀ text, t.kind.spelling? = some text → t.text = text

section

variable {a b : List Token} {t : Token}

theorem Bare.left (bare : Bare (a ++ b)) : Bare a :=
  ⟨fun t member => bare.sign t (List.mem_append_left b member),
   fun t member => bare.fixed t (List.mem_append_left b member)⟩

theorem Bare.right (bare : Bare (a ++ b)) : Bare b :=
  ⟨fun t member => bare.sign t (List.mem_append_right a member),
   fun t member => bare.fixed t (List.mem_append_right a member)⟩

theorem Bare.tail (bare : Bare (t :: b)) : Bare b := Bare.right (a := [t]) bare

theorem Bare.lexeme (bare : Bare (t :: b)) {kind : Kind} {text : String} (same : t.kind = kind)
    (fixed : kind.spelling? = some text) : t.lexeme = kind.lexeme := by
  have spelled := bare.fixed t List.mem_cons_self text (same ▸ fixed)
  rw [Token.lexeme, Kind.lexeme, spelled, same, fixed]
  rfl

/-- Annotations passed among such tokens are none. -/
theorem Bare.eq_nil (bare : Bare a)
    (passed : a = [] ∨ ∃ at_ rest, a = at_ :: rest ∧ at_.kind = .atSign) : a = [] := by
  rcases passed with rfl | ⟨at_, rest, rfl, sign⟩
  · rfl
  · exact absurd sign (bare.sign at_ List.mem_cons_self)

end

/-! ### What is read again -/

/-- Where tokens with the same lexemes come next, and behind them something that ends what was read,
the reader takes just these and returns the same up to spans. -/
def Rereads {α β : Type} (taken : List Token) (Ends : Cursor → Prop)
    (reader : (c : Cursor) → Reading α c) (bare : α → β) (value : α) : Prop :=
  ∀ c d : Cursor, c.Spells (taken.map Token.lexeme) d → Ends d →
    ∃ again h, reader c = .ok ⟨again, d, h⟩ ∧ bare again = bare value

/-- What comes next cannot belong to the name or the arguments of a type that ends here. -/
def Cursor.EndsBase (c : Cursor) : Prop := c.nextKind ≠ some .less ∧ c.nextKind ≠ some .dot

/-- What was read between two cursors: of its tokens something can be said once they are bare. -/
private def TellsTokens {α : Type} (c c' : Cursor) (value : α)
    (Told : List Token → α → Prop) : Prop :=
  ∃ taken, c.Passes taken c' ∧ (Bare taken → TypeTokens taken ∧ Told taken value)

/-- The next token is of the same kind where the same lexemes come next. -/
theorem Cursor.Passes.nextKind_eq {c c' d d' : Cursor} {taken : List Token}
    (passes : c.Passes taken d) (spells : c'.Spells (taken.map Token.lexeme) d')
    (shorter : d.size < c.size) : c'.nextKind = c.nextKind := by
  have size := passes.size_eq
  cases taken with
  | nil =>
    rw [List.length_nil] at size
    omega
  | cons t taken =>
    rw [List.map_cons] at spells
    rw [spells.nextKind_eq, Cursor.nextKind, passes.ahead]
    rfl

theorem Cursor.Passes.nextKind_ne {c d : Cursor} {taken : List Token} {kind : Kind}
    (passes : c.Passes taken d) (shorter : d.size < c.size) (none : ∀ t ∈ taken, t.kind ≠ kind) :
    c.nextKind ≠ some kind := by
  have size := passes.size_eq
  cases taken with
  | nil =>
    rw [List.length_nil] at size
    omega
  | cons t taken =>
    rw [Cursor.nextKind, passes.ahead]
    simpa using none t List.mem_cons_self

/-- The bracket pairs behind a type. -/
private theorem dimensionsAgain {c d : Cursor} {k : Nat} (pairs : TypeRef.Dimensioned c k d) :
    ∃ taken, c.Passes taken d ∧ (Bare taken → TypeTokens taken ∧
      taken.map Token.lexeme = Lexeme.dimensions k) := by
  induction pairs with
  | ended annotated _ =>
    obtain ⟨signs, passedSigns, shape⟩ := Annotation.pass_eq_ok annotated
    refine ⟨signs, passedSigns, fun bare => ?_⟩
    obtain rfl := bare.eq_nil shape
    exact ⟨.nil, rfl⟩
  | @pair _ _ _ _ _ closing _ _ annotated found _ ih =>
    obtain ⟨signs, passedSigns, shape⟩ := Annotation.pass_eq_ok annotated
    obtain ⟨opening, passedPair, left, right⟩ := Cursor.acceptPair?_eq_some found
    obtain ⟨taken, passed, told⟩ := ih
    refine ⟨signs ++ ([opening, closing] ++ taken), passedSigns.trans (passedPair.trans passed), ?_⟩
    intro bare
    obtain rfl := bare.left.eq_nil shape
    obtain ⟨tokens, spelled⟩ := told bare.right.right
    have first : opening.lexeme = Kind.leftBracket.lexeme := bare.right.lexeme left rfl
    have second : closing.lexeme = Kind.rightBracket.lexeme := bare.right.tail.lexeme right rfl
    exact ⟨.pair left right tokens, by simp [first, second, spelled, Lexeme.dimensions]⟩

theorem TypeRef.primitive?_eq_none {c : Cursor} (next : c.nextKind = some .identifier) :
    TypeRef.primitive? c = none := by
  obtain ⟨last, _ | ⟨token, rest⟩⟩ := c
  · rfl
  · have kind : token.kind = .identifier := Option.some.inj next
    rw [primitive?]
    simp only [kind]

/-- A dot and a name come next again where they did before. -/
private theorem accepted_pair {e d : Cursor} {dot token : Token} {taken : List Token}
    (dotKind : dot.kind = .dot) (kind : token.kind = .identifier)
    (spells : e.Spells ((dot :: token :: taken).map Token.lexeme) d) :
    e.nextKind ≠ some .less ∧ ∃ found c h, e.acceptPair? .dot .identifier = some ⟨found, c, h⟩ ∧
      found.text = token.text ∧ c.Spells (taken.map Token.lexeme) d := by
  have next : e.nextKind = some .dot := by
    rw [spells.nextKind_eq]
    exact congrArg some dotKind
  obtain ⟨found, c, h, accepted, lexeme, rest⟩ := Cursor.acceptPair?_of_spells spells
  change e.acceptPair? dot.kind token.kind = _ at accepted
  rw [dotKind, kind] at accepted
  exact ⟨by simp [next], found, c, h, accepted, Token.text_eq_of_lexeme lexeme, rest⟩

/-- What is said of type arguments one by one. -/
private def Item (taken : List Token) (a : TypeArgument) : Prop :=
  Bare taken → TypeTokens taken ∧
    Rereads taken EndsArgument TypeArgument.read TypeArgument.withoutSpans a

/-- Arguments with commas between them, before the bracket that closes the list. -/
private theorem typeTokens_of_separated {taken : List Token} {items : List TypeArgument}
    (separated : Cursor.Separated Item .comma taken items) (bare : Bare taken) {greater : Token}
    (kind : greater.kind = .greater) : TypeTokens (taken ++ [greater]) := by
  have closing : TypeTokens [greater] := .one (by rw [kind]; rfl) .nil
  induction separated with
  | one item => exact (item bare).1.append closing
  | @more taken rest t a items item commaKind _ ih =>
    rw [List.append_assoc]
    refine (item bare.left).1.append (.comma commaKind ?_ (ih bare.right.tail))
    simp [kind]

/-- The lexemes of separated items, item by item. -/
private theorem parts_of_separated {taken : List Token} {items : List TypeArgument}
    (separated : Cursor.Separated Item .comma taken items) (bare : Bare taken) :
    ∃ parts : List (List Token × TypeArgument), parts ≠ [] ∧ parts.map Prod.snd = items ∧
      taken.map Token.lexeme =
        [Kind.comma.lexeme].intercalate (parts.map fun part => part.1.map Token.lexeme) ∧
      ∀ part ∈ parts,
        Rereads part.1 EndsArgument TypeArgument.read TypeArgument.withoutSpans part.2 := by
  induction separated with
  | @one taken a item => exact ⟨[(taken, a)], by simp, rfl, by simp, by simpa using (item bare).2⟩
  | @more taken rest t a items item kind _ ih =>
    obtain ⟨parts, nonempty, rfl, spelled, each⟩ := ih bare.right.tail
    have comma : t.lexeme = Kind.comma.lexeme := bare.right.lexeme kind rfl
    obtain ⟨part, parts, rfl⟩ := List.exists_cons_of_ne_nil nonempty
    refine ⟨(taken, a) :: part :: parts, by simp, rfl, ?_, ?_⟩
    · rw [List.map_append, List.map_cons, spelled, comma]
      simp
    · exact List.forall_mem_cons.mpr ⟨(item bare.left).2, each⟩

/-- A token that was expected is found again where its lexeme comes next. -/
private theorem expected_again {c d : Cursor} {kind : Kind} (what : String) {t : Token}
    (same : t.kind = kind) (spells : c.Spells [t.lexeme] d) :
    ∃ found h, c.expect kind what = .ok ⟨found, d, h⟩ := by
  obtain ⟨found, e, h, expected, -, rest⟩ := Cursor.expect_of_spells what spells
  change c.expect t.kind _ = _ at expected
  rw [same] at expected
  obtain rfl := rest.nil_eq
  exact ⟨found, h, expected⟩

/-- A question mark comes next again where it did before. -/
private theorem accepted_question {c d : Cursor} {question : Token} {ts : List Token}
    (kind : question.kind = .question) (spells : c.Spells ((question :: ts).map Token.lexeme) d) :
    Annotation.pass c = .ok ⟨(), c, c.size_le⟩ ∧
      ∃ found e h, c.accept? .question = some ⟨found, e, h⟩ ∧ e.Spells (ts.map Token.lexeme) d := by
  have next : c.nextKind = some .question := by
    rw [spells.nextKind_eq]
    exact congrArg some kind
  obtain ⟨found, e, h, accepted, -, rest⟩ := Cursor.accept?_of_spells spells
  change c.accept? question.kind = _ at accepted
  rw [kind] at accepted
  have noMarker : Annotation.pass c = .ok ⟨(), c, c.size_le⟩ :=
    Annotation.pass_of_nextKind (by simp [next])
  exact ⟨noMarker, found, e, h, accepted, rest⟩

private theorem item_of_wildcard {question : Token} {span : Span}
    (kind : question.kind = .question) : Item [question] (.wildcard span) := by
  intro _
  refine ⟨.one (by rw [kind]; rfl) .nil, ?_⟩
  intro c d spells ends
  obtain ⟨passed, found, e, h, accepted, rest⟩ := accepted_question kind spells
  obtain rfl := rest.nil_eq
  have noUpper : d.accept? .extendsWord = none :=
    Cursor.accept?_eq_none (by rcases ends with next | next <;> simp [next])
  have noLower : d.accept? .superWord = none :=
    Cursor.accept?_eq_none (by rcases ends with next | next <;> simp [next])
  obtain ⟨h', read⟩ := TypeArgument.read_eq_ok_iff.mpr
    ⟨c, c.size_le, passed, .wildcard accepted noUpper noLower⟩
  exact ⟨.wildcard ⟨c.location, d.lastStop⟩, h', read, rfl⟩

/-- A wildcard with a bound: the question mark, the keyword of the bound and its type. -/
private theorem item_of_bounded {question keyword : Token} {taken : List Token} {kind : BoundKind}
    {bound : TypeRef} {span : Span} (questionKind : question.kind = .question)
    (keywordKind : keyword.kind = .ofWord kind.keyword)
    (told : Bare taken → TypeTokens taken ∧
      Rereads taken EndsType TypeRef.read TypeRef.withoutSpans bound) :
    Item (question :: keyword :: taken) (.bounded kind bound span) := by
  intro bare
  obtain ⟨tokens, again⟩ := told bare.tail.tail
  have inType : keyword.kind.inType = true := by
    rw [keywordKind]
    cases kind <;> rfl
  refine ⟨.one (by rw [questionKind]; rfl) (.one inType tokens), ?_⟩
  intro c d spells ends
  obtain ⟨passed, found, e, h, accepted, spells⟩ := accepted_question questionKind spells
  obtain ⟨word, e', h', acceptedWord, -, spells⟩ := Cursor.accept?_of_spells spells
  change e.accept? keyword.kind = _ at acceptedWord
  rw [keywordKind] at acceptedWord
  obtain ⟨value, h'', readAgain, same⟩ := again e' d spells ends.endsType
  obtain ⟨h, read⟩ := TypeArgument.read_eq_ok_iff.mpr
    ⟨c, c.size_le, passed, .bounded accepted acceptedWord readAgain⟩
  exact ⟨.bounded kind value ⟨c.location, d.lastStop⟩, h, read,
    by rw [TypeArgument.withoutSpans, TypeArgument.withoutSpans, same]⟩

/-- A name with its arguments and the dot behind it come next again: so does the name that follows
the dot. -/
private theorem segment_again {c c₁ c₂ : Cursor} {arguments : List TypeArgument} {token : Token}
    {h₂ : c₂.size < c₁.size}
    (listed : TellsTokens c c₁ arguments fun taken arguments => ∀ c' d' : Cursor,
      c'.Spells (taken.map Token.lexeme) d' → d'.nextKind ≠ some .less →
      ∃ again, TypeArgument.Optional c' again d' ∧
        again.map TypeArgument.withoutSpans = arguments.map TypeArgument.withoutSpans)
    (found : c₁.acceptPair? .dot .identifier = some ⟨token, c₂, h₂⟩) :
    TellsTokens c c₂ arguments fun taken arguments => ∀ (more : List Token) (c' d' : Cursor),
      c'.Spells ((taken ++ more).map Token.lexeme) d' →
      ∃ values e word c₃ h₃, TypeArgument.Optional c' values e ∧
        values.map TypeArgument.withoutSpans = arguments.map TypeArgument.withoutSpans ∧
        e.acceptPair? .dot .identifier = some ⟨word, c₃, h₃⟩ ∧ word.text = token.text ∧
        c₃.Spells (more.map Token.lexeme) d' := by
  obtain ⟨taken, passedList, told⟩ := listed
  obtain ⟨dot, passedPair, dotKind, kind⟩ := Cursor.acceptPair?_eq_some found
  refine ⟨taken ++ [dot, token], passedList.trans passedPair, fun bare => ?_⟩
  obtain ⟨listTokens, listAgain⟩ := told bare.left
  have pairTokens : TypeTokens [dot, token] :=
    .one (by rw [dotKind]; rfl) (.one (by rw [kind]; rfl) .nil)
  refine ⟨listTokens.append pairTokens, fun more c' d' spells => ?_⟩
  rw [List.append_assoc, List.map_append] at spells
  obtain ⟨e, spelledList, spells⟩ := spells.split
  obtain ⟨noList, word, c₃, h₃, foundAgain, text, rest⟩ := accepted_pair dotKind kind spells
  obtain ⟨values, optional, same⟩ := listAgain c' e spelledList noList
  exact ⟨values, e, word, c₃, h₃, optional, same, foundAgain, text, rest⟩

-- The readers call each other, so all these statements are proved at once.
mutual

private theorem typeAgain {c : Cursor} {r : Consumed c TypeRef} (returned : TypeRef.read c = .ok r) :
    TellsTokens c r.cursor r.value fun taken t =>
      Rereads taken EndsType TypeRef.read TypeRef.withoutSpans t := by
  obtain ⟨t, d, h⟩ := r
  obtain ⟨c₁, h₁, base, c₂, k, annotated, based, pairs, rfl⟩ := TypeRef.read_eq_ok_iff.mp ⟨h, returned⟩
  have h₂ := based.size_lt
  obtain ⟨signs, passedSigns, shape⟩ := Annotation.pass_eq_ok annotated
  obtain ⟨taken, passed, told⟩ := baseAgain based
  obtain ⟨closing, passedPairs, counts⟩ := dimensionsAgain pairs
  refine ⟨signs ++ (taken ++ closing), passedSigns.trans (passed.trans passedPairs), ?_⟩
  intro bare
  obtain rfl := bare.left.eq_nil shape
  obtain ⟨tokens, again⟩ := told bare.right.left
  obtain ⟨pairTokens, spelledPairs⟩ := counts bare.right.right
  refine ⟨tokens.append pairTokens, ?_⟩
  intro c' d spells ends
  rw [List.nil_append, List.map_append, spelledPairs] at spells
  obtain ⟨e, spelledBase, spelledPairs⟩ := spells.split
  obtain ⟨notList, notDot, -⟩ := TypeRef.ends_of_dimensions spelledPairs ends
  obtain ⟨value, based', same⟩ := again c' e spelledBase ⟨notList, notDot⟩
  -- No annotation is passed here either: the base starts with the token it started with.
  have start : c'.nextKind ≠ some .atSign := by
    rw [passed.nextKind_eq spelledBase h₂]
    exact passed.nextKind_ne h₂ bare.right.left.sign
  obtain ⟨h', read'⟩ := TypeRef.read_eq_ok_iff.mpr ⟨c', c'.size_le, value, e, k,
    Annotation.pass_of_nextKind start, based', TypeRef.dimensioned_of_spells k spelledPairs ends, rfl⟩
  refine ⟨_, h', read', ?_⟩
  rw [TypeRef.withoutSpans_dimensions, TypeRef.withoutSpans_dimensions, same]
termination_by 5 * c.size + 3

private theorem baseAgain {c d : Cursor} {t : TypeRef} (base : TypeRef.Base c t d) :
    TellsTokens c d t fun taken t => ∀ c' d' : Cursor, c'.Spells (taken.map Token.lexeme) d' →
      d'.EndsBase → ∃ again, TypeRef.Base c' again d' ∧ again.withoutSpans = t.withoutSpans := by
  cases base with
  | @primitive token d h found =>
    obtain ⟨passed, p, kind⟩ := TypeRef.primitive?_eq_some found
    dsimp only at kind
    refine ⟨[token], passed, fun _ => ⟨.one (by rw [kind]; rfl) .nil, ?_⟩⟩
    intro c' d' spells _
    obtain ⟨again, rest, place, lexeme, behind⟩ := spells.uncons
    obtain rfl := behind.nil_eq
    have againKind : again.kind = .primitive p := by rw [Token.kind_eq_of_lexeme lexeme, kind]
    obtain ⟨last, ahead⟩ := c'
    obtain rfl : ahead = again :: rest := congrArg Cursor.ahead place
    have foundAgain : TypeRef.primitive? ⟨last, again :: rest⟩ =
        some ⟨again, ⟨some again, rest⟩, Cursor.size_tail_lt ..⟩ := by
      rw [TypeRef.primitive?]
      simp only [againKind]
    exact ⟨.named again.text, .primitive foundAgain, by rw [Token.text_eq_of_lexeme lexeme]⟩
  | @name token c₁ _ _ _ notPrimitive found parts =>
    obtain ⟨passed, kind⟩ := Cursor.accept?_eq_some found
    dsimp only at kind
    -- The first word of the name stands apart from its parts.
    obtain ⟨taken, passedRest, told⟩ := partsAgain parts
    refine ⟨[token] ++ taken, passed.trans passedRest, fun bare => ?_⟩
    obtain ⟨tokens, again⟩ := told bare.right
    refine ⟨.one (by rw [kind]; rfl) tokens, ?_⟩
    intro c' d' spells ends
    have next : c'.nextKind = some .identifier := by
      rw [spells.nextKind_eq]
      exact congrArg some kind
    obtain ⟨first, c₂, h₂, accepted, lexeme, behind⟩ := Cursor.accept?_of_spells spells
    change c'.accept? token.kind = _ at accepted
    rw [kind] at accepted
    obtain ⟨value, partsRead, same⟩ := again c'.location c₂ d' none rfl behind ends
    rw [← Token.text_eq_of_lexeme lexeme] at partsRead
    exact ⟨value, .name (TypeRef.primitive?_eq_none next) accepted partsRead, same⟩
termination_by 5 * c.size + 2

private theorem partsAgain {start : Location} {c d : Cursor} {name : String}
    {enclosing : Option TypeRef} {t : TypeRef} (parts : TypeRef.Parts start c name enclosing t d) :
    TellsTokens c d t fun taken t => ∀ (start' : Location) (c' d' : Cursor) (outer : Option TypeRef),
      outer.map TypeRef.withoutSpans = enclosing.map TypeRef.withoutSpans →
      c'.Spells (taken.map Token.lexeme) d' → d'.EndsBase →
      ∃ again, TypeRef.Parts start' c' name outer again d' ∧
        again.withoutSpans = t.withoutSpans := by
  cases parts with
  | last optional _ =>
    obtain ⟨more, passedList, told⟩ := optionalAgain optional
    refine ⟨more, passedList, fun bare => ?_⟩
    obtain ⟨listTokens, listAgain⟩ := told bare
    refine ⟨listTokens, fun start' c' d' outer same spells ends => ?_⟩
    obtain ⟨values, optional', sameValues⟩ := listAgain c' d' spells ends.1
    refine ⟨_, .last optional' (Cursor.acceptPair?_eq_none ends.2), ?_⟩
    rw [TypeRef.withoutSpans_mk, TypeRef.withoutSpans_mk, sameValues, same]
  | longer optional found later =>
    have size := optional.size_le
    obtain ⟨front, passedFront, toldFront⟩ := segment_again (optionalAgain optional) found
    obtain ⟨taken, passed, toldRest⟩ := partsAgain later
    refine ⟨front ++ taken, passedFront.trans passed, fun bare => ?_⟩
    obtain ⟨frontTokens, frontAgain⟩ := toldFront bare.left
    obtain ⟨tokens, again⟩ := toldRest bare.right
    refine ⟨frontTokens.append tokens, fun start' c' d' outer same spells ends => ?_⟩
    obtain ⟨values, e, word, c₃, h₃, optional', sameValues, foundAgain, text, rest⟩ :=
      frontAgain taken c' d' spells
    -- Whether there are arguments decides how the name goes on, so they must be none again.
    obtain rfl : values = [] := List.map_eq_nil_iff.mp sameValues
    obtain ⟨value, later', sameValue⟩ := again start' c₃ d' outer same rest ends
    exact ⟨value, .longer optional' foundAgain (text ▸ later'), sameValue⟩
  | member optional nonempty found later =>
    have size := optional.size_le
    obtain ⟨front, passedFront, toldFront⟩ := segment_again (optionalAgain optional) found
    obtain ⟨taken, passed, toldRest⟩ := partsAgain later
    refine ⟨front ++ taken, passedFront.trans passed, fun bare => ?_⟩
    obtain ⟨frontTokens, frontAgain⟩ := toldFront bare.left
    obtain ⟨tokens, again⟩ := toldRest bare.right
    refine ⟨frontTokens.append tokens, fun start' c' d' outer same spells ends => ?_⟩
    obtain ⟨values, e, word, c₃, h₃, optional', sameValues, foundAgain, text, rest⟩ :=
      frontAgain taken c' d' spells
    have someValues : values ≠ [] := by
      rintro rfl
      exact nonempty (List.map_eq_nil_iff.mp sameValues.symm)
    let outer' : TypeRef := ⟨name, values, 0, outer, ⟨start', e.lastStop⟩⟩
    obtain ⟨value, later', sameValue⟩ := again start' c₃ d' (some outer')
      (by simp [outer', TypeRef.withoutSpans_mk, sameValues, same]) rest ends
    exact ⟨value, .member optional' someValues foundAgain (text ▸ later'), sameValue⟩
termination_by 5 * c.size + 2

private theorem optionalAgain {c d : Cursor} {arguments : List TypeArgument}
    (optional : TypeArgument.Optional c arguments d) :
    TellsTokens c d arguments fun taken arguments => ∀ c' d' : Cursor,
      c'.Spells (taken.map Token.lexeme) d' → d'.nextKind ≠ some .less →
      ∃ again, TypeArgument.Optional c' again d' ∧
        again.map TypeArgument.withoutSpans = arguments.map TypeArgument.withoutSpans := by
  cases optional with
  | absent =>
    refine ⟨[], .refl c, fun _ => ⟨.nil, fun c' d' spells noList => ?_⟩⟩
    obtain rfl := spells.nil_eq
    exact ⟨[], .absent (by simpa [Cursor.sees_one] using noList), rfl⟩
  | @listed _ _ h opens read =>
    obtain ⟨taken, passed, told⟩ := listAgain (TypeArgument.readAll_eq_ok_iff.mp ⟨h, read⟩)
    refine ⟨taken, passed, fun bare => ?_⟩
    obtain ⟨tokens, again⟩ := told bare
    refine ⟨tokens, fun c' d' spells _ => ?_⟩
    obtain ⟨values, h', readAgain, same⟩ := again c' d' spells trivial
    have opensAgain : c'.sees [.less] = true := by
      rw [Cursor.sees_one] at opens ⊢
      rw [passed.nextKind_eq spells h, opens]
    exact ⟨values, .listed opensAgain readAgain, same⟩
termination_by 5 * c.size + 1

private theorem listAgain {c d : Cursor} {arguments : List TypeArgument}
    (bracketed : TypeArgument.Bracketed c arguments d) :
    TellsTokens c d arguments fun taken arguments =>
      Rereads taken (fun _ => True) TypeArgument.readAll (List.map TypeArgument.withoutSpans)
        arguments := by
  cases bracketed with
  | @empty less greater _ _ _ _ opened found =>
    obtain ⟨passedLess, lessKind⟩ := Cursor.expect_eq_ok opened
    obtain ⟨passedGreater, greaterKind⟩ := Cursor.accept?_eq_some found
    dsimp only at lessKind greaterKind
    refine ⟨[less] ++ [greater], passedLess.trans passedGreater, fun _ => ⟨?_, ?_⟩⟩
    · exact .one (by rw [lessKind]; rfl) (.one (by rw [greaterKind]; rfl) .nil)
    intro c' d' spells _
    obtain ⟨e, spelledLess, spells⟩ := @Cursor.Spells.split _ _ [less.lexeme] _ spells
    obtain ⟨first, h, expected⟩ := expected_again _ lessKind spelledLess
    obtain ⟨second, e', h', accepted, -, rest⟩ := Cursor.accept?_of_spells spells
    change e.accept? greater.kind = _ at accepted
    rw [greaterKind] at accepted
    obtain rfl := rest.nil_eq
    obtain ⟨h'', read⟩ := TypeArgument.readAll_eq_ok_iff.mpr (.empty expected accepted)
    exact ⟨[], h'', read, rfl⟩
  | @listed less greater _ c₁ c₂ _ h₁ h₂ _ opened notClosed listed closed =>
    obtain ⟨passedLess, lessKind⟩ := Cursor.expect_eq_ok opened
    obtain ⟨passedGreater, greaterKind⟩ := Cursor.expect_eq_ok closed
    dsimp only at lessKind greaterKind
    obtain ⟨taken, passed, separated⟩ := Cursor.sepBy_eq_ok Item
      (fun _ _ _ read => argumentAgain read) listed
    refine ⟨less :: (taken ++ [greater]), passedLess.trans (passed.trans passedGreater), ?_⟩
    intro bare
    have bareTaken : Bare taken := bare.tail.left
    refine ⟨.one (by rw [lessKind]; rfl)
      (typeTokens_of_separated separated bareTaken greaterKind), ?_⟩
    intro c' d' spells _
    obtain ⟨e, spelledLess, spells⟩ := @Cursor.Spells.split _ _ [less.lexeme] _ spells
    obtain ⟨first, h, expected⟩ := expected_again _ lessKind spelledLess
    rw [List.map_append] at spells
    obtain ⟨e', spelledItems, closing⟩ := spells.split
    have next : e'.nextKind = some .greater := by
      rw [closing.nextKind_eq]
      exact congrArg some greaterKind
    have notClosedAgain : e.accept? .greater = none := by
      apply Cursor.accept?_eq_none
      rw [passed.nextKind_eq spelledItems h₂]
      exact Cursor.nextKind_ne_of_accept? notClosed
    obtain ⟨parts, nonempty, rfl, spelled, each⟩ := parts_of_separated separated bareTaken
    rw [spelled] at spelledItems
    obtain ⟨values, h', listedAgain, same⟩ := Cursor.sepBy_of_spells
      (fun c' _ => TypeArgument.read c')
      (fun value (part : List Token × TypeArgument) =>
        value.withoutSpans = part.2.withoutSpans)
      (fun _ parted => .inl parted)
      (fun part member c c' _ spells ends => each part member c c' spells ends)
      nonempty spelledItems (.inr next) (by simp [next])
    obtain ⟨second, h'', expectedAgain⟩ := expected_again _ greaterKind closing
    obtain ⟨h, read⟩ := TypeArgument.readAll_eq_ok_iff.mpr
      (.listed expected notClosedAgain listedAgain expectedAgain)
    refine ⟨values, h, read, ?_⟩
    rw [List.map_map]
    exact map_eq_of_forall₂ same
termination_by 5 * c.size

private theorem argumentAgain {c : Cursor} {r : Consumed c TypeArgument}
    (returned : TypeArgument.read c = .ok r) : TellsTokens c r.cursor r.value fun taken a =>
      Rereads taken EndsArgument TypeArgument.read TypeArgument.withoutSpans a := by
  obtain ⟨a, d, h⟩ := r
  obtain ⟨c₁, h₁, annotated, form⟩ := TypeArgument.read_eq_ok_iff.mp ⟨h, returned⟩
  obtain ⟨signs, passedSigns, shape⟩ := Annotation.pass_eq_ok annotated
  -- What is said of the tokens behind the annotations is said of all of them, since there are none.
  have behind {taken : List Token} (passed : c₁.Passes taken d) (item : Item taken a) :
      TellsTokens c d a fun taken a =>
        Rereads taken EndsArgument TypeArgument.read TypeArgument.withoutSpans a := by
    refine ⟨signs ++ taken, passedSigns.trans passed, fun bare => ?_⟩
    obtain rfl := bare.left.eq_nil shape
    exact item bare.right
  cases form with
  | wildcard found _ _ =>
    obtain ⟨passedQuestion, questionKind⟩ := Cursor.accept?_eq_some found
    exact behind passedQuestion (item_of_wildcard questionKind)
  | bounded found word boundRead =>
    obtain ⟨passedQuestion, questionKind⟩ := Cursor.accept?_eq_some found
    obtain ⟨passedKeyword, keywordKind⟩ := Cursor.accept?_eq_some word
    obtain ⟨taken, passed, told⟩ := typeAgain boundRead
    exact behind (passedQuestion.trans (passedKeyword.trans passed))
      (item_of_bounded questionKind keywordKind told)
  | @type type _ h₂ notQuestion typeRead =>
    obtain ⟨taken, passed, told⟩ := typeAgain typeRead
    refine behind passed fun bare => ?_
    obtain ⟨tokens, again⟩ := told bare
    refine ⟨tokens, ?_⟩
    intro c' d' spells ends
    have next := passed.nextKind_eq spells h₂
    have noSign : c'.nextKind ≠ some .atSign := by
      rw [next]
      exact passed.nextKind_ne h₂ bare.sign
    have notQuestionAgain : c'.accept? .question = none := by
      apply Cursor.accept?_eq_none
      rw [next]
      exact Cursor.nextKind_ne_of_accept? notQuestion
    obtain ⟨value, _, readAgain, same⟩ := again c' d' spells ends.endsType
    obtain ⟨h', read⟩ := TypeArgument.read_eq_ok_iff.mpr ⟨c', c'.size_le,
      Annotation.pass_of_nextKind noSign, .type notQuestionAgain readAgain⟩
    exact ⟨.type value, h', read, by rw [TypeArgument.withoutSpans, TypeArgument.withoutSpans, same]⟩
termination_by 5 * c.size + 4

end

/-- A type that is read from tokens without annotations takes tokens of types, and it is read again
where these tokens come next. -/
theorem TypeRef.rereads {c : Cursor} {r : Consumed c TypeRef} (returned : TypeRef.read c = .ok r) :
    ∃ taken, c.Passes taken r.cursor ∧ (Bare taken →
      TypeTokens taken ∧ Rereads taken EndsType TypeRef.read withoutSpans r.value) :=
  typeAgain returned

end TestDouble
