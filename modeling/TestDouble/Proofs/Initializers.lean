import TestDouble.Proofs.Declarators
import TestDouble.Proofs.Exchange
import TestDouble.Proofs.Seams
import TestDouble.Proofs.SubclassInverse
import TestDouble.Proofs.TokensDecide

/-!
# Initializers that construct the type of their field

A field is often declared with a type and constructed with the same type. When the text of a type is
put twice into the source of a class in this way, its tokens are found twice, and the type is read from
the first of them. Whether the initializer keeps the second is decided by its commas: angle brackets
are no brackets where an initializer is read, so a comma between type arguments can be taken for one
between declarators. Then the rest of the type is no declarator, and the class is refused.
-/

namespace TestDouble

/-! ### The tokens of the declaration -/

/-- The tokens of a class whose fields are declared with a type, the first of them with an
initializer that constructs this type: the class up to its brace, the type, a name and an equals
sign, then the initializer up to the opening bracket of its arguments, and what stands behind it. -/
structure Token.Constructs (type : List Token) (t : String) (after : List Mark) where
  head : List Token
  declared : List Token
  name : Token
  assign : Token
  new : Token
  again : List Token
  paren : Token
  rest : List Token
  headed : head.map lexeme = [Kind.classWord.lexeme, .word "X", Kind.leftBrace.lexeme]
  same : declared.map lexeme = type.map lexeme
  named : name.lexeme = .word "f"
  isAssign : assign.kind = .assign
  isNew : new.kind = .identifier
  sameAgain : again.map lexeme = type.map lexeme
  isParen : paren.kind = .leftParen
  text : Mark.quote ((new :: (again ++ [paren])).map mark) = "new " ++ t ++ "("
  behind : rest.map mark = after

/-- All of the tokens, in their order. -/
def Token.Constructs.tokens {type : List Token} {t : String} {after : List Mark}
    (k : Constructs type t after) : List Token :=
  k.head ++ (k.declared ++ (k.name :: k.assign :: k.new :: (k.again ++ k.paren :: k.rest)))

theorem Munch.stretch_of_lexed {text : String} {ms : List Mark}
    (lexed : (Token.ofSource text).toOption.map (List.map Token.mark) = some ms)
    (ended : endsInLineComment text.toList = false) : ∃ left, Stretch text.toList ms left := by
  rw [Token.map_mark_ofSource] at lexed
  exact Stretch.of_scan lexed ended

theorem Token.map_lexeme_of_marks {ts : List Token} {ms : List Mark} (marked : ts.map mark = ms) :
    ts.map lexeme = ms.map Mark.lexeme := by
  rw [← marked, List.map_map]
  rfl

/-- A text with tokens is put twice into the source of a class, and its tokens are found twice. -/
theorem Token.constructs_of_lexed {t tail : String} {type : List Token} {more : List Char}
    {after : List Mark} (lexed : ofSource t = .ok type) (nonempty : type ≠ [])
    (ended : Munch.endsInLineComment t.toList = false) (opens : tail.toList = '(' :: more)
    (scanned : Munch.scan [] more = some after) : ∃ k : Constructs type t after,
      ofSource ("class X \x7b " ++ t ++ " f = new " ++ t ++ tail) = .ok k.tokens := by
  obtain ⟨l, stretch⟩ := Munch.Stretch.of_scan (scan_of_ofSource lexed) ended
  obtain ⟨l₀, head⟩ : ∃ left, Munch.Stretch "class X \x7b".toList
      [⟨.classWord, "class", ""⟩, ⟨.identifier, "X", " "⟩, ⟨.leftBrace, "\x7b", " "⟩] left :=
    Munch.stretch_of_lexed (by decide +kernel) (by decide +kernel)
  obtain ⟨l₁, middle⟩ : ∃ left, Munch.Stretch "f = new".toList
      [⟨.identifier, "f", ""⟩, ⟨.assign, "=", " "⟩, ⟨.identifier, "new", " "⟩] left :=
    Munch.stretch_of_lexed (by decide +kernel) (by decide +kernel)
  obtain rfl : l₁ = [] := by simpa [Mark.spread] using middle.whole
  -- Four stretches, with blanks between them, stand before the opening bracket.
  have some_ : type.map mark ≠ [] := by simpa using nonempty
  have cut := (((head.blank stretch some_).blank middle (by simp)).blank stretch some_).paren more
  rw [scanned, Option.map_some] at cut
  have whole : ("class X \x7b " ++ t ++ " f = new " ++ t ++ tail).toList =
      "class X \x7b".toList ++ ' ' :: t.toList ++ ' ' :: "f = new".toList ++ ' ' :: t.toList ++
        '(' :: more := by
    simp [String.toList_append, opens]
  rw [← whole] at cut
  obtain ⟨tokens, lexedWhole, marked⟩ := ofSource_of_scan cut
  -- The tokens are told apart where the stretches meet.
  obtain ⟨front, behind, rfl, marked, closing⟩ := List.map_eq_append_iff.mp marked
  obtain ⟨front, again, rfl, marked, sameAgain⟩ := List.map_eq_append_iff.mp marked
  obtain ⟨front, signs, rfl, marked, signed⟩ := List.map_eq_append_iff.mp marked
  obtain ⟨head, declared, rfl, headed, same⟩ := List.map_eq_append_iff.mp marked
  obtain ⟨name, signs, rfl, named, signed⟩ := List.map_eq_cons_iff.mp signed
  obtain ⟨assign, signs, rfl, isAssign, signed⟩ := List.map_eq_cons_iff.mp signed
  obtain ⟨new, signs, rfl, isNew, signed⟩ := List.map_eq_cons_iff.mp signed
  obtain rfl : signs = [] := List.map_eq_nil_iff.mp signed
  obtain ⟨paren, rest, rfl, isParen, last⟩ := List.map_eq_cons_iff.mp closing
  have text : Mark.quote ((new :: (again ++ [paren])).map mark) = "new " ++ t ++ "(" := by
    apply String.toList_inj.mp
    rw [List.map_cons, List.map_append, Mark.toList_quote, Mark.spread_append, sameAgain,
      Mark.spread_behind some_, isNew, List.map_singleton, isParen]
    simp [Mark.spread_cons, String.toList_append, stretch.whole]
    rfl
  refine ⟨⟨head, declared, name, assign, new, again, paren, rest, ?_, ?_, ?_, ?_, ?_, ?_, ?_, text,
    last⟩, ?_⟩
  · rw [map_lexeme_of_marks headed]
    decide
  · rw [map_lexeme_of_marks same, Mark.map_lexeme_behind, ← map_lexeme_of_marks rfl]
  · rw [← lexeme_mark, named]
    change (⟨.identifier, "f"⟩ : Lexeme) = _
    decide
  · exact congrArg Mark.kind isAssign
  · exact congrArg Mark.kind isNew
  · rw [map_lexeme_of_marks sameAgain, Mark.map_lexeme_behind, ← map_lexeme_of_marks rfl]
  · exact congrArg Mark.kind isParen
  · simpa [Constructs.tokens] using lexedWhole

/-! ### The class around it -/

section

variable {c c₁ d : Cursor} {w : String} {t : Token}

/-- What stands before the body of a class without modifiers, type variables and supertypes. -/
private theorem head_of_spells (free : Kind.ofWord w = .identifier)
    (spells : c.Spells [Kind.classWord.lexeme, .word w, Kind.leftBrace.lexeme] c₁) :
    Qualifiers.read c = .ok ⟨⟨.empty, []⟩, c, c.size_le⟩ ∧
      ∃ c₂, c.HeadsClass w [] none [] c₂ ∧
        ∃ t h, c₂.expect .leftBrace "'\x7b' to open class body" = .ok ⟨t, c₁, h⟩ := by
  have plain : Unqualified [Kind.classWord.lexeme, .word w, Kind.leftBrace.lexeme] :=
    ⟨_, _, _, rfl, by decide, by simp [Kind.lexeme], by decide, Kind.ofWord_ne (by decide) _⟩
  obtain ⟨word, c₂, h₂, found, -, spelled⟩ := Cursor.accept?_of_spells spells
  obtain ⟨c₃, h₃, taken, brace⟩ := Cursor.identifier_of_spells free spelled
  have next : c₃.nextKind = some .leftBrace := brace.nextKind_eq
  obtain ⟨open_, c₄, h₄, opened, -, behind⟩ :=
    Cursor.expect_of_spells "'\x7b' to open class body" brace
  change c₃.expect .leftBrace _ = _ at opened
  obtain rfl := behind.nil_eq
  refine ⟨Qualifiers.readFrom_of_unqualified plain spells, c₃, ?_, open_, h₄, opened⟩
  -- The brace comes right behind the name, so the clauses of a head are all absent.
  refine ⟨word, c₂, c₃, c₃, c₃, c₃, h₂, h₃, c₃.size_le, c₃.size_le, c₃.size_le, c₃.size_le, found,
    taken, ?_, Cursor.clause_of_nextKind (by simp [next]), ?_, ?_⟩
  · rw [TypeParameter.readAll, Cursor.accept?_eq_none (by simp [next])]
    rfl
  · rw [TypeRef.readClause, Cursor.clause_of_nextKind (by simp [next])]
    rfl
  · rw [TypeDecl.passPermits, Cursor.acceptWord?_eq_none (by simp [next])]
    rfl

/-- Fields whose declarators cannot be read are not read. -/
theorem BodyMember.read_eq_error {q : Qualifiers} {type : TypeRef} (names : c.Names q [] type w c₁)
    (noParen : c₁.nextKind ≠ some .leftParen) {e : ParseError}
    (failed : Declarator.readAll c₁ c₁ c₁.size_le w [] = .error e) : BodyMember.read c = .error e := by
  obtain ⟨c₂, c₃, c₄, h₂, h₃, h₄, ⟨notOpen, notStatic, h₁, qualified⟩, notType, listed,
    notConstructor, typed, named⟩ := names
  have notMethod : c₁.sees [.leftParen] = false := by simpa [Cursor.sees_one] using noParen
  rw [BodyMember.read]
  simp only [notOpen, notStatic, Bool.false_eq_true, if_false, qualified, ok_bind, notType, listed,
    notConstructor, typed, named, notMethod, List.isEmpty_nil, Bool.not_true]
  exact bind_of_error failed

/-- A class with these members is all that there is. -/
theorem CompilationUnit.ofTokens_of_listed {tokens : List Token} (free : Kind.ofWord w = .identifier)
    (spells : (Cursor.start tokens).Spells [Kind.classWord.lexeme, .word w, Kind.leftBrace.lexeme] c₁)
    {members : List BodyMember} (listed : BodyMember.Listed c₁ members d) (ended : d.ahead = []) :
    ∃ span span', (ofTokens tokens).2 =
      .ok ⟨none, [], [.classDecl ⟨.empty, [], w, [], none, [], members, span⟩], span'⟩ := by
  obtain ⟨qualified, c₂, heads, t, h, opened⟩ := head_of_spells free spells
  have next : (Cursor.start tokens).nextKind = some .classWord := spells.nextKind_eq
  obtain ⟨h', bodyRead⟩ := BodyMember.readBody_eq_ok_iff.mpr ⟨t, c₁, h, opened, listed⟩
  obtain ⟨h'', restRead⟩ := (TypeDecl.ReadAs.classDecl heads bodyRead).read
  have declRead : TypeDecl.read (Cursor.start tokens) = .ok ⟨.classDecl ⟨.empty, [], w, [], none, [],
      members, ⟨(Cursor.start tokens).location, d.lastStop⟩⟩, d, h''⟩ :=
    bind_of_ok qualified (bind_of_ok restRead rfl)
  have types := TypeDecl.Listed.more (Cursor.accept?_eq_none (by simp [next])) declRead
    (.ended (by simp [ended]))
  have preamble := Preamble.read_of_nextKind (c := .start tokens) (by simp [next]) (by simp [next])
  exact ⟨_, _, ofTokens_eq_ok_iff.mpr ⟨d, _, _, _, _, preamble, types, rfl⟩⟩

/-- A class whose first member cannot be read is not read. -/
theorem CompilationUnit.ofTokens_of_error {tokens : List Token} (free : Kind.ofWord w = .identifier)
    (spells : (Cursor.start tokens).Spells [Kind.classWord.lexeme, .word w, Kind.leftBrace.lexeme] c₁)
    (next : c₁.nextKind = some .identifier) {e : ParseError} (failed : BodyMember.read c₁ = .error e) :
    ∃ e', (ofTokens tokens).2 = .error e' := by
  obtain ⟨qualified, c₂, ⟨word, d₁, d₂, d₃, d₄, d₅, _, _, _, _, _, h₆, found, named, listed, extended,
    implemented, permitted⟩, t, h, opened⟩ := head_of_spells free spells
  have nextClass : (Cursor.start tokens).nextKind = some .classWord := spells.nextKind_eq
  -- The failure goes up from the member to the body, the class, which adds its name, and the unit.
  have bodyFailed : BodyMember.readBody c₂ = .error e := by
    have more : c₁.ahead.isEmpty = false := Cursor.isEmpty_of_nextKind (by simp [next])
    have noSemicolon : c₁.accept? .semicolon = none := Cursor.accept?_eq_none (by simp [next])
    rw [BodyMember.readBody, opened, ok_bind]
    dsimp only
    rw [BodyMember.readAll, Cursor.accept?_eq_none (by simp [next]), more, noSemicolon]
    exact bind_of_error failed
  have typeFailed : TypeDecl.read (Cursor.start tokens) = .error (e.within ("class " ++ w)) := by
    refine bind_of_ok qualified (bind_of_error ?_)
    rw [TypeDecl.readRest, found]
    refine bind_of_ok named (bind_of_ok listed (bind_of_ok extended (bind_of_ok implemented
      (bind_of_ok permitted (bind_of_error ?_)))))
    rw [bodyFailed]
    rfl
  have more : (Cursor.start tokens).ahead.isEmpty = false :=
    Cursor.isEmpty_of_nextKind (by simp [nextClass])
  have typesFailed : TypeDecl.readAll (Cursor.start tokens) [] =
      ([], .error (e.within ("class " ++ w))) := by
    rw [TypeDecl.readAll, more, Cursor.accept?_eq_none (by simp [nextClass]), typeFailed]
    rfl
  have preamble := Preamble.read_of_nextKind (c := .start tokens) (by simp [nextClass])
    (by simp [nextClass])
  refine ⟨e.within ("class " ++ w), ?_⟩
  simp only [ofTokens, preamble, typesFailed]

end

/-! ### The declaration -/

/-- The first token of a type is a name, and none that has a meaning of its own before a member. -/
def NamesClass (type : List Token) : Prop :=
  ∃ first others, type = first :: others ∧ first.kind = .identifier ∧
    first.text ∉ ["record", "sealed"]

theorem TypeTokens.head_ne {t : Token} {ts : List Token} (tokens : TypeTokens (t :: ts)) :
    t.kind ≠ .operator ∧ t.kind ≠ .leftParen := by
  cases tokens with
  | one kind _ => constructor <;> (intro same; rw [same] at kind; cases kind)
  | comma kind _ _ | pair kind _ _ => simp [kind]

namespace Token.Constructs

variable {type : List Token} {t : String} {after : List Mark} {value : TypeRef} {c : Cursor}

/-- Where the declaration comes next, its type and the name of the first field are read. -/
theorem names (k : Constructs type t after) (tokens : TypeTokens type) (named : NamesClass type)
    (rereads : Rereads type Cursor.EndsType TypeRef.read TypeRef.withoutSpans value)
    {more : List Token} (ahead : c.ahead = k.declared ++ (k.name :: k.assign :: more)) :
    ∃ again c', c.Names ⟨.empty, []⟩ [] again "f" c' ∧
      again.withoutSpans = value.withoutSpans ∧ c.nextKind = some .identifier ∧
      c'.nextKind = some .assign ∧ c'.ahead = k.assign :: more := by
  obtain ⟨first, others, rfl, isName, notWord⟩ := named
  simp only [List.mem_cons, List.not_mem_nil, or_false, not_or] at notWord
  obtain ⟨c₂, passes, passesName⟩ : ∃ c₂, c.Passes k.declared c₂ ∧
      c₂.Passes [k.name] ⟨some k.name, k.assign :: more⟩ := ⟨⟨_, _⟩, ⟨ahead, rfl⟩, rfl, rfl⟩
  have spells : c.Spells ((first :: others).map lexeme) c₂ := ⟨_, passes, k.same⟩
  have spellsName : c₂.Spells [.word "f"] ⟨some k.name, k.assign :: more⟩ :=
    ⟨_, passesName, congrArg (· :: []) k.named⟩
  have kind : first.lexeme.kind = .identifier := isName
  have next : c.nextKind = some .identifier := by rw [spells.nextKind_eq, kind]
  have nextName : c₂.nextKind = some .identifier := spellsName.nextKind_eq.trans (by decide)
  -- The second token belongs to the type, or it is the name of the field.
  obtain ⟨second, rest, both, starts, notParen⟩ : ∃ second rest,
      c.Spells (first.lexeme :: second :: rest) ⟨some k.name, k.assign :: more⟩ ∧
      Counterpart.StartsMember first.lexeme second ∧ second.kind ≠ .leftParen := by
    have starts {second : Lexeme} (other : second.kind ≠ .operator) :
        Counterpart.StartsMember first.lexeme second :=
      ⟨by simp [kind], by simp [kind], notWord.2, other, fun record => absurd record notWord.1⟩
    cases tokens with
    | comma kind | pair kind => simp [isName] at kind
    | one _ tokens =>
      cases others with
      | nil => exact ⟨.word "f", [], spells.trans spellsName, starts (by decide), by decide⟩
      | cons second others =>
        exact ⟨second.lexeme, _, spells.trans spellsName, starts tokens.head_ne.1, tokens.head_ne.2⟩
  obtain ⟨again, h, typeRead, same⟩ :=
    rereads c c₂ spells (by simp [Cursor.EndsType, nextName])
  obtain ⟨d, h', nameRead, behind⟩ := Cursor.identifier_of_spells (by decide) spellsName
  obtain rfl := behind.nil_eq
  refine ⟨again, _, ⟨c, c, c₂, c.size_le, h, h', ⟨?_, ?_, c.size_le, ?_⟩,
    starts.comesNext_eq_false both, ?_, ?_, typeRead, nameRead⟩, same, next,
    congrArg some k.isAssign, rfl⟩
  · simp [Cursor.sees_one, next]
  · simp [Cursor.sees_two, next]
  · exact Qualifiers.readFrom_of_unqualified ⟨_, _, _, rfl, by simp [kind], starts.notModifier,
      starts.notSealed, starts.notOperator⟩ both
  · rw [TypeParameter.readAll, Cursor.accept?_eq_none (by simp [next])]
    rfl
  · rw [Cursor.sees_two_of_spells both]
    simp [notParen]

/-- Where the initializer comes next and none of the commas in its type looks like one between
declarators, it is read up to the bracket that closes its arguments. -/
theorem readRest_eq_ok (k : Constructs type t after) (tokens : TypeTokens type)
    (none : Declarator.appearsIn type = false) {right next : Token} {others : List Token}
    (rest : k.rest = right :: next :: others) (marked : right.mark = ⟨.rightParen, ")", ""⟩)
    (notBracket : next.kind.opens = false ∧ next.kind.closes = false)
    (ends : Declarator.endsInitializer (next :: others) = true)
    (ahead : c.ahead = k.assign :: k.new :: (k.again ++ k.paren :: k.rest)) (name : String) :
    ∃ f c' h, Declarator.readRest name c = .ok ⟨⟨name, 0, some f, c'.lastStop⟩, c', h⟩ ∧
      f.text = "new " ++ t ++ "()" ∧ c'.ahead = next :: others := by
  have isRight : right.kind = .rightParen := congrArg Mark.kind marked
  rw [rest] at ahead
  have passedAssign := Cursor.passes_of_ahead ahead
  obtain ⟨c', passes, behind⟩ : ∃ c', Cursor.Passes
      ⟨some k.assign, k.new :: (k.again ++ k.paren :: right :: next :: others)⟩
      (k.new :: (k.again ++ [k.paren, right])) c' ∧ c'.ahead = next :: others :=
    ⟨⟨_, next :: others⟩, ⟨by simp, rfl⟩, rfl⟩
  have length := Fragment.valueLength?_construction (tokens.of_lexemes k.sameAgain.symm)
    ((Declarator.appearsIn_eq k.sameAgain).trans none) k.isNew k.isParen isRight notBracket ends
  obtain ⟨h, read⟩ := Declarator.readRest_of_passes passedAssign k.isAssign passes
    (by simpa using length) name
  refine ⟨_, c', h, read, ?_, behind⟩
  have text : Mark.quote ((k.new :: (k.again ++ [k.paren])).map mark ++ [right.mark]) =
      "new " ++ t ++ "(" ++ ")" := by
    rw [← k.text, marked]
    simp [Mark.quote]
  rw [Fragment.text_ofTokens]
  simpa [String.append_assoc] using text

/-- Otherwise it ends at such a comma, and the declaration cannot be read. -/
theorem readAll_eq_error (k : Constructs type t after) (tokens : TypeTokens type)
    (some_ : Declarator.appearsIn type = true)
    (ahead : c.ahead = k.assign :: k.new :: (k.again ++ k.paren :: k.rest)) (name : String) :
    ∃ e, Declarator.readAll c c c.size_le name [] = .error e := by
  obtain ⟨before, comma, behind, split, isComma, behindTokens, closed, cut⟩ :=
    Fragment.valueLength?_cut (tokens.of_lexemes k.sameAgain.symm)
      ((Declarator.appearsIn_eq k.sameAgain).trans some_)
  have passedAssign := Cursor.passes_of_ahead ahead
  obtain ⟨c', passes, aheadBehind⟩ : ∃ c', Cursor.Passes
      ⟨some k.assign, k.new :: (k.again ++ k.paren :: k.rest)⟩ (k.new :: before) c' ∧
      c'.ahead = comma :: behind ++ k.paren :: k.rest :=
    ⟨⟨_, comma :: behind ++ k.paren :: k.rest⟩, ⟨by simp [split], rfl⟩, rfl⟩
  have length : Fragment.valueLength? Declarator.endsInitializer
      (k.new :: (k.again ++ k.paren :: k.rest)) 0 0 = some (before.length + 1) := by
    rw [Fragment.valueLength?_inType (by rw [k.isNew]; rfl), cut, Nat.add_comm]
  obtain ⟨h, read⟩ :=
    Declarator.readRest_of_passes passedAssign k.isAssign passes length name
  exact Declarator.readAll_of_typeTokens (.comma isComma closed behindTokens)
    (List.mem_cons_of_mem _ closed) read aheadBehind

end Token.Constructs

/-! ### Fields -/

/-- What a declarator without dimensions of its own declares. -/
def Declarator.Gives (d : Declarator) (name text : String) : Prop :=
  d.name = name ∧ d.dimensions = 0 ∧ d.initializer.map Fragment.text = some text

/-- A field without modifiers and annotations, its initializer given by its text. -/
def Field.initialized (type : TypeRef) (name text : String) : Field :=
  ⟨.empty, [], type.withoutSpans, name, some ⟨text, .synthetic⟩, .synthetic⟩

/-- A source with one class that has nothing but fields. -/
def CompilationUnit.ofFields (fields : List Field) : CompilationUnit :=
  ⟨none, [], [.classDecl ⟨.empty, [], "X", [], none, [], fields.map .field, .synthetic⟩], .synthetic⟩

theorem Declarator.Gives.through {d : Declarator} {name text : String} (gives : d.Gives name text)
    {type again : TypeRef} (same : again.withoutSpans = type.withoutSpans) (start : Location) :
    (BodyMember.field (d.field ⟨.empty, []⟩ again start)).through (.full id) =
      .field (.initialized type name text) := by
  obtain ⟨declared, dimensions, initializer, stop⟩ := d
  obtain ⟨rfl, rfl, initialized⟩ := gives
  obtain ⟨f, rfl, rfl⟩ := Option.map_eq_some_iff.mp initialized
  have plain : again.addDimensions 0 = again := by
    cases again
    rfl
  simp [BodyMember.through, Field.through, Fragment.through, View.full, Declarator.field, plain,
    Field.initialized, same]

namespace Token.Constructs

variable {type : List Token} {t : String} {after : List Mark} {value : TypeRef}

/-- The cursor behind the brace that opens the class. -/
def behindHead (k : Constructs type t after) : Cursor :=
  ⟨k.head.getLast?.or none,
    k.declared ++ (k.name :: k.assign :: k.new :: (k.again ++ k.paren :: k.rest))⟩

theorem spells_head (k : Constructs type t after) : (Cursor.start k.tokens).Spells
    [Kind.classWord.lexeme, .word "X", Kind.leftBrace.lexeme] k.behindHead :=
  ⟨k.head, ⟨rfl, rfl⟩, k.headed⟩

/-- The class is read when the declarators of its fields are. -/
theorem ofTokens_eq_ok (k : Constructs type t after) (tokens : TypeTokens type)
    (named : NamesClass type)
    (rereads : Rereads type Cursor.EndsType TypeRef.read TypeRef.withoutSpans value)
    {texts : List (String × String)}
    (declared : ∀ c : Cursor, c.ahead = k.assign :: k.new :: (k.again ++ k.paren :: k.rest) →
      ∃ ds d h brace, Declarator.readAll c c c.size_le "f" [] = .ok ⟨ds, d, h⟩ ∧
        d.ahead = [brace] ∧ brace.kind = .rightBrace ∧
        List.Forall₂ (fun d (p : String × String) => d.Gives p.1 p.2) ds texts) :
    ((CompilationUnit.ofTokens k.tokens).2.map (CompilationUnit.through (.full id))) =
      .ok (.ofFields (texts.map fun p => .initialized value p.1 p.2)) := by
  obtain ⟨again, c, names, same, first, next, ahead⟩ :=
    k.names (c := k.behindHead) tokens named rereads rfl
  obtain ⟨ds, d, h, brace, read, last, isBrace, gives⟩ := declared c ahead
  have notMethod : c.sees [.leftParen] = false := by simp [Cursor.sees_one, next]
  obtain ⟨h', memberRead⟩ := (BodyMember.ReadAs.fields names notMethod read).read
  obtain ⟨h'', closed⟩ := (Cursor.passes_of_ahead last).accept? isBrace
  -- The fields are all the members, since the brace of the class comes behind them.
  have listed := BodyMember.Listed.more (Cursor.accept?_eq_none (by simp [first]))
    (Cursor.accept?_eq_none (by simp [first])) memberRead (.closed closed)
  obtain ⟨span, span', unit⟩ := CompilationUnit.ofTokens_of_listed (by decide) k.spells_head listed rfl
  have fields := map_eq_of_forall₂
    (gives.imp fun d p gives => gives.through same k.behindHead.location)
  rw [unit]
  simp [Except.map, CompilationUnit.through, TypeDecl.through, ClassDecl.through,
    BodyMember.allThrough_eq_map, CompilationUnit.ofFields, fields, Function.comp_def]

/-- It is not read when they are not. -/
theorem ofTokens_eq_error (k : Constructs type t after) (tokens : TypeTokens type)
    (named : NamesClass type)
    (rereads : Rereads type Cursor.EndsType TypeRef.read TypeRef.withoutSpans value)
    (some_ : Declarator.appearsIn type = true) :
    ∃ e, (CompilationUnit.ofTokens k.tokens).2 = .error e := by
  obtain ⟨again, c, names, same, first, next, ahead⟩ :=
    k.names (c := k.behindHead) tokens named rereads rfl
  obtain ⟨e, failed⟩ := k.readAll_eq_error tokens some_ ahead "f"
  exact CompilationUnit.ofTokens_of_error (by decide) k.spells_head first
    (BodyMember.read_eq_error names (by simp [next]) failed)

/-- The end of the declaration and of the class, behind the opening bracket of the arguments. -/
def closing : List Mark := [⟨.rightParen, ")", ""⟩, ⟨.semicolon, ";", ""⟩, ⟨.rightBrace, "\x7d", " "⟩]

/-- Another declarator before that end. -/
def closingSecond : List Mark :=
  [⟨.rightParen, ")", ""⟩, ⟨.comma, ",", ""⟩, ⟨.identifier, "g", " "⟩, ⟨.assign, "=", " "⟩,
    ⟨.identifier, "null", " "⟩, ⟨.semicolon, ";", ""⟩, ⟨.rightBrace, "\x7d", " "⟩]

theorem declares_one (k : Constructs type t closing) (tokens : TypeTokens type)
    (none : Declarator.appearsIn type = false) {c : Cursor}
    (ahead : c.ahead = k.assign :: k.new :: (k.again ++ k.paren :: k.rest)) :
    ∃ ds d h brace, Declarator.readAll c c c.size_le "f" [] = .ok ⟨ds, d, h⟩ ∧ d.ahead = [brace] ∧
      brace.kind = .rightBrace ∧
      List.Forall₂ (fun d (p : String × String) => d.Gives p.1 p.2) ds
        [("f", "new " ++ t ++ "()")] := by
  obtain ⟨right, rest, split, isRight, marked⟩ := List.map_eq_cons_iff.mp k.behind
  obtain ⟨semicolon, rest, rfl, isSemicolon, marked⟩ := List.map_eq_cons_iff.mp marked
  obtain ⟨brace, rest, rfl, isBrace, marked⟩ := List.map_eq_cons_iff.mp marked
  obtain rfl : rest = [] := List.map_eq_nil_iff.mp marked
  have kind : semicolon.kind = .semicolon := congrArg Mark.kind isSemicolon
  obtain ⟨f, c', h, read, text, behind⟩ := k.readRest_eq_ok tokens none split isRight
    (by rw [kind]; exact ⟨rfl, rfl⟩) (by simp [Declarator.endsInitializer, kind]) ahead "f"
  obtain ⟨h', whole⟩ := Declarator.readAll_of_semicolon read (Cursor.passes_of_ahead behind) kind
  exact ⟨_, _, h', brace, whole, rfl, congrArg Mark.kind isBrace,
    .cons ⟨rfl, rfl, congrArg some text⟩ .nil⟩

theorem declares_two (k : Constructs type t closingSecond) (tokens : TypeTokens type)
    (none : Declarator.appearsIn type = false) {c : Cursor}
    (ahead : c.ahead = k.assign :: k.new :: (k.again ++ k.paren :: k.rest)) :
    ∃ ds d h brace, Declarator.readAll c c c.size_le "f" [] = .ok ⟨ds, d, h⟩ ∧ d.ahead = [brace] ∧
      brace.kind = .rightBrace ∧
      List.Forall₂ (fun d (p : String × String) => d.Gives p.1 p.2) ds
        [("f", "new " ++ t ++ "()"), ("g", "null")] := by
  obtain ⟨right, rest, split, isRight, marked⟩ := List.map_eq_cons_iff.mp k.behind
  obtain ⟨comma, rest, rfl, isComma, marked⟩ := List.map_eq_cons_iff.mp marked
  obtain ⟨name, rest, rfl, isName, marked⟩ := List.map_eq_cons_iff.mp marked
  obtain ⟨assign, rest, rfl, isAssign, marked⟩ := List.map_eq_cons_iff.mp marked
  obtain ⟨null, rest, rfl, isNull, marked⟩ := List.map_eq_cons_iff.mp marked
  obtain ⟨semicolon, rest, rfl, isSemicolon, marked⟩ := List.map_eq_cons_iff.mp marked
  obtain ⟨brace, rest, rfl, isBrace, marked⟩ := List.map_eq_cons_iff.mp marked
  obtain rfl : rest = [] := List.map_eq_nil_iff.mp marked
  have commaKind : comma.kind = .comma := congrArg Mark.kind isComma
  have nameKind : name.kind = .identifier := congrArg Mark.kind isName
  have assignKind : assign.kind = .assign := congrArg Mark.kind isAssign
  have nullKind : null.kind = .identifier := congrArg Mark.kind isNull
  have semicolonKind : semicolon.kind = .semicolon := congrArg Mark.kind isSemicolon
  obtain ⟨f, c₁, h₁, read, text, behind⟩ := k.readRest_eq_ok tokens none split isRight
    (by rw [commaKind]; exact ⟨rfl, rfl⟩)
    (by simp [Declarator.endsInitializer, Declarator.comesNext, commaKind, nameKind, assignKind])
    ahead "f"
  -- The second initializer is one token, before the semicolon.
  have length : Fragment.valueLength? Declarator.endsInitializer [null, semicolon, brace] 0 0 =
      some 1 := by
    rw [Fragment.valueLength?_inType (by rw [nullKind]; rfl)]
    simp [Fragment.valueLength?, Declarator.endsInitializer, semicolonKind, Kind.opens, Kind.closes]
  have passedName : Cursor.Passes ⟨some comma, [name, assign, null, semicolon, brace]⟩ [name]
      ⟨some name, [assign, null, semicolon, brace]⟩ := .one ..
  obtain ⟨h₂, readSecond⟩ :
      ∃ h, Declarator.readRest name.text ⟨some name, [assign, null, semicolon, brace]⟩ =
        .ok ⟨⟨name.text, 0, some (Fragment.ofTokens null []), null.stop⟩,
          ⟨some null, [semicolon, brace]⟩, h⟩ :=
    Declarator.readRest_of_passes (.one ..) assignKind (.one ..) length name.text
  obtain ⟨h₃, first⟩ := Declarator.readAll_of_comma read (Cursor.passes_of_ahead behind) commaKind
    passedName nameKind
  obtain ⟨h₄, whole⟩ := Declarator.readAll_of_semicolon readSecond (.one ..) semicolonKind
  exact ⟨_, _, h₄, brace, first.trans whole, rfl, congrArg Mark.kind isBrace,
    .cons ⟨rfl, rfl, congrArg some text⟩
      (.cons ⟨congrArg Mark.text isName, rfl, congrArg (some ∘ Mark.text) isNull⟩ .nil)⟩

end Token.Constructs

/-! ### Sources -/

private theorem map_mapError_of_ok {ε δ α β : Type} {x : Except ε α} {f : α → β} {g : ε → δ} {b : β}
    (returned : x.map f = .ok b) : (x.mapError g).map f = .ok b := by
  cases x with
  | error e => cases returned
  | ok a => exact congrArg Except.ok (Except.ok.inj returned)

/-- Fields of a type whose text is put into the source of a class, the first of them constructed with
the same text. The initializer keeps all of the text, type arguments included, when none of its commas
looks like one between declarators: a name behind it, and then an equals sign, a comma, a semicolon or
an opening bracket. Otherwise neither source can be read. -/
theorem CompilationUnit.read_constructing_fields {t : String} {type : List Token}
    {r : Consumed (.start type) TypeRef} (lexed : Token.ofSource t = .ok type)
    (read : TypeRef.read (.start type) = .ok r) (whole : r.cursor.ahead = [])
    (named : NamesClass type) (bare : ∀ token ∈ type, token.kind ≠ .atSign)
    (ended : (Piece.ofSource t).getLast?.bind Piece.kind ≠ some .lineComment) :
    let one := (CompilationUnit.read ("class X \x7b " ++ t ++ " f = new " ++ t ++ "(); \x7d")).outcome
    let two := (CompilationUnit.read
      ("class X \x7b " ++ t ++ " f = new " ++ t ++ "(), g = null; \x7d")).outcome
    if Declarator.appearsIn type then
      (∃ e, one = .error (.parse e)) ∧ ∃ e, two = .error (.parse e)
    else
      one.map (through (.full id)) =
          .ok (.ofFields [.initialized r.value "f" ("new " ++ t ++ "()")]) ∧
        two.map (through (.full id)) =
          .ok (.ofFields [.initialized r.value "f" ("new " ++ t ++ "()"),
            .initialized r.value "g" "null"]) := by
  intro one two
  obtain ⟨taken, passes, told⟩ := TypeRef.rereads read
  obtain rfl : type = taken := by
    have ahead : type = taken ++ r.cursor.ahead := passes.ahead
    rwa [whole, List.append_nil] at ahead
  obtain ⟨tokens, rereads⟩ :=
    told ⟨bare, fun token member => (Token.genuine_of_ofSource lexed member).fixed⟩
  have nonempty : type ≠ [] := by
    obtain ⟨first, others, rfl, -⟩ := named
    exact List.cons_ne_nil _ _
  -- The text does not hide what is put behind it in a comment.
  have closed : Munch.endsInLineComment t.toList = false := by
    rw [Munch.endsInLineComment, ← Piece.map_bare_ofSource, List.getLast?_map]
    cases last : (Piece.ofSource t).getLast? with
    | none => rfl
    | some p => simpa [last, Piece.bare] using ended
  obtain ⟨k₁, lexed₁⟩ : ∃ k : Token.Constructs type t Token.Constructs.closing,
      Token.ofSource ("class X \x7b " ++ t ++ " f = new " ++ t ++ "(); \x7d") = .ok k.tokens :=
    Token.constructs_of_lexed lexed nonempty closed rfl
      ((Token.map_mark_ofSource "); \x7d").symm.trans (by decide +kernel))
  obtain ⟨k₂, lexed₂⟩ : ∃ k : Token.Constructs type t Token.Constructs.closingSecond,
      Token.ofSource ("class X \x7b " ++ t ++ " f = new " ++ t ++ "(), g = null; \x7d") =
        .ok k.tokens :=
    Token.constructs_of_lexed lexed nonempty closed rfl
      ((Token.map_mark_ofSource "), g = null; \x7d").symm.trans (by decide +kernel))
  have outcome₁ : one = (ofTokens k₁.tokens).2.mapError .parse := outcome_read lexed₁
  have outcome₂ : two = (ofTokens k₂.tokens).2.mapError .parse := outcome_read lexed₂
  rw [outcome₁, outcome₂]
  split
  next some_ =>
    obtain ⟨e₁, failed₁⟩ := k₁.ofTokens_eq_error tokens named rereads some_
    obtain ⟨e₂, failed₂⟩ := k₂.ofTokens_eq_error tokens named rereads some_
    rw [failed₁, failed₂]
    exact ⟨⟨e₁, rfl⟩, e₂, rfl⟩
  next noneAppears =>
    have none : Declarator.appearsIn type = false := by simpa using noneAppears
    exact ⟨map_mapError_of_ok (k₁.ofTokens_eq_ok tokens named rereads fun c =>
        k₁.declares_one tokens none),
      map_mapError_of_ok (k₂.ofTokens_eq_ok tokens named rereads fun c =>
        k₂.declares_two tokens none)⟩

/-- The text of a type, taken apart and read: its first token, whether it has marks of annotations,
whether some comma looks like one between declarators, what is left over, and the type. -/
private def TypeRef.surveyed (t : String) : Option (Option Lexeme × Bool × Bool × Nat × String) :=
  (Token.ofSource t).toOption.bind fun type => (TypeRef.read (.start type)).toOption.map fun r =>
    (type.head?.map Token.lexeme, type.any (·.kind == .atSign), Declarator.appearsIn type,
      r.cursor.ahead.length, r.value.text)

private theorem TypeRef.of_surveyed (t name text : String) (split : Bool)
    (surveyed_ : surveyed t = some (some ⟨.identifier, name⟩, false, split, 0, text))
    (notWord : name ∉ ["record", "sealed"]) :
    ∃ (type : List Token) (r : Consumed (.start type) TypeRef), Token.ofSource t = .ok type ∧
      TypeRef.read (.start type) = .ok r ∧ r.cursor.ahead = [] ∧ NamesClass type ∧
      (∀ token ∈ type, token.kind ≠ .atSign) ∧ Declarator.appearsIn type = split ∧
      r.value.text = text := by
  obtain ⟨type, lexed, found⟩ := Option.bind_eq_some_iff.mp surveyed_
  obtain ⟨r, read, same⟩ := Option.map_eq_some_iff.mp found
  simp only [Prod.mk.injEq] at same
  obtain ⟨first, bare, split, left, text⟩ := same
  refine ⟨type, r, toOption_eq_some lexed, toOption_eq_some read, List.length_eq_zero_iff.mp left, ?_,
    by simpa using bare, split, text⟩
  cases type with
  | nil => cases first
  | cons token others =>
    obtain ⟨kind, spelled⟩ := Lexeme.mk.inj (Option.some.inj first)
    exact ⟨token, others, rfl, kind, by rwa [spelled]⟩

/-- Type arguments in each other and an array among them are kept; an array behind a comma is taken
for a declarator, and the declaration is refused. -/
theorem CompilationUnit.read_constructing_fields_of_maps :
    (∃ value : TypeRef, value.text = "Map<List<int[]>, String>" ∧
      (CompilationUnit.read ("class X \x7b Map<List<int[]>, String> f = " ++
        "new Map<List<int[]>, String>(), g = null; \x7d")).outcome.map (through (.full id)) =
        .ok (.ofFields [.initialized value "f" "new Map<List<int[]>, String>()",
          .initialized value "g" "null"])) ∧
    ∃ e, (CompilationUnit.read
      "class X \x7b Map<String, A[]> f = new Map<String, A[]>(); \x7d").outcome =
      .error (.parse e) := by
  constructor
  · obtain ⟨type, r, lexed, read, whole, named, bare, split, text⟩ :=
      TypeRef.of_surveyed "Map<List<int[]>, String>" "Map" "Map<List<int[]>, String>" false
        (by decide +kernel) (by decide)
    have both := read_constructing_fields lexed read whole named bare (by decide +kernel)
    rw [if_neg (by simp [split])] at both
    exact ⟨r.value, text, both.2⟩
  · obtain ⟨type, r, lexed, read, whole, named, bare, split, text⟩ :=
      TypeRef.of_surveyed "Map<String, A[]>" "Map" "Map<String, A[]>" true
        (by decide +kernel) (by decide)
    have both := read_constructing_fields lexed read whole named bare (by decide +kernel)
    rw [if_pos split] at both
    exact both.1

end TestDouble
