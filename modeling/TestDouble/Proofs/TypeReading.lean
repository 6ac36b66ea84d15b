import TestDouble.Proofs.TypeForms

/-!
# Reading types

A type that is read is made of the words among the tokens passed, and spells them again. The other
way round, the tokens of the text of a type are read as that type. Together: the text of a type and
the reading of types are inverse to each other.
-/

namespace TestDouble

/-- Tokens as the lexer makes them, whose identifiers are as given. -/
structure Vouched (Word : String → Prop) (tokens : List Token) : Prop where
  word : ∀ t ∈ tokens, t.kind = .identifier → Word t.text
  fixed : ∀ t ∈ tokens, ∀ text, t.kind.spelling? = some text → t.text = text

/-- The lexeme that the text of a token is taken for where it stands alone. -/
def Token.respelled (t : Token) : Lexeme :=
  if t.kind = .identifier then .word t.text else t.lexeme

/-- Tokens without annotations and without a pair of angle brackets that holds nothing. -/
structure Plain (tokens : List Token) : Prop where
  sign : ∀ t ∈ tokens, t.kind ≠ .atSign
  pair : ¬ [Kind.less, .greater] <:+: tokens.map Token.kind

section

variable {Word : String → Prop} {a b : List Token} {t : Token}

theorem Vouched.left (vouched : Vouched Word (a ++ b)) : Vouched Word a :=
  ⟨fun t member => vouched.word t (List.mem_append_left b member),
   fun t member => vouched.fixed t (List.mem_append_left b member)⟩

theorem Vouched.right (vouched : Vouched Word (a ++ b)) : Vouched Word b :=
  ⟨fun t member => vouched.word t (List.mem_append_right a member),
   fun t member => vouched.fixed t (List.mem_append_right a member)⟩

theorem Plain.left (plain : Plain (a ++ b)) : Plain a :=
  ⟨fun t member => plain.sign t (List.mem_append_left b member),
   fun pair => plain.pair (pair.trans (by simpa using List.infix_append' [] _ _))⟩

theorem Plain.right (plain : Plain (a ++ b)) : Plain b :=
  ⟨fun t member => plain.sign t (List.mem_append_right a member),
   fun pair => plain.pair (pair.trans (by simpa using List.infix_append' _ _ []))⟩

/-- A token of a kind with a fixed text spells it. -/
theorem Vouched.respelled (vouched : Vouched Word (t :: b)) {kind : Kind} {text : String}
    (same : t.kind = kind) (fixed : kind.spelling? = some text) : t.respelled = kind.lexeme := by
  have notIdentifier : t.kind ≠ .identifier := by
    rintro identifier
    rw [← same, identifier] at fixed
    cases fixed
  have spelled := vouched.fixed t List.mem_cons_self text (same ▸ fixed)
  rw [Token.respelled, if_neg notIdentifier, Token.lexeme, Kind.lexeme, spelled, same, fixed]
  rfl

theorem Token.respelled_identifier (same : t.kind = .identifier) :
    t.respelled = Lexeme.word t.text := by
  rw [Token.respelled, if_pos same]

end

/-! ### What is read -/

/-- The type is made of words among the tokens, and it spells them again when they are plain. -/
structure TypeRef.ReadAs (Word : String → Prop) (taken : List Token) (t : TypeRef) : Prop where
  named : t.Named (Dotted Word)
  spelled : Plain taken → taken.map Token.respelled = t.lexemes

/-- The first token is the first word of the type: an identifier or a primitive keyword. -/
def TypeRef.Starts (taken : List Token) (t : TypeRef) : Prop :=
  ∃ token rest, taken = token :: rest ∧ t.firstWord = token.text ∧
    (token.kind = .identifier ∨ ∃ p, token.kind = .primitive p)

/-- The tokens spell a type up to the end of a word of its name. -/
structure TypeRef.Begun (Word : String → Prop) (taken : List Token) (name : String)
    (enclosing : Option TypeRef) : Prop where
  dotted : Dotted Word name
  outer : ∀ t, enclosing = some t → t.Named (Dotted Word) ∧ t.arguments ≠ [] ∧ t.dimensions = 0
  spelled : Plain taken →
    taken.map Token.respelled = (TypeRef.mk name [] 0 enclosing .synthetic).lexemes
  first : TypeRef.Starts taken (TypeRef.mk name [] 0 enclosing .synthetic)

structure TypeArgument.ReadAs (Word : String → Prop) (taken : List Token) (a : TypeArgument) :
    Prop where
  named : a.Named (Dotted Word)
  spelled : Plain taken → taken.map Token.respelled = a.lexemes

/-- The tokens spell type arguments with their brackets, or none. -/
structure TypeArgument.AllReadAs (Word : String → Prop) (taken : List Token)
    (arguments : List TypeArgument) : Prop where
  named : ∀ a ∈ arguments, a.Named (Dotted Word)
  spelled : Plain taken →
    taken.map Token.respelled = Lexeme.bracketed (arguments.map TypeArgument.lexemes)

namespace TypeRef.Begun

variable {Word : String → Prop} {taken more : List Token} {name : String}
  {enclosing : Option TypeRef} {arguments : List TypeArgument} {dot t : Token}

theorem one (words : ∀ w, Word w → IsWord w) (kind : t.kind = .identifier)
    (vouched : Vouched Word [t]) : Begun Word [t] t.text none := by
  have word := vouched.word t List.mem_cons_self kind
  refine ⟨.one word, nofun, ?_, t, [], rfl, firstWord_word (words _ word) _, .inl kind⟩
  intro _
  simp [TypeRef.lexemes, Lexeme.name_word (words _ word), Token.respelled_identifier kind,
    Lexeme.bracketed, Lexeme.dimensions]

/-- Arguments end the type, as far as its dimensions are left out. -/
theorem finish (begun : Begun Word taken name enclosing)
    (listed : TypeArgument.AllReadAs Word more arguments) (span : Span) :
    ReadAs Word (taken ++ more) ⟨name, arguments, 0, enclosing, span⟩ := by
  refine ⟨?_, ?_⟩
  · cases enclosing with
    | none => exact .simple 0 span begun.dotted listed.named
    | some outer =>
      obtain ⟨named, arguments, dimensions⟩ := begun.outer outer rfl
      exact .member 0 span named arguments dimensions begun.dotted listed.named
  · intro plain
    rw [List.map_append, begun.spelled plain.left, listed.spelled plain.right,
      lexemes_mk name arguments]
    simp [Lexeme.dimensions]

theorem starts (begun : Begun Word taken name enclosing) (more : List Token) (span : Span) :
    Starts (taken ++ more) ⟨name, arguments, 0, enclosing, span⟩ := by
  obtain ⟨token, rest, rfl, first, wordKind⟩ := begun.first
  exact ⟨token, rest ++ more, rfl, by rw [firstWord_mk, first], wordKind⟩

/-- Without arguments the name goes on. -/
theorem goOn (words : ∀ w, Word w → IsWord w) (begun : Begun Word taken name enclosing)
    (listed : TypeArgument.AllReadAs Word more []) (dotKind : dot.kind = .dot)
    (kind : t.kind = .identifier) (vouched : Vouched Word [dot, t]) :
    Begun Word (taken ++ more ++ [dot, t]) (name ++ "." ++ t.text) enclosing := by
  have word := vouched.word t (by simp) kind
  refine ⟨.more begun.dotted word, begun.outer, ?_, ?_⟩
  · intro plain
    have spelled := begun.spelled plain.left.left
    have none := listed.spelled plain.left.right
    rw [List.map_append, List.map_append, spelled, none]
    have same : dot.respelled = Kind.dot.lexeme := vouched.respelled dotKind rfl
    cases enclosing <;>
      simp [TypeRef.lexemes, Lexeme.bracketed, Lexeme.dimensions, Lexeme.name_more _ (words _ word),
        same, Token.respelled_identifier kind]
  · obtain ⟨token, rest, rfl, first, wordKind⟩ := begun.first
    exact ⟨token, rest ++ more ++ [dot, t], by simp, by rw [firstWord_more, first], wordKind⟩

/-- With arguments the type encloses what follows. -/
theorem enclose (words : ∀ w, Word w → IsWord w) (begun : Begun Word taken name enclosing)
    (listed : TypeArgument.AllReadAs Word more arguments) (nonempty : arguments ≠ [])
    (dotKind : dot.kind = .dot) (kind : t.kind = .identifier) (vouched : Vouched Word [dot, t])
    (span : Span) :
    Begun Word (taken ++ more ++ [dot, t]) t.text (some ⟨name, arguments, 0, enclosing, span⟩) := by
  have word := vouched.word t (by simp) kind
  have whole := begun.finish listed span
  refine ⟨.one word, ?_, ?_, ?_⟩
  · intro outer same
    cases same
    exact ⟨whole.named, nonempty, rfl⟩
  · intro plain
    have same : dot.respelled = Kind.dot.lexeme := vouched.respelled dotKind rfl
    rw [List.map_append, whole.spelled plain.left]
    simp [TypeRef.lexemes, Lexeme.bracketed, Lexeme.dimensions, Lexeme.name_word (words _ word),
      same, Token.respelled_identifier kind]
  · obtain ⟨token, rest, rfl, first, wordKind⟩ := begun.first
    exact ⟨token, rest ++ more ++ [dot, t], by simp,
      by rw [firstWord_enclosed, firstWord_mk, first], wordKind⟩

end TypeRef.Begun

/-- Items with commas between them spell the lexemes with commas between them. -/
private theorem Cursor.Separated.spelled {Word : String → Prop} {α : Type} {Item : List Token → α → Prop}
    {lexemes : α → List Lexeme} {separator : Kind} {text : String}
    (fixed : separator.spelling? = some text)
    (each : ∀ taken a, Item taken a → Vouched Word taken → Plain taken →
      taken.map Token.respelled = lexemes a)
    {taken : List Token} {items : List α} (separated : Cursor.Separated Item separator taken items) :
    Vouched Word taken → Plain taken →
      taken.map Token.respelled = [separator.lexeme].intercalate (items.map lexemes) := by
  induction separated with
  | one item =>
    intro vouched plain
    simpa using each _ _ item vouched plain
  | @more taken rest t a items item kind separated ih =>
    intro vouched plain
    have same : t.respelled = separator.lexeme := vouched.right.respelled kind fixed
    have vouchedRest : Vouched Word rest := Vouched.right (a := [t]) vouched.right
    have plainRest : Plain rest := Plain.right (a := [t]) plain.right
    have first := each _ _ item vouched.left plain.left
    have others := ih vouchedRest plainRest
    cases separated with
    | one => simp_all
    | more => simp_all

theorem Cursor.Separated.forall {α : Type} {Item : List Token → α → Prop} {separator : Kind}
    {taken : List Token} {items : List α} (separated : Cursor.Separated Item separator taken items)
    {Good : α → Prop} {Word : String → Prop}
    (each : ∀ taken a, Item taken a → Vouched Word taken → Good a) :
    Vouched Word taken → items ≠ [] ∧ ∀ a ∈ items, Good a := by
  induction separated with
  | one item => exact fun vouched => ⟨by simp, by simpa using each _ _ item vouched⟩
  | @more taken rest t a items item kind separated ih =>
    intro vouched
    have vouchedRest : Vouched Word rest := Vouched.right (a := [t]) vouched.right
    exact ⟨by simp, List.forall_mem_cons.mpr ⟨each _ _ item vouched.left, (ih vouchedRest).2⟩⟩

/-- Annotations passed among plain tokens are none. -/
private theorem eq_nil_of_plain {taken : List Token} (plain : Plain taken)
    (passed : taken = [] ∨ ∃ at_ rest, taken = at_ :: rest ∧ at_.kind = .atSign) : taken = [] := by
  rcases passed with rfl | ⟨at_, rest, rfl, sign⟩
  · rfl
  · exact absurd sign (plain.sign at_ List.mem_cons_self)

theorem TypeRef.primitive?_eq_some {c : Cursor} {r : Consumed c Token}
    (found : TypeRef.primitive? c = some r) :
    c.Passes [r.value] r.cursor ∧ ∃ p, r.value.kind = .primitive p := by
  obtain ⟨last, _ | ⟨token, rest⟩⟩ := c
  · simp [TypeRef.primitive?] at found
  · simp only [TypeRef.primitive?] at found
    split at found
    next p kind =>
      cases found
      exact ⟨.one .., p, kind⟩
    next => simp at found

section

open Annotation (comesNext)

variable {Word : String → Prop}

theorem TypeRef.Dimensioned.tells {c d : Cursor} {k : Nat} (pairs : Dimensioned c k d) :
    ∃ taken, c.Passes taken d ∧ (Vouched Word taken → Plain taken →
      taken.map Token.respelled = Lexeme.dimensions k) := by
  induction pairs with
  | ended annotated _ =>
    obtain ⟨signs, passed, shape⟩ := Annotation.pass_eq_ok annotated
    refine ⟨signs, passed, fun _ plain => ?_⟩
    obtain rfl := eq_nil_of_plain plain shape
    rfl
  | @pair _ _ _ _ _ closing _ _ annotated found _ ih =>
    obtain ⟨signs, passedSigns, shape⟩ := Annotation.pass_eq_ok annotated
    obtain ⟨opening, passedPair, left, right⟩ := Cursor.acceptPair?_eq_some found
    obtain ⟨taken, passed, spelled⟩ := ih
    refine ⟨signs ++ ([opening, closing] ++ taken), passedSigns.trans (passedPair.trans passed), ?_⟩
    intro vouched plain
    obtain rfl := eq_nil_of_plain plain.left shape
    have vouchedPair : Vouched Word [opening, closing] := vouched.right.left
    have others := spelled vouched.right.right plain.right.right
    have first : opening.respelled = Kind.leftBracket.lexeme := vouchedPair.respelled left rfl
    have second : closing.respelled = Kind.rightBracket.lexeme :=
      Vouched.respelled (Vouched.right (a := [opening]) vouchedPair) right rfl
    simp [first, second, others, Lexeme.dimensions]

/-- The reading passed tokens of which something can be said once they are vouched for. -/
private def Tells {α : Type} (Word : String → Prop) (c c' : Cursor) (value : α)
    (Told : List Token → α → Prop) : Prop :=
  ∃ taken, c.Passes taken c' ∧ (Vouched Word taken → Told taken value)

/-- A wildcard with a bound: the question mark, the keyword of the bound and its type. -/
private theorem TypeArgument.readAs_bounded {question keyword : Token} {taken : List Token}
    {kind : BoundKind} {bound : TypeRef} (questionKind : question.kind = .question)
    (keywordKind : keyword.kind = .ofWord kind.keyword)
    (vouched : Vouched Word (question :: keyword :: taken)) (readAs : bound.ReadAs Word taken)
    (span : Span) :
    TypeArgument.ReadAs Word (question :: keyword :: taken) (.bounded kind bound span) := by
  refine ⟨.bounded kind span readAs.named, fun plain => ?_⟩
  have first : question.respelled = Kind.question.lexeme := vouched.respelled questionKind rfl
  have plainBound : Plain taken := Plain.right (a := [question, keyword]) plain
  have second : keyword.respelled = Lexeme.word kind.keyword := by
    have rest : Vouched Word (keyword :: taken) := Vouched.right (a := [question]) vouched
    cases kind
    · exact rest.respelled keywordKind rfl
    · exact rest.respelled keywordKind rfl
  rw [TypeArgument.lexemes, List.map_cons, List.map_cons, first, second, readAs.spelled plainBound]

-- The readers call each other, so all these statements are proved at once.
mutual

private theorem typeTells (words : ∀ w, Word w → IsWord w) {c : Cursor} {r : Consumed c TypeRef}
    (returned : TypeRef.read c = .ok r) : Tells Word c r.cursor r.value fun taken t =>
      t.ReadAs Word taken ∧ (comesNext c = false → t.Starts taken) := by
  obtain ⟨t, d, h⟩ := r
  obtain ⟨c₁, h₁, base, c₂, k, annotated, based, pairs, rfl⟩ := TypeRef.read_eq_ok_iff.mp ⟨h, returned⟩
  obtain ⟨signs, passedSigns, shape⟩ := Annotation.pass_eq_ok annotated
  obtain ⟨taken, passed, told⟩ := baseTells words based
  obtain ⟨closing, passedPairs, counts⟩ := pairs.tells
  refine ⟨signs ++ (taken ++ closing), passedSigns.trans (passed.trans passedPairs), ?_⟩
  intro vouched
  obtain ⟨readAs, starts, noDimensions⟩ := told vouched.right.left
  obtain ⟨name, arguments, none, enclosing, span⟩ := base
  -- A base has no dimensions of its own; those of the type are the pairs behind it.
  obtain rfl : none = 0 := noDimensions
  refine ⟨⟨?_, ?_⟩, ?_⟩
  · cases readAs.named with
    | primitive p => exact .primitive p _ _
    | simple _ _ dotted named => exact .simple _ _ dotted named
    | member _ _ outer nonempty flat dotted named => exact .member _ _ outer nonempty flat dotted named
  · intro plain
    obtain rfl := eq_nil_of_plain plain.left shape
    have spelledPairs := counts vouched.right.right plain.right.right
    have spelled := readAs.spelled plain.right.left
    rw [TypeRef.lexemes_mk] at spelled ⊢
    simp only [List.nil_append, List.map_append, spelled, spelledPairs, Lexeme.dimensions,
      List.append_nil]
  · intro none
    obtain ⟨token, rest, rfl, first, wordKind⟩ := starts
    obtain rfl : signs = [] := by
      have stays := Annotation.pass_of_not_comesNext none
      rw [stays] at annotated
      cases annotated
      have size : c.size = signs.length + c.size := passedSigns.size_eq
      exact List.length_eq_zero_iff.mp (by omega)
    refine ⟨token, rest ++ closing, rfl, ?_, wordKind⟩
    rw [TypeRef.firstWord_mk] at first ⊢
    exact first
termination_by 5 * c.size + 3

private theorem baseTells (words : ∀ w, Word w → IsWord w) {c d : Cursor} {t : TypeRef}
    (base : TypeRef.Base c t d) : Tells Word c d t fun taken t =>
      t.ReadAs Word taken ∧ t.Starts taken ∧ t.dimensions = 0 := by
  cases base with
  | @primitive token d h found =>
    obtain ⟨passed, p, kind⟩ := TypeRef.primitive?_eq_some found
    dsimp only at kind
    refine ⟨[token], passed, fun vouched => ?_⟩
    have text : token.text = p.keyword :=
      vouched.fixed token List.mem_cons_self p.keyword (by rw [kind]; rfl)
    have respelled : token.respelled = Lexeme.word p.keyword := by
      rw [Token.respelled, if_neg (by simp [kind]), Token.lexeme, kind, text, Lexeme.word]
      cases p <;> rfl
    rw [text]
    refine ⟨⟨.primitive p 0 _, fun _ => ?_⟩, ⟨token, [], rfl, ?_, .inr ⟨p, kind⟩⟩, rfl⟩
    · simp [TypeRef.named, TypeRef.lexemes, Lexeme.name_word (isWord_primitive p), respelled,
        Lexeme.bracketed, Lexeme.dimensions]
    · rw [TypeRef.named, TypeRef.firstWord_word (isWord_primitive p), text]
  | @name token _ _ _ _ _ found parts =>
    obtain ⟨passed, kind⟩ := Cursor.accept?_eq_some found
    obtain ⟨taken, passedRest, told⟩ := partsTell words parts
    refine ⟨[token] ++ taken, passed.trans passedRest, fun vouched => ?_⟩
    exact told vouched.right [token] (.one words kind vouched.left)
termination_by 5 * c.size + 2

private theorem partsTell (words : ∀ w, Word w → IsWord w) {start : Location} {c d : Cursor}
    {name : String} {enclosing : Option TypeRef} {t : TypeRef}
    (parts : TypeRef.Parts start c name enclosing t d) : Tells Word c d t fun taken t =>
      ∀ before, TypeRef.Begun Word before name enclosing →
        t.ReadAs Word (before ++ taken) ∧ t.Starts (before ++ taken) ∧ t.dimensions = 0 := by
  cases parts with
  | last optional _ =>
    obtain ⟨more, passedList, told⟩ := optionalTells words optional
    exact ⟨more, passedList, fun vouched before begun =>
      ⟨begun.finish (told vouched) _, begun.starts more _, rfl⟩⟩
  | @longer _ _ _ _ _ _ token _ _ optional found later =>
    have size := optional.size_le
    obtain ⟨more, passedList, told⟩ := optionalTells words optional
    obtain ⟨dot, passedPair, dotKind, kind⟩ := Cursor.acceptPair?_eq_some found
    obtain ⟨taken, passed, toldRest⟩ := partsTell words later
    refine ⟨more ++ ([dot, token] ++ taken), passedList.trans (passedPair.trans passed), ?_⟩
    intro vouched before begun
    have further := begun.goOn words (told vouched.left) dotKind kind vouched.right.left
    have whole := toldRest vouched.right.right _ further
    simpa only [List.append_assoc] using whole
  | @member _ c₁ _ _ _ _ _ token _ _ optional nonempty found later =>
    have size := optional.size_le
    obtain ⟨more, passedList, told⟩ := optionalTells words optional
    obtain ⟨dot, passedPair, dotKind, kind⟩ := Cursor.acceptPair?_eq_some found
    obtain ⟨taken, passed, toldRest⟩ := partsTell words later
    refine ⟨more ++ ([dot, token] ++ taken), passedList.trans (passedPair.trans passed), ?_⟩
    intro vouched before begun
    have further := begun.enclose words (told vouched.left) nonempty dotKind kind
      vouched.right.left ⟨start, c₁.lastStop⟩
    have whole := toldRest vouched.right.right _ further
    simpa only [List.append_assoc] using whole
termination_by 5 * c.size + 2

private theorem optionalTells (words : ∀ w, Word w → IsWord w) {c d : Cursor}
    {arguments : List TypeArgument} (optional : TypeArgument.Optional c arguments d) :
    Tells Word c d arguments (TypeArgument.AllReadAs Word) := by
  cases optional with
  | absent => exact ⟨[], .refl c, fun _ => ⟨by simp, fun _ => rfl⟩⟩
  | listed _ read => exact listTells words (TypeArgument.readAll_eq_ok_iff.mp ⟨_, read⟩)
termination_by 5 * c.size + 1

private theorem listTells (words : ∀ w, Word w → IsWord w) {c d : Cursor}
    {arguments : List TypeArgument} (bracketed : TypeArgument.Bracketed c arguments d) :
    Tells Word c d arguments (TypeArgument.AllReadAs Word) := by
  cases bracketed with
  | @empty less greater _ _ _ _ opened found =>
    obtain ⟨passedLess, lessKind⟩ := Cursor.expect_eq_ok opened
    obtain ⟨passedGreater, greaterKind⟩ := Cursor.accept?_eq_some found
    refine ⟨[less] ++ [greater], passedLess.trans passedGreater, fun _ => ⟨by simp, fun plain => ?_⟩⟩
    refine absurd ?_ plain.pair
    dsimp only at lessKind greaterKind
    simp [lessKind, greaterKind]
  | @listed less greater _ c₁ _ _ h₁ _ _ opened _ listed closed =>
    obtain ⟨passedLess, lessKind⟩ := Cursor.expect_eq_ok opened
    obtain ⟨passedGreater, greaterKind⟩ := Cursor.expect_eq_ok closed
    obtain ⟨taken, passed, separated⟩ := Cursor.sepBy_eq_ok
      (fun taken a => Vouched Word taken → TypeArgument.ReadAs Word taken a)
      (fun _ _ _ read => argumentTells words read) listed
    refine ⟨[less] ++ (taken ++ [greater]), passedLess.trans (passed.trans passedGreater), ?_⟩
    intro vouched
    have vouchedItems : Vouched Word taken := vouched.right.left
    obtain ⟨nonempty, named⟩ := separated.forall
      (fun _ _ item vouched => (item vouched).named) vouchedItems
    refine ⟨named, fun plain => ?_⟩
    have spelled := separated.spelled rfl
      (fun _ _ item vouched plain => (item vouched).spelled plain) vouchedItems plain.right.left
    have first : less.respelled = Kind.less.lexeme := vouched.respelled lessKind rfl
    have last : greater.respelled = Kind.greater.lexeme := vouched.right.right.respelled greaterKind rfl
    obtain ⟨a, others, rfl⟩ := List.exists_cons_of_ne_nil nonempty
    simp only [List.map_append, List.map_cons, List.map_nil, first, last, spelled, Lexeme.bracketed]
    rfl
termination_by 5 * c.size

private theorem argumentTells (words : ∀ w, Word w → IsWord w) {c : Cursor}
    {r : Consumed c TypeArgument} (returned : TypeArgument.read c = .ok r) :
    Tells Word c r.cursor r.value (TypeArgument.ReadAs Word) := by
  obtain ⟨a, d, h⟩ := r
  obtain ⟨c₁, h₁, annotated, form⟩ := TypeArgument.read_eq_ok_iff.mp ⟨h, returned⟩
  obtain ⟨signs, passedSigns, shape⟩ := Annotation.pass_eq_ok annotated
  -- What is said of the tokens behind the annotations is said of all when they are plain.
  have behind {taken : List Token} (passed : c₁.Passes taken d)
      (readAs : Vouched Word taken → TypeArgument.ReadAs Word taken a) :
      Tells Word c d a (TypeArgument.ReadAs Word) := by
    refine ⟨signs ++ taken, passedSigns.trans passed, fun vouched => ?_⟩
    refine ⟨(readAs vouched.right).named, fun plain => ?_⟩
    obtain rfl := eq_nil_of_plain plain.left shape
    exact (readAs vouched.right).spelled plain.right
  cases form with
  | @wildcard question _ _ found _ _ =>
    obtain ⟨passedQuestion, questionKind⟩ := Cursor.accept?_eq_some found
    refine behind passedQuestion fun vouched => ⟨.wildcard _, fun _ => ?_⟩
    have spelled : question.respelled = Kind.question.lexeme := vouched.respelled questionKind rfl
    simp [TypeArgument.lexemes, spelled]
  | @bounded question keyword _ _ _ _ _ _ _ _ found word boundRead =>
    obtain ⟨passedQuestion, questionKind⟩ := Cursor.accept?_eq_some found
    obtain ⟨passedKeyword, keywordKind⟩ := Cursor.accept?_eq_some word
    obtain ⟨taken, passed, told⟩ := typeTells words boundRead
    exact behind (passedQuestion.trans (passedKeyword.trans passed)) fun vouched =>
      TypeArgument.readAs_bounded questionKind keywordKind vouched
        (told (Vouched.right (a := [question, keyword]) vouched)).1 _
  | type _ typeRead =>
    obtain ⟨taken, passed, told⟩ := typeTells words typeRead
    exact behind passed fun vouched =>
      ⟨.type (told vouched).1.named, fun plain => (told vouched).1.spelled plain⟩
termination_by 5 * c.size + 4

end

/-- A type that is read is made of the words passed and spells them again. -/
theorem TypeRef.read_eq_ok (words : ∀ w, Word w → IsWord w) {c : Cursor} {r : Consumed c TypeRef}
    (returned : TypeRef.read c = .ok r) :
    ∃ taken, c.Passes taken r.cursor ∧ (Vouched Word taken →
      r.value.ReadAs Word taken ∧ (comesNext c = false → r.value.Starts taken)) :=
  typeTells words returned

end

end TestDouble
