import TestDouble.Proofs.MemberReading
import TestDouble.Proofs.TypeReading

/-!
# What is read as a declaration

Every reader of declarations passes tokens that come next, and the names in what it returns are
words among them. A parameter never starts with the word `sealed`, which is passed as a modifier.
-/

namespace TestDouble

/-- The second cursor stands behind tokens that come next at the first; once they are vouched for,
something can be said. -/
def Cursor.Tells (Word : String → Prop) (c c' : Cursor) (Told : Prop) : Prop :=
  ∃ taken, c.Passes taken c' ∧ (Vouched Word taken → Told)

namespace Cursor

variable {Word : String → Prop} {a b c : Cursor} {A B : Prop} {taken : List Token}

theorem Passes.tells (passes : a.Passes taken b) : a.Tells Word b True :=
  ⟨taken, passes, fun _ => trivial⟩

theorem Tells.refl (c : Cursor) : c.Tells Word c True := (Passes.refl c).tells

theorem Tells.imp (implies : A → B) (tells : a.Tells Word b A) : a.Tells Word b B := by
  obtain ⟨taken, passes, told⟩ := tells
  exact ⟨taken, passes, fun vouched => implies (told vouched)⟩

/-- What is said on two stretches of a way is said on the whole way. -/
theorem Tells.trans (h₁ : a.Tells Word b A) (h₂ : b.Tells Word c B) : a.Tells Word c (A ∧ B) := by
  obtain ⟨first, passes₁, told₁⟩ := h₁
  obtain ⟨second, passes₂, told₂⟩ := h₂
  exact ⟨first ++ second, passes₁.trans passes₂,
    fun vouched => ⟨told₁ vouched.left, told₂ vouched.right⟩⟩

theorem Tells.passes (tells : a.Tells Word b A) : ∃ taken, a.Passes taken b := by
  obtain ⟨taken, passes, _⟩ := tells
  exact ⟨taken, passes⟩

theorem identifier_tells {c : Cursor} {r : Consumed c String} (returned : c.identifier = .ok r) :
    c.Tells Word r.cursor (Word r.value) := by
  obtain ⟨t, passes, kind, text⟩ := identifier_eq_ok returned
  exact ⟨[t], passes, fun vouched => text ▸ vouched.word t List.mem_cons_self kind⟩

theorem expect_tells {c : Cursor} {kind : Kind} {what : String} {r : Consumed c Token}
    (returned : c.expect kind what = .ok r) : c.Tells Word r.cursor True :=
  (expect_eq_ok returned).1.tells

theorem accept?_tells {c : Cursor} {kind : Kind} {r : Consumed c Token}
    (found : c.accept? kind = some r) : c.Tells Word r.cursor True :=
  (accept?_eq_some found).1.tells

/-- A mark that may be there, such as the dots of a parameter, is passed if it is. -/
theorem MayPass.tells {c d : Cursor} {kind : Kind} {passed : Bool} (mayPass : MayPass kind c passed d) :
    c.Tells Word d True := by
  cases mayPass with
  | passed found => exact accept?_tells found
  | missing => exact .refl c

theorem acceptWord?_ne_none {c : Cursor} {token : Token} {rest : List Token} {word : String}
    (ahead : c.ahead = token :: rest) (kind : token.kind = .identifier) (text : token.text = word) :
    c.acceptWord? word ≠ none := by
  obtain ⟨last, tokens⟩ := c
  obtain rfl : tokens = token :: rest := ahead
  simp [acceptWord?, kind, text]

private theorem SpellsName.dotted {tokens : List Token} {name : String}
    (spelled : SpellsName tokens name) : Vouched Word tokens → Dotted Word name := by
  induction spelled with
  | one kind => exact fun vouched => .one (vouched.word _ List.mem_cons_self kind)
  | more _ _ kind ih =>
    exact fun vouched => .more (ih vouched.left) (vouched.right.word _ (by simp) kind)

theorem dottedName_tells {c : Cursor} {r : Consumed c String} (returned : c.dottedName = .ok r) :
    c.Tells Word r.cursor (Dotted Word r.value) := by
  obtain ⟨taken, passes, spelled⟩ := dottedName_eq_ok returned
  exact ⟨taken, passes, spelled.dotted⟩

theorem dimensions_tells (c : Cursor) : c.Tells Word c.dimensions.cursor True := by
  obtain ⟨taken, passes⟩ := dimensions_passes c
  exact passes.tells

theorem sepBy_tells {α : Type} (Good : α → Prop) {c : Cursor} {separator : Kind}
    {item : (c' : Cursor) → c'.size ≤ c.size → Reading α c'}
    (each : ∀ c' within r, item c' within = .ok r → c'.Tells Word r.cursor (Good r.value))
    {r : Consumed c (List α)} (returned : c.sepBy separator item = .ok r) :
    c.Tells Word r.cursor (∀ a ∈ r.value, Good a) := by
  obtain ⟨taken, passes, separated⟩ :=
    sepBy_eq_ok (fun taken a => Vouched Word taken → Good a) each returned
  exact ⟨taken, passes, fun vouched => (separated.forall (fun _ _ item => item) vouched).2⟩

theorem clause_tells {α : Type} (Good : α → Prop) {c : Cursor} {kind : Kind}
    {item : (c' : Cursor) → c'.size ≤ c.size → Reading α c'}
    (each : ∀ c' within r, item c' within = .ok r → c'.Tells Word r.cursor (Good r.value))
    {r : Reached c (Option α)} (returned : c.clause kind item = .ok r) :
    c.Tells Word r.cursor (∀ a ∈ r.value, Good a) := by
  obtain ⟨taken, passes, nothing | ⟨t, rest, a, value, rfl, _, good⟩⟩ :=
    clause_eq_ok (fun taken a => Vouched Word taken → Good a) each returned
  · exact ⟨taken, passes, fun _ => by simp [nothing.1]⟩
  · refine ⟨t :: rest, passes, fun vouched => ?_⟩
    simpa [value] using good (Vouched.right (a := [t]) vouched)

end Cursor

/-! ### Declarations made of words -/

/-- A type variable whose names are as given. -/
structure TypeParameter.Named (Word : String → Prop) (p : TypeParameter) : Prop where
  name : Word p.name
  bounds : ∀ t ∈ p.bounds, t.Named (Dotted Word)

/-- A parameter whose names are as given; its type does not start with `sealed`. -/
structure Parameter.Named (Word : String → Prop) (p : Parameter) : Prop where
  name : Word p.name
  type : p.type.Named (Dotted Word)
  start : p.type.firstWord ≠ "sealed"

structure Method.Named (Word : String → Prop) (m : Method) : Prop where
  name : Word m.name
  returnType : m.returnType.Named (Dotted Word)
  typeParameters : ∀ p ∈ m.typeParameters, p.Named Word
  parameters : ∀ p ∈ m.parameters, p.Named Word
  exceptions : ∀ t ∈ m.exceptions, t.Named (Dotted Word)

structure Constructor.Named (Word : String → Prop) (k : Constructor) : Prop where
  name : Word k.name
  typeParameters : ∀ p ∈ k.typeParameters, p.Named Word
  parameters : ∀ p ∈ k.parameters, p.Named Word
  exceptions : ∀ t ∈ k.exceptions, t.Named (Dotted Word)

/-- A method or constructor whose names are as given; of other members nothing is said. -/
def BodyMember.Named (Word : String → Prop) : BodyMember → Prop
  | .method m => m.Named Word
  | .constructor k => k.Named Word
  | _ => True

structure ClassDecl.Named (Word : String → Prop) (decl : ClassDecl) : Prop where
  name : Word decl.name
  typeParameters : ∀ p ∈ decl.typeParameters, p.Named Word
  superclass : ∀ t ∈ decl.superclass, t.Named (Dotted Word)
  body : ∀ m ∈ decl.body, m.Named Word

/-- A class whose names are as given; of other types nothing is said. -/
def TypeDecl.Named (Word : String → Prop) : TypeDecl → Prop
  | .classDecl decl => decl.Named Word
  | _ => True

section

variable {Word : String → Prop} (words : ∀ w, Word w → IsWord w)

/-! ### Types in declarations -/

theorem TypeRef.Named.addDimensions {Name : String → Prop} {t : TypeRef} (named : t.Named Name)
    (n : Nat) : (t.addDimensions n).Named Name := by
  cases named with
  | primitive p dimensions span => exact .primitive p _ _
  | simple dimensions span name arguments => exact .simple _ _ name arguments
  | member dimensions span outer nonempty flat name arguments =>
    exact .member _ _ outer nonempty flat name arguments

theorem TypeRef.firstWord_addDimensions (t : TypeRef) (n : Nat) :
    (t.addDimensions n).firstWord = t.firstWord := by
  obtain ⟨name, arguments, dimensions, enclosing, span⟩ := t
  rw [addDimensions, firstWord_mk, firstWord_mk name arguments]

include words

theorem TypeRef.read_tells {c : Cursor} {r : Consumed c TypeRef} (returned : TypeRef.read c = .ok r) :
    c.Tells Word r.cursor (r.value.Named (Dotted Word)) := by
  obtain ⟨taken, passes, told⟩ := TypeRef.read_eq_ok words returned
  exact ⟨taken, passes, fun vouched => (told vouched).1.named⟩

theorem TypeRef.readList_tells {c : Cursor} {r : Consumed c (List TypeRef)}
    (returned : TypeRef.readList c = .ok r) :
    c.Tells Word r.cursor (∀ t ∈ r.value, t.Named (Dotted Word)) :=
  Cursor.sepBy_tells (TypeRef.Named (Dotted Word)) (fun _ _ _ read => TypeRef.read_tells words read)
    returned

theorem TypeRef.readClause_tells {c : Cursor} {keyword : Kind} {r : Reached c (List TypeRef)}
    (returned : TypeRef.readClause c keyword = .ok r) :
    c.Tells Word r.cursor (∀ t ∈ r.value, t.Named (Dotted Word)) := by
  obtain ⟨⟨types, c₁, h₁⟩, listed, finished⟩ := bind_eq_ok returned
  cases finished
  have tells := Cursor.clause_tells (fun types => ∀ t ∈ types, t.Named (Dotted Word))
    (fun _ _ _ read => TypeRef.readList_tells words read) listed
  refine tells.imp fun named => ?_
  cases types with
  | none => simp
  | some types => exact named types rfl

theorem TypeParameter.read_tells {c : Cursor} {r : Consumed c TypeParameter}
    (returned : TypeParameter.read c = .ok r) : c.Tells Word r.cursor (r.value.Named Word) := by
  obtain ⟨⟨_, c₁, h₁⟩, annotated, returned⟩ := bind_eq_ok returned
  obtain ⟨⟨name, c₂, h₂⟩, named, returned⟩ := bind_eq_ok returned
  obtain ⟨⟨bounds, c₃, h₃⟩, bounded, finished⟩ := bind_eq_ok returned
  cases finished
  obtain ⟨signs, passed, _⟩ := Annotation.pass_eq_ok annotated
  have boundsTell := Cursor.clause_tells (fun types => ∀ t ∈ types, t.Named (Dotted Word))
    (fun _ _ _ read => Cursor.sepBy_tells (TypeRef.Named (Dotted Word))
      (fun _ _ _ read => TypeRef.read_tells words read) read) bounded
  refine Cursor.Tells.imp ?_ (passed.tells.trans ((Cursor.identifier_tells named).trans boundsTell))
  rintro ⟨_, word, allBounds⟩
  refine ⟨word, ?_⟩
  cases bounds with
  | none => simp
  | some bounds => exact allBounds bounds rfl

theorem TypeParameter.readAll_tells {c : Cursor} {r : Reached c (List TypeParameter)}
    (returned : TypeParameter.readAll c = .ok r) :
    c.Tells Word r.cursor (∀ p ∈ r.value, p.Named Word) := by
  simp only [TypeParameter.readAll] at returned
  split at returned
  next =>
    cases returned
    exact Cursor.Tells.imp (by simp) (.refl c)
  next less c₁ h₁ opened =>
    obtain ⟨⟨parameters, c₂, h₂⟩, listed, returned⟩ := bind_eq_ok returned
    obtain ⟨⟨greater, c₃, h₃⟩, closed, finished⟩ := bind_eq_ok returned
    cases finished
    have listTells := Cursor.sepBy_tells (TypeParameter.Named Word)
      (fun _ _ _ read => TypeParameter.read_tells words read) listed
    exact Cursor.Tells.imp (fun told => told.2.1)
      ((Cursor.accept?_tells opened).trans (listTells.trans (Cursor.expect_tells closed)))

/-! ### Parameters -/

/-- Behind modifiers and annotations a type starts with a word other than `sealed`. -/
private theorem TypeRef.firstWord_ne_sealed {c : Cursor} {r : Consumed c TypeRef}
    (ended : Qualifiers.Ended c) (returned : TypeRef.read c = .ok r) :
    c.Tells Word r.cursor (r.value.Named (Dotted Word) ∧ r.value.firstWord ≠ "sealed") := by
  obtain ⟨taken, passes, told⟩ := TypeRef.read_eq_ok words returned
  refine ⟨taken, passes, fun vouched => ?_⟩
  obtain ⟨readAs, starts⟩ := told vouched
  obtain ⟨token, rest, rfl, first, wordKind⟩ := starts ended.annotation
  refine ⟨readAs.named, fun sealedWord => ?_⟩
  rw [first] at sealedWord
  have kind : token.kind = .identifier := by
    rcases wordKind with kind | ⟨p, kind⟩
    · exact kind
    · have text := vouched.fixed token List.mem_cons_self p.keyword (by rw [kind]; rfl)
      rw [sealedWord] at text
      cases p <;> exact absurd text (by decide)
  have found := Cursor.acceptWord?_ne_none passes.ahead kind sealedWord
  have none := ended.sealedWord
  unfold Qualifiers.passSealed? at none
  split at none
  next => simp at none
  next missing => exact found missing

omit words in
theorem Qualifiers.read_tells {c : Cursor} {r : Reached c Qualifiers}
    (returned : Qualifiers.read c = .ok r) : c.Tells Word r.cursor True := by
  obtain ⟨taken, passes, _⟩ := Qualifiers.read_eq_ok returned
  exact passes.tells

theorem Cursor.Typed.tells {c d : Cursor} {q : Qualifiers} {type : TypeRef} {variadic : Bool}
    (typed : c.Typed q type variadic d) :
    c.Tells Word d (type.Named (Dotted Word) ∧ type.firstWord ≠ "sealed") := by
  obtain ⟨c₁, c₂, c₃, _, _, _, qualified, typeRead, annotated, mayPass⟩ := typed
  obtain ⟨taken, passedQualifiers, ended, -⟩ := Qualifiers.read_eq_ok qualified
  obtain ⟨signs, passedSigns, _⟩ := Annotation.pass_eq_ok annotated
  have whole := passedQualifiers.tells.trans
    ((TypeRef.firstWord_ne_sealed words ended typeRead).trans (passedSigns.tells.trans mayPass.tells))
  exact whole.imp fun told => told.2.1

theorem Parameter.ReadAs.tells {c d : Cursor} {v : Option Parameter} (readAs : ReadAs c v d) :
    c.Tells Word d (∀ p ∈ v, p.Named Word) := by
  cases readAs with
  | receiver typed found =>
    exact ((typed.tells words).trans (Cursor.accept?_tells found)).imp fun _ => by simp
  | @named q type variadic name n c₄ c₅ d h₅ h₆ typed _ named counted =>
    have dimensions : c₅.Tells Word d True := by
      have tells : c₅.Tells Word c₅.dimensions.cursor True := Cursor.dimensions_tells c₅
      rwa [counted] at tells
    refine ((typed.tells words).trans ((Cursor.identifier_tells named).trans dimensions)).imp ?_
    rintro ⟨⟨typeNamed, start⟩, word, _⟩
    simp only [Option.mem_some_iff, forall_eq']
    exact ⟨word, typeNamed.addDimensions _, by rwa [TypeRef.firstWord_addDimensions]⟩

theorem Parameter.readAll_tells {c : Cursor} {r : Consumed c (List Parameter)}
    (returned : Parameter.readAll c = .ok r) :
    c.Tells Word r.cursor (∀ p ∈ r.value, p.Named Word) := by
  obtain ⟨⟨opening, c₁, h₁⟩, opened, returned⟩ := bind_eq_ok returned
  obtain ⟨⟨parameters, c₂, h₂⟩, listed, returned⟩ := bind_eq_ok returned
  obtain ⟨⟨closing, c₃, h₃⟩, closed, finished⟩ := bind_eq_ok returned
  cases finished
  have listTells : c₁.Tells Word c₂ (∀ p ∈ parameters, p.Named Word) := by
    split at listed
    next =>
      cases listed
      exact Cursor.Tells.imp (by simp) (.refl c₁)
    next =>
      obtain ⟨⟨found, c', h'⟩, separated, finished⟩ := bind_eq_ok listed
      cases finished
      have tells := Cursor.sepBy_tells (fun p => ∀ p' ∈ p, Parameter.Named Word p')
        (fun _ _ r read => (Parameter.read_eq_ok_iff.mp ⟨r.shorter, read⟩).tells words) separated
      refine tells.imp fun named p member => ?_
      obtain ⟨p', inFound, same⟩ := List.mem_filterMap.mp member
      exact named p' inFound p same
  exact Cursor.Tells.imp (fun told => told.2.1)
    ((Cursor.expect_tells opened).trans (listTells.trans (Cursor.expect_tells closed)))

/-! ### Members -/

omit words in
theorem Declarator.readRest_tells {name : String} {c : Cursor} {r : Reached c Declarator}
    (returned : Declarator.readRest name c = .ok r) : c.Tells Word r.cursor True := by
  obtain ⟨⟨initializer, c₂, h₂⟩, assigned, finished⟩ := bind_eq_ok returned
  cases finished
  have value (c' : Cursor) (r : Consumed c' Fragment) (read : Fragment.readValue c'
      "field initializer" Declarator.endsInitializer = .ok r) : c'.Tells Word r.cursor True := by
    obtain ⟨first, more, passes, _⟩ := Fragment.readValue_eq_ok read
    exact passes.tells
  have initialized := Cursor.clause_tells (fun _ => True) (fun c' _ r => value c' r) assigned
  exact ((Cursor.dimensions_tells c).trans initialized).imp fun _ => trivial

omit words in
theorem Declarator.readAll_tells {origin c : Cursor} {within : c.size ≤ origin.size} {name : String}
    {read : List Declarator} {r : Consumed origin (List Declarator)}
    (returned : Declarator.readAll origin c within name read = .ok r) :
    c.Tells Word r.cursor True := by
  induction c, within, name, read using Declarator.readAll.induct origin with
  | case1 c within name read ih =>
    rw [Declarator.readAll] at returned
    obtain ⟨⟨declarator, c₁, h₁⟩, restRead, returned⟩ := bind_eq_ok returned
    have first : c.Tells Word c₁ True := Declarator.readRest_tells restRead
    dsimp only at returned
    split at returned
    next comma c₂ h₂ found =>
      obtain ⟨⟨next, c₃, h₃⟩, named, returned⟩ := bind_eq_ok returned
      have tells := first.trans ((Cursor.accept?_tells found).trans
        ((Cursor.identifier_tells named).trans (ih declarator c₁ h₁ c₂ h₂ next c₃ h₃ returned)))
      exact tells.imp fun _ => trivial
    next =>
      obtain ⟨⟨semicolon, c₂, h₂⟩, closed, finished⟩ := bind_eq_ok returned
      cases finished
      exact (first.trans (Cursor.expect_tells closed)).imp fun _ => trivial

omit words in
theorem Block.read_tells {c : Cursor} {r : Consumed c Block} (returned : Block.read c = .ok r) :
    c.Tells Word r.cursor True := by
  obtain ⟨taken, passes⟩ := Block.read_eq_ok returned
  exact passes.tells

theorem Method.readRest_tells {q : Qualifiers} {typeParameters : List TypeParameter}
    {returnType : TypeRef} {name : String} {start : Location} {c : Cursor} {r : Consumed c Method}
    (returned : Method.readRest q typeParameters returnType name start c = .ok r) :
    c.Tells Word r.cursor ((∀ p ∈ typeParameters, p.Named Word) → returnType.Named (Dotted Word) →
      Word name → r.value.Named Word) := by
  obtain ⟨⟨parameters, c₁, h₁⟩, listed, returned⟩ := bind_eq_ok returned
  obtain ⟨⟨exceptions, c₃, h₃⟩, thrown, returned⟩ := bind_eq_ok returned
  obtain ⟨⟨body, c₄, h₄⟩, bodyRead, finished⟩ := bind_eq_ok returned
  cases finished
  have bodyTells : c₃.Tells Word c₄ True := by
    split at bodyRead
    next =>
      obtain ⟨⟨block, c', h'⟩, blockRead, finished⟩ := bind_eq_ok bodyRead
      cases finished
      exact Block.read_tells blockRead
    next =>
      obtain ⟨⟨semicolon, c', h'⟩, closed, finished⟩ := bind_eq_ok bodyRead
      cases finished
      exact Cursor.expect_tells closed
  have tells := (Parameter.readAll_tells words listed).trans ((Cursor.dimensions_tells c₁).trans
    ((TypeRef.readClause_tells words thrown).trans bodyTells))
  refine tells.imp ?_
  rintro ⟨parametersNamed, _, exceptionsNamed, _⟩ typeParametersNamed typeNamed word
  exact ⟨word, typeNamed.addDimensions _, typeParametersNamed, parametersNamed, exceptionsNamed⟩

theorem Constructor.readRest_tells {q : Qualifiers} {typeParameters : List TypeParameter}
    {start : Location} {c : Cursor} {r : Consumed c Constructor}
    (returned : Constructor.readRest q typeParameters start c = .ok r) :
    c.Tells Word r.cursor ((∀ p ∈ typeParameters, p.Named Word) → r.value.Named Word) := by
  obtain ⟨⟨name, c₁, h₁⟩, named, returned⟩ := bind_eq_ok returned
  obtain ⟨⟨parameters, c₂, h₂⟩, listed, returned⟩ := bind_eq_ok returned
  obtain ⟨⟨exceptions, c₃, h₃⟩, thrown, returned⟩ := bind_eq_ok returned
  obtain ⟨⟨body, c₄, h₄⟩, bodyRead, finished⟩ := bind_eq_ok returned
  cases finished
  have tells := (Cursor.identifier_tells named).trans
    ((Parameter.readAll_tells words (mapError_eq_ok listed)).trans
      ((TypeRef.readClause_tells words thrown).trans (Block.read_tells bodyRead)))
  refine tells.imp ?_
  rintro ⟨word, parametersNamed, exceptionsNamed, _⟩ typeParametersNamed
  exact ⟨word, typeParametersNamed, parametersNamed, exceptionsNamed⟩

/-! ### Types known by name only -/

omit words in
theorem NominalDecl.kind?_tells {c : Cursor} {r : Consumed c NominalKind}
    (found : NominalDecl.kind? c = some r) : c.Tells Word r.cursor True := by
  simp only [NominalDecl.kind?] at found
  split at found
  next taken =>
    cases found
    exact Cursor.accept?_tells taken
  next =>
    split at found
    next taken =>
      cases found
      obtain ⟨t, passes, _⟩ := Cursor.acceptPair?_eq_some taken
      exact passes.tells
    next =>
      split at found
      next taken =>
        cases found
        exact (Cursor.acceptWord?_eq_some taken).1.tells
      next => simp at found

omit words in
theorem NominalDecl.passBody_tells {c : Cursor} {r : Reached c Unit}
    (returned : NominalDecl.passBody c = .ok r) : c.Tells Word r.cursor True := by
  obtain ⟨_, _, -, -, within, same⟩ := NominalDecl.passBody_eq_ok_iff.mp ⟨_, returned⟩
  exact same ▸ (Cursor.Passes.skip c within).tells

omit words in
theorem NominalDecl.readRest_tells {kind : NominalKind} {q : Qualifiers} {start : Location}
    {c : Cursor} {r : Consumed c NominalDecl}
    (returned : NominalDecl.readRest kind q start c = .ok r) : c.Tells Word r.cursor True := by
  obtain ⟨⟨name, c₁, h₁⟩, named, returned⟩ := bind_eq_ok returned
  obtain ⟨⟨_, c₂, h₂⟩, passed, finished⟩ := bind_eq_ok returned
  cases finished
  exact ((Cursor.identifier_tells named).trans (NominalDecl.passBody_tells passed)).imp
    fun _ => trivial

theorem TypeDecl.passPermits_tells {c : Cursor} {r : Reached c Unit}
    (returned : TypeDecl.passPermits c = .ok r) : c.Tells Word r.cursor True := by
  simp only [TypeDecl.passPermits] at returned
  split at returned
  next word c₁ h₁ found =>
    obtain ⟨⟨types, c₂, h₂⟩, listed, finished⟩ := bind_eq_ok returned
    cases finished
    exact ((Cursor.acceptWord?_eq_some found).1.tells.trans
      (TypeRef.readList_tells words listed)).imp fun _ => trivial
  next =>
    cases returned
    exact .refl c

/-! ### Types and their bodies -/

omit words in
theorem Cursor.Qualifies.tells {c d : Cursor} {q : Qualifiers} (qualifies : c.Qualifies q d) :
    c.Tells Word d True := by
  obtain ⟨-, -, _, qualified⟩ := qualifies
  exact Qualifiers.read_tells qualified

theorem Cursor.Names.tells {c d : Cursor} {q : Qualifiers} {ps : List TypeParameter} {type : TypeRef}
    {name : String} (names : c.Names q ps type name d) :
    c.Tells Word d ((∀ p ∈ ps, p.Named Word) ∧ type.Named (Dotted Word) ∧ Word name) := by
  obtain ⟨c₁, c₂, c₃, _, _, _, qualifies, -, listed, -, typed, named⟩ := names
  have whole := qualifies.tells.trans ((TypeParameter.readAll_tells words listed).trans
    ((TypeRef.read_tells words typed).trans (Cursor.identifier_tells named)))
  exact whole.imp fun told => told.2

theorem Cursor.HeadsClass.tells {c d : Cursor} {name : String} {ps : List TypeParameter}
    {super : Option TypeRef} {is : List TypeRef} (heads : c.HeadsClass name ps super is d) :
    c.Tells Word d (Word name ∧ (∀ p ∈ ps, p.Named Word) ∧ ∀ t ∈ super, t.Named (Dotted Word)) := by
  obtain ⟨t, c₁, c₂, c₃, c₄, c₅, _, _, _, _, _, _, word, named, listed, extended, implemented,
    permitted⟩ := heads
  have superTells := Cursor.clause_tells (TypeRef.Named (Dotted Word))
    (fun _ _ _ read => TypeRef.read_tells words read) extended
  have whole := (Cursor.accept?_tells word).trans ((Cursor.identifier_tells named).trans
    ((TypeParameter.readAll_tells words listed).trans (superTells.trans
      ((TypeRef.readClause_tells words implemented).trans
        (TypeDecl.passPermits_tells words permitted)))))
  refine whole.imp ?_
  rintro ⟨_, isWord, typeParametersNamed, superclassNamed, _, _⟩
  exact ⟨isWord, typeParametersNamed, superclassNamed⟩

theorem Cursor.HeadsInterface.tells {c d : Cursor} {name : String} {ps : List TypeParameter}
    {is : List TypeRef} (heads : c.HeadsInterface name ps is d) : c.Tells Word d True := by
  obtain ⟨t, c₁, c₂, c₃, c₄, _, _, _, _, _, _, word, named, listed, extended, permitted⟩ := heads
  have whole := (Cursor.accept?_tells word).trans ((Cursor.identifier_tells named).trans
    ((TypeParameter.readAll_tells words listed).trans
      ((TypeRef.readClause_tells words extended).trans
        (TypeDecl.passPermits_tells words permitted))))
  exact whole.imp fun _ => trivial

end

section

variable {Word : String → Prop}

-- The readers of types, bodies and members call each other. Of those that start at one cursor, the
-- one of a type is called last, after a body, its members and a member.
mutual

theorem TypeDecl.ReadAs.tells (words : ∀ w, Word w → IsWord w) {q : Qualifiers}
    {start : Location} {c d : Cursor} {decl : TypeDecl}
    (readAs : TypeDecl.ReadAs q start c decl d) : c.Tells Word d (decl.Named Word) := by
  cases readAs with
  | classDecl heads bodyRead =>
    have shorter := heads.size_lt
    refine ((heads.tells words).trans (BodyMember.readBody_tells words bodyRead)).imp ?_
    rintro ⟨⟨word, typeParametersNamed, superclassNamed⟩, bodyNamed⟩
    exact ⟨word, typeParametersNamed, superclassNamed, bodyNamed⟩
  | interfaceDecl heads bodyRead =>
    have shorter := heads.size_lt
    exact ((heads.tells words).trans (BodyMember.readBody_tells words bodyRead)).imp fun _ => trivial
  | nominal _ _ known read =>
    exact ((NominalDecl.kind?_tells known).trans (NominalDecl.readRest_tells read)).imp
      fun _ => trivial
termination_by 4 * c.size

theorem BodyMember.readBody_tells (words : ∀ w, Word w → IsWord w) {c d : Cursor}
    {parts : List BodyMember} {h : d.size < c.size}
    (returned : BodyMember.readBody c = .ok ⟨parts, d, h⟩) :
    c.Tells Word d (∀ m ∈ parts, m.Named Word) := by
  obtain ⟨t, c₁, h₁, opened, listed⟩ := BodyMember.readBody_eq_ok_iff.mp ⟨h, returned⟩
  have opens : c.Tells Word c₁ True := Cursor.expect_tells opened
  exact (opens.trans (BodyMember.Listed.tells words listed)).imp fun told => told.2
termination_by 4 * c.size + 3

theorem BodyMember.Listed.tells (words : ∀ w, Word w → IsWord w) {c d : Cursor}
    {parts : List BodyMember} (listed : BodyMember.Listed c parts d) :
    c.Tells Word d (∀ m ∈ parts, m.Named Word) := by
  cases listed with
  | closed closing => exact (Cursor.accept?_tells closing).imp fun _ => by simp
  | semicolon _ ended rest =>
    exact ((Cursor.accept?_tells ended).trans (BodyMember.Listed.tells words rest)).imp
      fun told => told.2
  | @more _ c₁ _ h₁ found parts _ _ read rest =>
    refine ((BodyMember.read_tells words read).trans (BodyMember.Listed.tells words rest)).imp ?_
    rintro ⟨first, later⟩
    exact List.forall_mem_append.mpr ⟨first, later⟩
termination_by 4 * c.size + 2

/-- A member that is read passes tokens, and its names are words among them. -/
theorem BodyMember.read_tells (words : ∀ w, Word w → IsWord w) {c d : Cursor}
    {parts : List BodyMember} {h : d.size < c.size}
    (returned : BodyMember.read c = .ok ⟨parts, d, h⟩) :
    c.Tells Word d (∀ m ∈ parts, m.Named Word) := by
  cases BodyMember.readAs_of_read returned with
  | initializer _ read =>
    exact (Block.read_tells read).imp fun _ => List.forall_mem_singleton.mpr trivial
  | static _ _ expected read =>
    exact ((Cursor.expect_tells expected).trans (Block.read_tells read)).imp
      fun _ => List.forall_mem_singleton.mpr trivial
  | type qualifies _ read =>
    obtain ⟨shorter, -⟩ := qualifies.qualified
    have declTells := TypeDecl.ReadAs.tells words (TypeDecl.readAs_of_readRest read)
    exact (qualifies.tells.trans declTells).imp fun _ => List.forall_mem_singleton.mpr trivial
  | constructor qualifies _ listed _ read =>
    have whole := qualifies.tells.trans ((TypeParameter.readAll_tells words listed).trans
      (Constructor.readRest_tells words read))
    refine whole.imp ?_
    rintro ⟨_, typeParametersNamed, constructorNamed⟩
    exact List.forall_mem_singleton.mpr (constructorNamed typeParametersNamed)
  | method names _ read =>
    refine ((names.tells words).trans (Method.readRest_tells words read)).imp ?_
    rintro ⟨⟨typeParametersNamed, typeNamed, word⟩, methodNamed⟩
    exact List.forall_mem_singleton.mpr (methodNamed typeParametersNamed typeNamed word)
  | fields names _ read =>
    have declarators : Cursor.Tells Word _ d True := Declarator.readAll_tells read
    refine ((names.tells words).trans declarators).imp fun _ m member => ?_
    obtain ⟨d, _, rfl⟩ := List.mem_map.mp member
    trivial
termination_by 4 * c.size + 1

end

variable (words : ∀ w, Word w → IsWord w)

include words

theorem TypeDecl.read_tells {c : Cursor} {r : Consumed c TypeDecl}
    (returned : TypeDecl.read c = .ok r) : c.Tells Word r.cursor (r.value.Named Word) := by
  obtain ⟨⟨q, c₁, h₁⟩, qualified, returned⟩ := bind_eq_ok returned
  obtain ⟨⟨decl, c₂, h₂⟩, declRead, finished⟩ := bind_eq_ok returned
  cases finished
  have declTells := (TypeDecl.readAs_of_readRest declRead).tells words
  exact ((Qualifiers.read_tells qualified).trans declTells).imp fun told => told.2

/-! ### Compilation units -/

omit words in
theorem PackageDecl.ReadAs.tells {c d : Cursor} {v : Option PackageDecl} (readAs : ReadAs c v d) :
    c.Tells Word d (∀ p ∈ v, Dotted Word p.name) := by
  cases readAs with
  | missing => exact (Cursor.Tells.refl c).imp (by simp)
  | @declared _ _ _ c₁ _ _ _ _ _ found named ended =>
    have opened : c.Tells Word c₁ True := Cursor.accept?_tells found
    have whole := opened.trans ((Cursor.dottedName_tells named).trans (Cursor.expect_tells ended))
    exact whole.imp fun told => by simpa using told.2.1

omit words in
theorem ImportDecl.ReadAs.tells {start : Location} {c d : Cursor} {decl : ImportDecl}
    (readAs : ReadAs start c decl d) : c.Tells Word d True := by
  obtain @⟨_, _, _, _, c₁, c₂, c₃, _, _, _, _, mayPass, named, starred, ended⟩ := readAs
  have starTells : c₂.Tells Word c₃ _ := Cursor.clause_tells (fun _ => True)
    (fun _ _ _ read => Cursor.expect_tells read) starred
  have whole := mayPass.tells.trans ((Cursor.dottedName_tells named).trans
    (starTells.trans (Cursor.expect_tells ended)))
  exact whole.imp fun _ => trivial

omit words in
theorem ImportDecl.Listed.tells {c d : Cursor} {decls : List ImportDecl} (listed : Listed c decls d) :
    c.Tells Word d True := by
  induction listed with
  | ended => exact .refl _
  | more found read _ ih =>
    have readAs := ImportDecl.readRest_eq_ok_iff.mp ⟨_, read⟩
    exact ((Cursor.accept?_tells found).trans (readAs.tells.trans ih)).imp fun _ => trivial

omit words in
theorem Preamble.read_tells {c : Cursor} {r : Reached c Preamble}
    (returned : Preamble.read c = .ok r) :
    c.Tells Word r.cursor (∀ p ∈ r.value.package, Dotted Word p.name) := by
  obtain ⟨_, readAs, listed⟩ := Preamble.read_eq_ok_iff.mp ⟨r.notLonger, returned⟩
  exact (readAs.tells.trans listed.tells).imp fun told => told.1

theorem TypeDecl.Listed.tells {c d : Cursor} {types : List TypeDecl} (listed : Listed c types d) :
    c.Tells Word d (∀ t ∈ types, t.Named Word) := by
  induction listed with
  | ended => exact (Cursor.Tells.refl _).imp (by simp)
  | semicolon found _ ih => exact ((Cursor.accept?_tells found).trans ih).imp fun told => told.2
  | more _ read _ ih =>
    exact ((TypeDecl.read_tells words read).trans ih).imp fun told => List.forall_mem_cons.mpr told

/-- The package and the classes of a unit have names as given. -/
structure CompilationUnit.Named (Word : String → Prop) (unit : CompilationUnit) : Prop where
  package : ∀ p ∈ unit.package, Dotted Word p.name
  classes : ∀ decl ∈ unit.classes, decl.Named Word

/-- The names of a unit are words among its tokens. -/
theorem CompilationUnit.named_of_ofTokens {tokens : List Token} {types : List TypeDecl}
    {unit : CompilationUnit} (vouched : Vouched Word tokens)
    (returned : CompilationUnit.ofTokens tokens = (types, .ok unit)) : unit.Named Word := by
  obtain ⟨d, preamble, c₁, h₁, parts, preambleRead, listed, rfl⟩ :=
    ofTokens_eq_ok_iff.mp (congrArg Prod.snd returned)
  obtain ⟨taken, passes, told⟩ := (Preamble.read_tells preambleRead).trans (listed.tells words)
  have vouchedTaken : Vouched Word taken := by
    rw [show tokens = taken ++ d.ahead from passes.ahead] at vouched
    exact vouched.left
  obtain ⟨package, typesNamed⟩ := told vouchedTaken
  refine ⟨package, fun decl member => ?_⟩
  obtain ⟨t, read, same⟩ := List.mem_filterMap.mp member
  cases t with
  | classDecl found =>
    cases same
    exact typesNamed _ read
  | interfaceDecl => simp at same
  | nominal => simp at same

end

end TestDouble
