import TestDouble.Generation
import TestDouble.Proofs.DeclarationInverse
import TestDouble.Proofs.MemberReading
import TestDouble.Proofs.Synthesis

/-!
# Subclasses and their text

Where the lines of a subclass come next, its members are read in order, and the whole text is read
as a unit with one class.
-/

namespace TestDouble

/-! ### What is read back -/

/-- The name a member is declared with. -/
def Member.ownName : Member → String
  | .constructor k => k.name
  | .method m => m.name

def Member.annotations : Member → List Annotation
  | .constructor k => k.annotations
  | .method m => m.annotations

/-- The name a member of the given class is declared with. -/
def Counterpart.ownName (className : String) (m : Counterpart) : String :=
  match m.kind with
  | .constructor => className
  | .method name _ => name

/-- The body holds one fragment for each statement, with the text that the statement is expanded
to. -/
def Block.ReadAs (statements : List Statement) (block : Block) : Prop :=
  ∃ fragments : List Fragment, block.statements = fragments.map BodyStatement.fragment ∧
    statements.mapM Statement.expand = .ok (fragments.map Fragment.text)

/-- The member that was read is the counterpart, up to spans. -/
structure Counterpart.ReadAs (className : String) (m : Counterpart) (found : Member) : Prop where
  isConstructor : found.isConstructor = m.isConstructor
  name : found.ownName = m.ownName className
  modifiers : found.modifiers = m.modifiers
  annotations : found.annotations.map (fun a => (a.name, a.arguments)) =
    if m.isOverride then [("Override", [])] else []
  typeParameters : found.typeParameters.map TypeParameter.withoutSpans =
    m.typeParameters.map TypeParameter.withoutSpans
  returnType : found.returnType?.map TypeRef.withoutSpans = m.returnType?.map TypeRef.withoutSpans
  parameters : found.parameters.map Parameter.withoutSpans =
    m.parameters.map Parameter.withoutSpans
  exceptions : found.exceptions.map TypeRef.withoutSpans = m.exceptions.map TypeRef.withoutSpans
  body : ∃ block, found.body? = some block ∧ block.ReadAs m.statements

/-- The part of a class body is the counterpart, up to spans. -/
def Counterpart.PartOf (className : String) (m : Counterpart) (part : BodyMember) : Prop :=
  ∃ found, Member.ofBody? part = some found ∧ m.ReadAs className found

/-- The class that was read is the subclass, up to spans. -/
structure Subclass.ReadAs (s : Subclass) (decl : ClassDecl) : Prop where
  name : decl.name = s.name
  modifiers : decl.modifiers = s.modifiers
  annotations : decl.annotations = []
  typeParameters : decl.typeParameters.map TypeParameter.withoutSpans =
    s.typeParameters.map TypeParameter.withoutSpans
  superclass : decl.superclass.map TypeRef.withoutSpans = some s.superclass.withoutSpans
  interfaces : decl.interfaces = []
  body : List.Forall₂ (Counterpart.PartOf s.name) s.members decl.body

/-- The unit that was read is the subclass and nothing else, up to spans. -/
structure Subclass.ReadBack (s : Subclass) (unit : CompilationUnit) : Prop where
  package : unit.package.map PackageDecl.name = if s.package = "" then none else some s.package
  imports : unit.imports = []
  types : ∃ decl, unit.types = [.classDecl decl] ∧ s.ReadAs decl

/-! ### Members -/

open Cursor (Spells EndsType)

/-- The statement is expanded to the text of the line, which is read as one statement. -/
def Statement.SetAs (s : Statement) (line : Line) : Prop :=
  s.expand = .ok line.text ∧ Sentence line.lexemes

theorem Statement.SpokenAs.setAs {s : Statement} {line : Line} (spoken : s.SpokenAs line) :
    s.SetAs line :=
  ⟨spoken.1, spoken.2.sentence⟩

/-- A counterpart as it is built: everyone may call it, its parameters are bare, and its statements,
not too many, can be expanded to the lines of its body. -/
structure Counterpart.Built (m : Counterpart) (body : List Line) : Prop where
  opened : m.modifiers.contains .publicAccess = true
  bare : ∀ p ∈ m.parameters, bare p = p
  stated : List.Forall₂ Statement.SetAs m.statements body
  few : body.length < Block.limit

theorem Counterpart.Built.expanded {m : Counterpart} {body : List Line} (built : m.Built body) :
    m.statements.mapM Statement.expand = .ok (body.map Line.text) :=
  mapM_of_forall₂ (built.stated.imp fun _ _ said => said.1)

theorem Counterpart.Built.sentences {m : Counterpart} {body : List Line} (built : m.Built body) :
    ∀ line ∈ body, Sentence line.lexemes := by
  intro line member
  obtain ⟨s, _, stated⟩ := exists_mem_of_forall₂ built.stated member
  exact stated.2

theorem ModifierSet.lexemes_of_contains {s : ModifierSet} (opened : s.contains .publicAccess = true) :
    ∃ rest, s.lexemes = Lexeme.word "public" :: rest := by
  rw [lexemes, toList, Modifier.all, List.filter_cons_of_pos (by exact opened), List.map_cons]
  exact ⟨_, rfl⟩

namespace Counterpart

variable {m : Counterpart} {body : List Line} {c c₁ c' : Cursor}

/-- The parameters, exceptions and body of a member, behind its name. -/
private theorem rest_of_shows (named : m.Named IsIdentifier) (built : m.Built body)
    (spells : c.Spells (Parameter.listLexemes m.parameters ++
      TypeRef.clauseLexemes .throwsWord m.exceptions ++ [Kind.leftBrace.lexeme]) c₁)
    (shows_ : c₁.Shows (body.flatMap Line.ended ++ [Line.closing]) c') :
    ∃ c₂ c₃ parameters exceptions block h₂ h₃ h₄,
      Parameter.readAll c = .ok ⟨parameters, c₂, h₂⟩ ∧ c₂.dimensions = ⟨0, c₂, c₂.size_le⟩ ∧
      TypeRef.readClause c₂ .throwsWord = .ok ⟨exceptions, c₃, h₃⟩ ∧
      c₃.sees [.leftBrace] = true ∧ Block.read c₃ = .ok ⟨block, c', h₄⟩ ∧
      parameters.map Parameter.withoutSpans = m.parameters.map Parameter.withoutSpans ∧
      exceptions.map TypeRef.withoutSpans = m.exceptions.map TypeRef.withoutSpans ∧
      block.ReadAs m.statements := by
  rw [List.append_assoc] at spells
  obtain ⟨c₂, listed, rest⟩ := spells.split
  obtain ⟨c₃, thrown, opening⟩ := rest.split
  have next : c₃.nextKind = some .leftBrace := opening.nextKind_eq
  -- Behind the parameters stands `throws` or the brace, so no dimensions are read.
  have notBracket : c₂.nextKind ≠ some .leftBracket := by
    cases exceptions : m.exceptions with
    | nil =>
      rw [exceptions] at thrown
      obtain rfl := thrown.nil_eq
      simp [next]
    | cons t more =>
      rw [exceptions, TypeRef.clauseLexemes] at thrown
      · have keyword : c₂.nextKind = some .throwsWord := thrown.nextKind_eq
        simp [keyword]
      · simp
  obtain ⟨parameters, h₂, parametersRead, sameParameters⟩ :=
    Parameter.readAll_of_spells named.parameters listed
  obtain ⟨exceptions, h₃, exceptionsRead, sameExceptions⟩ :=
    TypeRef.readClause_of_spells named.exceptions thrown (by simp [EndsType, next]) (by simp [next])
      (by simp [next])
  obtain ⟨fragments, span, h₄, blockRead, texts⟩ :=
    Block.read_of_shows built.sentences built.few opening shows_
  refine ⟨c₂, c₃, parameters, exceptions, _, h₂, h₃, h₄, parametersRead,
    Cursor.dimensions_of_nextKind notBracket, exceptionsRead, by simp [Cursor.sees_one, next],
    blockRead, ?_, sameExceptions, fragments, rfl, ?_⟩
  · rw [sameParameters]
    exact List.map_congr_left fun p member => by rw [built.bare p member]
  · rw [built.expanded, texts]

/-- The first word behind the modifiers of the member is the name of its class. -/
def OpensWithClass (m : Counterpart) : Prop := m.kind = .constructor ∧ m.typeParameters = []

/-- What stands behind the modifiers of a member starts neither a type declaration nor anything
that is passed as a modifier. -/
structure StartsMember (first second : Lexeme) : Prop where
  kind : first.kind ∉ [Kind.atSign, .classWord, .interfaceWord, .enumWord]
  notModifier : ∀ n, first.kind ≠ .modifier n
  notSealed : first.text ≠ "sealed"
  notOperator : second.kind ≠ .operator
  notRecord : first.text = "record" → second.kind ≠ .identifier

theorem StartsMember.comesNext_eq_false {first second : Lexeme} {ls : List Lexeme}
    (starts : StartsMember first second) (spells : c.Spells (first :: second :: ls) c') :
    TypeDecl.comesNext c = false := by
  have next : c.nextKind = some first.kind := spells.nextKind_eq
  have notRecord : (c.seesWord "record" && c.sees [.identifier, .identifier]) = false := by
    by_cases record : first.text = "record"
    · simp [Cursor.sees_two_of_spells spells, starts.notRecord record]
    · obtain ⟨token, others, place, lexeme, _⟩ := spells.uncons
      have text : token.text = first.text := congrArg Lexeme.text lexeme
      rw [Cursor.seesWord, place]
      simp [text, record]
  have kinds := starts.kind
  simp only [List.mem_cons, List.not_mem_nil, or_false, not_or] at kinds
  rw [TypeDecl.comesNext, notRecord]
  simp [Cursor.sees_one, Cursor.sees_two, next, kinds]

/-- The first two lexemes of a member behind its modifiers. -/
private theorem startsMember {className : String} (isClass : IsIdentifier className)
    (notSealed : m.OpensWithClass → className ≠ "sealed") (named : m.Named IsIdentifier)
    (plain : ∀ name t, m.kind = .method name t → t.firstWord ≠ "record" ∧ t.firstWord ≠ "sealed")
    (ls : List Lexeme) :
    ∃ first second rest, Lexeme.bracketed (m.typeParameters.map TypeParameter.lexemes) ++
        m.kind.lexemes className ++ Kind.leftParen.lexeme :: ls = first :: second :: rest ∧
      StartsMember first second := by
  cases parameters : m.typeParameters with
  | cons p more =>
    -- Type variables come first: an angle bracket and the name of the first of them.
    have word : ∃ rest, [Kind.comma.lexeme].intercalate
        ((p :: more).map TypeParameter.lexemes) = Lexeme.word p.name :: rest := by
      have spelled : ∃ rest, p.lexemes = Lexeme.word p.name :: rest := by
        unfold TypeParameter.lexemes
        split <;> exact ⟨_, rfl⟩
      obtain ⟨rest, spelled⟩ := spelled
      cases more with
      | nil => exact ⟨rest, by simpa using spelled⟩
      | cons q more =>
        rw [List.map_cons, List.map_cons, List.intercalate_cons_cons, spelled]
        exact ⟨_, rfl⟩
    obtain ⟨rest, spelled⟩ := word
    refine ⟨Kind.less.lexeme, Lexeme.word p.name, rest ++ [Kind.greater.lexeme] ++
      m.kind.lexemes className ++ Kind.leftParen.lexeme :: ls, ?_, ?_⟩
    · rw [Lexeme.bracketed, spelled]
      · simp
      · simp
    · exact ⟨by decide, nofun, by decide, Kind.ofWord_ne (by decide) _,
        fun record => absurd record (by decide)⟩
  | nil =>
    cases kind : m.kind with
    | constructor =>
      have free : (Lexeme.word className).kind = .identifier := isClass.free
      refine ⟨Lexeme.word className, Kind.leftParen.lexeme, ls, rfl, ?_⟩
      exact ⟨by simp [free], by simp [free], notSealed ⟨kind, parameters⟩, by decide,
        fun _ => by decide⟩
    | method name t =>
      obtain ⟨notRecord, notSealed⟩ := plain name t kind
      obtain ⟨_, type⟩ := named.method name t kind
      obtain ⟨second, rest, spelled, inType⟩ :=
        t.lexemes_eq_cons_cons (Lexeme.word name) (Kind.leftParen.lexeme :: ls)
      refine ⟨Lexeme.word t.firstWord, second, rest, ?_, ?_⟩
      · rw [← spelled]
        simp [Lexeme.bracketed, CounterpartKind.lexemes]
      · have start := type.kind_firstWord
        refine ⟨?_, ?_, notSealed, ?_, fun record => absurd record notRecord⟩
        · rcases start with same | ⟨p, same⟩ <;> simp [Lexeme.word, same]
        · intro n
          rcases start with same | ⟨p, same⟩ <;> simp [Lexeme.word, same]
        · rcases inType with inside | rfl
          · exact inside.kind_ne (by decide)
          · exact Kind.ofWord_ne (by decide) _

/-- A member starts with its mark or with its access. -/
private theorem nextKind_of_spells {c₀ : Cursor} (built : m.Built body)
    (marked : c.Spells (if m.isOverride then Line.override.lexemes else []) c₀)
    (spells : c₀.Spells m.modifiers.lexemes c₁) :
    c.nextKind = some .atSign ∨ c.nextKind = some (.modifier .publicAccess) := by
  obtain ⟨others, listed⟩ := ModifierSet.lexemes_of_contains built.opened
  cases override : m.isOverride with
  | true =>
    rw [override, if_pos rfl] at marked
    exact .inl marked.nextKind_eq
  | false =>
    rw [override, if_neg (by decide)] at marked
    obtain rfl := marked.nil_eq
    rw [listed] at spells
    exact .inr spells.nextKind_eq

/-- The modifiers of a member, with the mark before them: no initializer block starts here, and no
type is declared behind them. -/
private theorem qualifies_of_spells {c₀ : Cursor} {first second : Lexeme} {ls : List Lexeme}
    (built : m.Built body)
    (marked : c.Spells (if m.isOverride then Line.override.lexemes else []) c₀)
    (spells : c₀.Spells m.modifiers.lexemes c₁) (starts : StartsMember first second)
    (behind : c₁.Spells (first :: second :: ls) c') :
    ∃ annotations, c.Qualifies ⟨m.modifiers, annotations⟩ c₁ ∧
      annotations.map (fun a => (a.name, a.arguments)) =
        if m.isOverride then [("Override", [])] else [] := by
  obtain ⟨others, listed⟩ := ModifierSet.lexemes_of_contains built.opened
  have next := nextKind_of_spells built marked spells
  have kinds := starts.kind
  simp only [List.mem_cons, List.not_mem_nil, or_false, not_or] at kinds
  obtain ⟨annotations, h, qualified, sameMarks⟩ :=
    Qualifiers.read_of_spells m.isOverride marked spells (by simp [listed])
      ⟨first, second, ls, rfl, kinds.1, starts.notModifier, starts.notSealed, starts.notOperator⟩ behind
  refine ⟨annotations, ⟨?_, ?_, h, qualified⟩, sameMarks⟩
  · rcases next with next | next <;> simp [Cursor.sees_one, next]
  · rcases next with next | next <;> simp [Cursor.sees_two, next]

/-- A constructor, from its name on. -/
private theorem readConstructor_of_shows {className : String} (isClass : IsIdentifier className)
    (named : m.Named IsIdentifier) (built : m.Built body) (q : Qualifiers)
    (typeParameters : List TypeParameter) (start : Location)
    (spells : c.Spells (Lexeme.word className :: (Parameter.listLexemes m.parameters ++
      TypeRef.clauseLexemes .throwsWord m.exceptions ++ [Kind.leftBrace.lexeme])) c₁)
    (shows_ : c₁.Shows (body.flatMap Line.ended ++ [Line.closing]) c') :
    ∃ (k : Constructor) (h : _), Constructor.readRest q typeParameters start c = .ok ⟨k, c', h⟩ ∧
      k.modifiers = q.modifiers ∧ k.annotations = q.annotations ∧
      k.typeParameters = typeParameters ∧ k.name = className ∧
      k.parameters.map Parameter.withoutSpans = m.parameters.map Parameter.withoutSpans ∧
      k.exceptions.map TypeRef.withoutSpans = m.exceptions.map TypeRef.withoutSpans ∧
      k.body.ReadAs m.statements := by
  obtain ⟨d, hd, taken, rest⟩ := Cursor.identifier_of_spells isClass.free spells
  obtain ⟨c₂, c₃, parameters, exceptions, block, h₂, h₃, h₄, parametersRead, _, exceptionsRead, _,
    blockRead, sameParameters, sameExceptions, sameBody⟩ := rest_of_shows named built rest shows_
  refine ⟨⟨q.modifiers, q.annotations, typeParameters, className, parameters, exceptions, block,
    ⟨start, c'.lastStop⟩⟩, by omega, ?_, rfl, rfl, rfl, rfl, sameParameters, sameExceptions, sameBody⟩
  rw [Constructor.readRest, taken, ok_bind]
  simp only [mapError_of_ok parametersRead, ok_bind, exceptionsRead, blockRead]
  rfl

/-- A method, behind its name. -/
private theorem readMethod_of_shows (named : m.Named IsIdentifier) (built : m.Built body)
    (q : Qualifiers) (typeParameters : List TypeParameter) (type : TypeRef) (name : String)
    (start : Location)
    (spells : c.Spells (Parameter.listLexemes m.parameters ++
      TypeRef.clauseLexemes .throwsWord m.exceptions ++ [Kind.leftBrace.lexeme]) c₁)
    (shows_ : c₁.Shows (body.flatMap Line.ended ++ [Line.closing]) c') :
    ∃ (found : Method) (h : _),
      Method.readRest q typeParameters type name start c = .ok ⟨found, c', h⟩ ∧
      found.modifiers = q.modifiers ∧ found.annotations = q.annotations ∧
      found.typeParameters = typeParameters ∧ found.returnType = type ∧ found.name = name ∧
      found.parameters.map Parameter.withoutSpans = m.parameters.map Parameter.withoutSpans ∧
      found.exceptions.map TypeRef.withoutSpans = m.exceptions.map TypeRef.withoutSpans ∧
      ∃ block, found.body = some block ∧ block.ReadAs m.statements := by
  obtain ⟨c₂, c₃, parameters, exceptions, block, h₂, h₃, h₄, parametersRead, noDimensions,
    exceptionsRead, opens, blockRead, sameParameters, sameExceptions, sameBody⟩ :=
    rest_of_shows named built spells shows_
  refine ⟨⟨q.modifiers, q.annotations, typeParameters, type, name, parameters, exceptions,
    some block, ⟨start, c'.lastStop⟩⟩, by omega, ?_, rfl, rfl, rfl, rfl, rfl, sameParameters,
    sameExceptions, block, rfl, sameBody⟩
  rw [Method.readRest, parametersRead, ok_bind]
  dsimp only
  rw [noDimensions]
  simp only [exceptionsRead, ok_bind, opens, if_true, blockRead, pure_bind,
    TypeRef.addDimensions_zero]
  rfl

/-- The parts of a member: the mark and the modifiers, the type generics, what it is called, and
the rest of the header and the body. -/
private theorem parts_of_shows {className : String} (shows_ : c.Shows (m.lines className body) c') :
    ∃ c₀ c₁ c₂ c₃ c₄ : Cursor,
      c.Spells (if m.isOverride then Line.override.lexemes else []) c₀ ∧
      c₀.Spells m.modifiers.lexemes c₁ ∧
      c₁.Spells (Lexeme.bracketed (m.typeParameters.map TypeParameter.lexemes)) c₂ ∧
      c₂.Spells (m.kind.lexemes className) c₃ ∧
      c₃.Spells (Parameter.listLexemes m.parameters ++
        TypeRef.clauseLexemes .throwsWord m.exceptions ++ [Kind.leftBrace.lexeme]) c₄ ∧
      c₄.Shows (body.flatMap Line.ended ++ [Line.closing]) c' := by
  -- The mark has a line of its own, and the header is the next one.
  have marked : ∃ c₀ : Cursor, c.Spells (if m.isOverride then Line.override.lexemes else []) c₀ ∧
      c₀.Shows (⟨m.header className, m.lexemes className⟩ ::
        (body.flatMap Line.ended ++ [Line.closing])) c' := by
    unfold lines at shows_
    cases override : m.isOverride with
    | true =>
      rw [override] at shows_
      have first : c.Shows (Line.override :: ⟨m.header className, m.lexemes className⟩ ::
        (body.flatMap Line.ended ++ [Line.closing])) c' := by simpa using shows_
      exact first.spells_cons
    | false =>
      rw [override] at shows_
      exact ⟨c, .refl c, by simpa using shows_⟩
  obtain ⟨c₀, mark, rest⟩ := marked
  obtain ⟨c₄, header, shown⟩ := rest.spells_cons
  have spelled : m.lexemes className = m.modifiers.lexemes ++
      (Lexeme.bracketed (m.typeParameters.map TypeParameter.lexemes) ++ (m.kind.lexemes className ++
        (Parameter.listLexemes m.parameters ++ TypeRef.clauseLexemes .throwsWord m.exceptions ++
          [Kind.leftBrace.lexeme]))) := by
    simp [lexemes]
  change c₀.Spells (m.lexemes className) c₄ at header
  rw [spelled] at header
  obtain ⟨c₁, modifiers, header⟩ := header.split
  obtain ⟨c₂, generics, header⟩ := header.split
  obtain ⟨c₃, kind, header⟩ := header.split
  exact ⟨c₀, c₁, c₂, c₃, c₄, mark, modifiers, generics, kind, header, shown⟩

section

variable {className : String} {annotations : List Annotation} {c₂ c₃ c₄ : Cursor}
  (named : m.Named IsIdentifier) (built : m.Built body)
  (qualifies : c.Qualifies ⟨m.modifiers, annotations⟩ c₁)
  (sameMarks : annotations.map (fun a => (a.name, a.arguments)) =
    if m.isOverride then [("Override", [])] else [])
  (noType : TypeDecl.comesNext c₁ = false)
  (generics : c₁.Spells (Lexeme.bracketed (m.typeParameters.map TypeParameter.lexemes)) c₂)
  (header : c₃.Spells (Parameter.listLexemes m.parameters ++
    TypeRef.clauseLexemes .throwsWord m.exceptions ++ [Kind.leftBrace.lexeme]) c₄)
  (shown : c₄.Shows (body.flatMap Line.ended ++ [Line.closing]) c')

include named built qualifies sameMarks noType generics header shown

/-- A constructor is told by its name with the parameters right behind it. -/
private theorem constructor_of_shows (isClass : IsIdentifier className) (called : m.kind = .constructor)
    (kind : c₂.Spells [Lexeme.word className] c₃) :
    ∃ k, BodyMember.ReadAs c [.constructor k] c' ∧ m.ReadAs className (.constructor k) := by
  have free : (Lexeme.word className).kind = .identifier := isClass.free
  have whole : c₂.Spells (Lexeme.word className :: (Parameter.listLexemes m.parameters ++
    TypeRef.clauseLexemes .throwsWord m.exceptions ++ [Kind.leftBrace.lexeme])) c₄ :=
    kind.trans header
  obtain ⟨typeParameters, h₂, genericsRead, sameGenerics⟩ :=
    TypeParameter.readAll_of_spells named.typeParameters generics
      (by rw [whole.nextKind_eq, free]; decide)
  have sees : c₂.sees [.identifier, .leftParen] = true := by
    rw [Parameter.listLexemes, List.cons_append, List.cons_append, List.cons_append] at whole
    rw [Cursor.sees_two_of_spells whole, free]
    decide
  obtain ⟨k, h₃, constructorRead, sameModifiers, sameAnnotations, rfl, sameName, sameParameters,
    sameExceptions, sameBody⟩ := readConstructor_of_shows isClass named built
      ⟨m.modifiers, annotations⟩ typeParameters c.location whole shown
  refine ⟨k, .constructor qualifies noType genericsRead sees constructorRead, ?_, ?_, sameModifiers,
    ?_, sameGenerics, ?_, sameParameters, sameExceptions, k.body, rfl, sameBody⟩
  · simp [Member.isConstructor, isConstructor, called]
  · simp [Member.ownName, ownName, called, sameName]
  · rw [← sameMarks]
    exact congrArg _ sameAnnotations
  · simp [Member.returnType?, returnType?, called]

/-- A method has a type before its name, so no parenthesis stands behind the first word. -/
private theorem method_of_shows {name : String} {t : TypeRef} (called : m.kind = .method name t)
    (kind : c₂.Spells (t.lexemes ++ [Lexeme.word name]) c₃) :
    ∃ k, BodyMember.ReadAs c [.method k] c' ∧ m.ReadAs className (.method k) := by
  obtain ⟨isName, type⟩ := named.method name t called
  obtain ⟨d, typed, last⟩ := kind.split
  have free : (Lexeme.word name).kind = .identifier := isName.free
  have next : d.nextKind = some .identifier := by rw [last.nextKind_eq, free]
  obtain ⟨typeParameters, h₂, genericsRead, sameGenerics⟩ :=
    TypeParameter.readAll_of_spells named.typeParameters generics (by
      rw [TypeRef.nextKind_of_spells kind]
      simpa using Kind.ofWord_ne (by decide) _)
  have sees : c₂.sees [.identifier, .leftParen] = false := by
    obtain ⟨follower, rest, spelledType, inType⟩ := t.lexemes_eq_cons_cons (Lexeme.word name) []
    rw [spelledType] at kind
    have notParen : follower.kind ≠ .leftParen := by
      rcases inType with inside | rfl
      · exact inside.kind_ne (by decide)
      · exact Kind.ofWord_ne (by decide) _
    simp [Cursor.sees_two_of_spells kind, notParen]
  obtain ⟨found, h₃, typeRead, sameType⟩ := type.reads c₂ d typed (by simp [EndsType, next])
  obtain ⟨d', h₄, nameRead, rest⟩ := Cursor.identifier_of_spells isName.free last
  obtain rfl := rest.nil_eq
  have opens : c₃.nextKind = some .leftParen := header.nextKind_eq
  have paren : c₃.sees [.leftParen] = true := by simp [Cursor.sees_one, opens]
  obtain ⟨k, h₅, methodRead, sameModifiers, sameAnnotations, rfl, rfl, sameName, sameParameters,
    sameExceptions, sameBody⟩ := readMethod_of_shows named built
      ⟨m.modifiers, annotations⟩ typeParameters found name c.location header shown
  have names : c.Names ⟨m.modifiers, annotations⟩ k.typeParameters k.returnType name c₃ :=
    ⟨c₁, c₂, d, h₂, h₃, h₄, qualifies, noType, genericsRead, sees, typeRead, nameRead⟩
  refine ⟨k, .method names paren methodRead, ?_, ?_, sameModifiers, ?_, sameGenerics, ?_,
    sameParameters, sameExceptions, sameBody⟩
  · simp [Member.isConstructor, isConstructor, called]
  · simp [Member.ownName, ownName, called, sameName]
  · rw [← sameMarks]
    exact congrArg _ sameAnnotations
  · simpa [Member.returnType?, returnType?, called] using sameType

end

/-- Where the lines of a member come next, that member is read. -/
theorem read_of_shows {className : String} (isClass : IsIdentifier className)
    (notSealed : m.OpensWithClass → className ≠ "sealed") (named : m.Named IsIdentifier)
    (built : m.Built body)
    (plain : ∀ name t, m.kind = .method name t → t.firstWord ≠ "record" ∧ t.firstWord ≠ "sealed")
    (shows_ : c.Shows (m.lines className body) c') :
    ∃ (part : BodyMember) (found : Member) (h : _), BodyMember.read c = .ok ⟨[part], c', h⟩ ∧
      Member.ofBody? part = some found ∧ m.ReadAs className found := by
  obtain ⟨c₀, c₁, c₂, c₃, c₄, mark, modifiers, generics, kind, header, shown⟩ :=
    parts_of_shows shows_
  obtain ⟨first, second, others, spelled, starts⟩ := startsMember isClass notSealed named plain
    ([Kind.comma.lexeme].intercalate (m.parameters.map Parameter.lexemes) ++
      [Kind.rightParen.lexeme] ++ TypeRef.clauseLexemes .throwsWord m.exceptions ++
      [Kind.leftBrace.lexeme])
  have behind : c₁.Spells (first :: second :: others) c₄ := by
    rw [← spelled]
    simpa [Parameter.listLexemes] using (generics.trans kind).trans header
  obtain ⟨annotations, qualifies, sameMarks⟩ := qualifies_of_spells built mark modifiers starts behind
  have noType := starts.comesNext_eq_false behind
  cases called : m.kind with
  | constructor =>
    rw [called] at kind
    obtain ⟨k, readAs, same⟩ := constructor_of_shows named built qualifies sameMarks noType generics
      header shown isClass called kind
    obtain ⟨h, read⟩ := readAs.read
    exact ⟨.constructor k, .constructor k, h, read, rfl, same⟩
  | method name t =>
    rw [called] at kind
    obtain ⟨k, readAs, same⟩ := method_of_shows named built qualifies sameMarks noType generics
      header shown called kind
    obtain ⟨h, read⟩ := readAs.read
    exact ⟨.method k, .method k, h, read, rfl, same⟩

/-- What is asked of a member for it to be read back. -/
structure Legible (m : Counterpart) (body : List Line) : Prop where
  named : m.Named IsIdentifier
  built : m.Built body
  plain : ∀ name t, m.kind = .method name t → t.firstWord ≠ "record" ∧ t.firstWord ≠ "sealed"

/-- The first token of a member: neither a closing brace nor a semicolon. -/
private theorem nextKind_of_shows {className : String} (built : m.Built body)
    (shows_ : c.Shows (m.lines className body) c') :
    c.nextKind = some .atSign ∨ c.nextKind = some (.modifier .publicAccess) := by
  obtain ⟨c₀, c₁, _, _, _, mark, modifiers, _⟩ := parts_of_shows shows_
  exact nextKind_of_spells built mark modifiers

/-- Members are read one after the other, up to the closing brace. -/
theorem listed_of_shows {className : String} (isClass : IsIdentifier className)
    {members : List Counterpart} {bodies : List (List Line)}
    (notSealed : ∀ m ∈ members, m.OpensWithClass → className ≠ "sealed")
    (each : List.Forall₂ Legible members bodies)
    (shows_ : c.Shows ((List.zipWith (lines className) members bodies).flatten ++ [Line.closing]) c') :
    ∃ parts, BodyMember.Listed c parts c' ∧ List.Forall₂ (PartOf className) members parts := by
  induction each generalizing c with
  | nil =>
    obtain ⟨c₁, closing, rest⟩ := shows_.spells_cons
    obtain rfl := rest.nil_eq
    obtain ⟨brace, c₂, h₂, closed, _, rest⟩ := Cursor.accept?_of_spells closing
    change c.accept? .rightBrace = _ at closed
    obtain rfl := rest.nil_eq
    exact ⟨[], .closed closed, .nil⟩
  | @cons m body members bodies legible _ ih =>
    rw [List.zipWith_cons_cons, List.flatten_cons, List.append_assoc] at shows_
    obtain ⟨c₁, first, others⟩ := shows_.split
    obtain ⟨part, found, h₁, memberRead, isMember, readAs⟩ :=
      read_of_shows isClass (notSealed m List.mem_cons_self) legible.named legible.built
        legible.plain first
    obtain ⟨parts, listed, same⟩ := ih (fun other member => notSealed other (.tail m member)) others
    have next := nextKind_of_shows legible.built first
    have notClosed : c.accept? .rightBrace = none :=
      Cursor.accept?_eq_none (by rcases next with next | next <;> simp [next])
    have notEmpty : c.accept? .semicolon = none :=
      Cursor.accept?_eq_none (by rcases next with next | next <;> simp [next])
    exact ⟨part :: parts, .more notClosed notEmpty memberRead listed,
      .cons ⟨found, isMember, readAs⟩ same⟩

end Counterpart

/-! ### Classes -/

namespace Subclass

variable {s : Subclass} {bodies : List (List Line)} {c c₁ c' : Cursor}

/-- The header of a class behind its modifiers, up to the brace that opens the body. -/
private theorem header_of_spells (named : s.Named IsIdentifier)
    (spells : c.Spells (Kind.classWord.lexeme :: Lexeme.word s.name ::
      (Lexeme.bracketed (s.typeParameters.map TypeParameter.lexemes) ++
        (Kind.extendsWord.lexeme :: s.superclass.lexemes ++ [Kind.leftBrace.lexeme]))) c') :
    ∃ c₄ typeParameters type, c.HeadsClass s.name typeParameters (some type) [] c₄ ∧
      c₄.Spells [Kind.leftBrace.lexeme] c' ∧
      typeParameters.map TypeParameter.withoutSpans =
        s.typeParameters.map TypeParameter.withoutSpans ∧
      type.withoutSpans = s.superclass.withoutSpans := by
  obtain ⟨token, c₁, h₁, found, _, rest⟩ := Cursor.accept?_of_spells spells
  obtain ⟨c₂, h₂, taken, rest⟩ := Cursor.identifier_of_spells named.name.free rest
  obtain ⟨c₃, generics, rest⟩ := rest.split
  have extended : c₃.nextKind = some .extendsWord := rest.nextKind_eq
  obtain ⟨typeParameters, h₃, genericsRead, sameGenerics⟩ :=
    TypeParameter.readAll_of_spells named.typeParameters generics (by simp [extended])
  obtain ⟨keyword, d, hd, opened, _, rest⟩ := Cursor.accept?_of_spells rest
  change c₃.accept? .extendsWord = _ at opened
  obtain ⟨c₄, typed, brace⟩ := rest.split
  have next : c₄.nextKind = some .leftBrace := brace.nextKind_eq
  obtain ⟨type, ht, typeRead, sameType⟩ :=
    named.superclass.reads d c₄ typed (by simp [EndsType, next])
  have extends_ : (c₃.clause .extendsWord fun d _ => TypeRef.read d) =
      .ok ⟨some type, c₄, by omega⟩ := by
    rw [Cursor.clause, opened]
    simp only [typeRead, ok_bind]
    rfl
  -- Neither interfaces nor subclasses are named behind the superclass.
  have noInterfaces : TypeRef.readClause c₄ .implementsWord = .ok ⟨[], c₄, c₄.size_le⟩ := by
    rw [TypeRef.readClause, Cursor.clause_of_nextKind (by simp [next])]
    rfl
  have noPermits : TypeDecl.passPermits c₄ = .ok ⟨(), c₄, c₄.size_le⟩ := by
    rw [TypeDecl.passPermits, Cursor.acceptWord?_eq_none (by simp [next])]
    rfl
  exact ⟨c₄, typeParameters, type, ⟨token, c₁, c₂, c₃, c₄, c₄, h₁, h₂, h₃, _, _, _, found, taken,
    genericsRead, extends_, noInterfaces, noPermits⟩, brace, sameGenerics, sameType⟩

/-- Where the lines of a class come next, that class is read. -/
theorem read_of_shows (named : s.Named IsIdentifier)
    (notSealed : ∀ m ∈ s.members, m.OpensWithClass → s.name ≠ "sealed")
    (modified : s.modifiers.lexemes ≠ []) (each : List.Forall₂ Counterpart.Legible s.members bodies)
    (shows_ : c.Shows (⟨s.header, s.lexemes⟩ ::
      ((List.zipWith (Counterpart.lines s.name) s.members bodies).flatten ++ [Line.closing])) c') :
    ∃ (decl : ClassDecl) (h : _), TypeDecl.read c = .ok ⟨.classDecl decl, c', h⟩ ∧
      s.ReadAs decl := by
  obtain ⟨cb, header, members⟩ := shows_.spells_cons
  have spelled : s.lexemes = s.modifiers.lexemes ++ (Kind.classWord.lexeme :: Lexeme.word s.name ::
      (Lexeme.bracketed (s.typeParameters.map TypeParameter.lexemes) ++
        (Kind.extendsWord.lexeme :: s.superclass.lexemes ++ [Kind.leftBrace.lexeme]))) := by
    simp [lexemes]
  change c.Spells s.lexemes cb at header
  rw [spelled] at header
  obtain ⟨c₀, modifiers, rest⟩ := header.split
  have plain (ls : List Lexeme) :
      Unqualified (Kind.classWord.lexeme :: Lexeme.word s.name :: ls) :=
    ⟨_, _, ls, rfl, by decide, by simp [Kind.lexeme], by decide, Kind.ofWord_ne (by decide) _⟩
  obtain ⟨annotations, h₀, qualified, marks⟩ :=
    Qualifiers.read_of_spells false (.refl c) modifiers modified (plain _) rest
  obtain rfl : annotations = [] := by simpa using marks
  obtain ⟨c₄, typeParameters, type, heads, brace, sameGenerics, sameType⟩ :=
    header_of_spells named rest
  obtain ⟨open_, d, hd, opened, _, behind⟩ :=
    Cursor.expect_of_spells "'\x7b' to open class body" brace
  change c₄.expect .leftBrace _ = _ at opened
  obtain rfl := behind.nil_eq
  obtain ⟨parts, listed, sameBody⟩ :=
    Counterpart.listed_of_shows named.name notSealed each members
  obtain ⟨_, bodyRead⟩ := BodyMember.readBody_eq_ok_iff.mpr ⟨open_, _, hd, opened, listed⟩
  obtain ⟨h, classRead⟩ := (TypeDecl.ReadAs.classDecl heads bodyRead).read
  exact ⟨_, _, bind_of_ok qualified (bind_of_ok classRead rfl), rfl, rfl, rfl, sameGenerics,
    by simp [sameType], rfl, sameBody⟩

/-- The package of a subclass is read, and no import. -/
private theorem preamble_of_shows (package : s.package ≠ "" → Dotted IsIdentifier s.package)
    (opened : s.modifiers.contains .publicAccess = true) {lines : List Line}
    (shows_ : c.Shows (Line.package s.package ++ ⟨s.header, s.lexemes⟩ :: lines) c') :
    ∃ (found : Option PackageDecl) (c₁ : Cursor) (h : _),
      Preamble.read c = .ok ⟨⟨found, []⟩, c₁, h⟩ ∧
      found.map PackageDecl.name = (if s.package = "" then none else some s.package) ∧
      c₁.nextKind = some (.modifier .publicAccess) ∧
      c₁.Shows (⟨s.header, s.lexemes⟩ :: lines) c' := by
  have access {d : Cursor} (later : d.Shows (⟨s.header, s.lexemes⟩ :: lines) c') :
      d.nextKind = some (.modifier .publicAccess) := by
    obtain ⟨others, listed⟩ := ModifierSet.lexemes_of_contains opened
    obtain ⟨_, header, _⟩ := later.spells_cons
    rw [lexemes, listed] at header
    exact header.nextKind_eq
  have noImports {d : Cursor} (next : d.nextKind = some (.modifier .publicAccess)) :
      ImportDecl.Listed d [] d := .ended (Cursor.accept?_eq_none (by simp [next]))
  -- The default package has no line; then the modifiers of the class come next at once.
  unfold Line.package at shows_
  by_cases default : s.package = ""
  · rw [if_pos default] at shows_
    have next := access shows_
    have noPackage : PackageDecl.ReadAs c none c :=
      .missing (Cursor.accept?_eq_none (by simp [next]))
    obtain ⟨h, preamble⟩ := Preamble.read_eq_ok_iff.mpr ⟨c, noPackage, noImports next⟩
    exact ⟨none, c, h, preamble, by simp [default], next, shows_⟩
  · rw [if_neg default] at shows_
    obtain ⟨c₃, spells, later⟩ := shows_.spells_cons
    have next := access later
    obtain ⟨token, c₁, h₁, found, _, rest⟩ := Cursor.accept?_of_spells spells
    change c.accept? .packageWord = _ at found
    obtain ⟨c₂, named, ending⟩ := rest.split
    have ends : c₂.nextKind = some .semicolon := ending.nextKind_eq
    obtain ⟨h₂, nameRead⟩ := Cursor.dottedName_of_spells (package default) named (by simp [ends])
    obtain ⟨sign, d, h₃, ended, _, rest⟩ :=
      Cursor.expect_of_spells "';' after package name" ending
    obtain rfl := rest.nil_eq
    have packaged := PackageDecl.ReadAs.declared found nameRead ended
    obtain ⟨h, preamble⟩ := Preamble.read_eq_ok_iff.mpr ⟨c₃, packaged, noImports next⟩
    exact ⟨_, c₃, h, preamble, by simp [default], next, later⟩

/-- A text that consists of the lines of a subclass is read as that subclass. -/
theorem readBack_of_laid (named : s.Named IsIdentifier)
    (notSealed : ∀ m ∈ s.members, m.OpensWithClass → s.name ≠ "sealed")
    (opened : s.modifiers.contains .publicAccess = true)
    (each : List.Forall₂ Counterpart.Legible s.members bodies) {text : String}
    (laid : Laid text (s.lines bodies)) :
    ∃ unit, (CompilationUnit.read text).outcome = .ok unit ∧ s.ReadBack unit := by
  obtain ⟨tokens, lexed, spelled⟩ := laid.ofSource
  let c := Cursor.start tokens
  let c' : Cursor := ⟨tokens.getLast?.or none, []⟩
  have shows_ : c.Shows (s.lines bodies) c' := ⟨tokens, ⟨(List.append_nil _).symm, rfl⟩, spelled⟩
  rw [lines, List.append_assoc, List.append_assoc, List.singleton_append] at shows_
  obtain ⟨package, c₁, h₁, preamble, samePackage, next, later⟩ :=
    preamble_of_shows named.package opened shows_
  obtain ⟨others, listed⟩ := ModifierSet.lexemes_of_contains opened
  obtain ⟨decl, h₂, declRead, same⟩ :=
    read_of_shows named notSealed (by simp [listed]) each later
  have types : TypeDecl.Listed c₁ [.classDecl decl] c' :=
    .more (Cursor.accept?_eq_none (by simp [next])) declRead (.ended rfl)
  refine ⟨⟨package, [], [.classDecl decl], ⟨c.location, c'.lastStop⟩⟩, ?_, samePackage, rfl, decl,
    rfl, same⟩
  have whole := CompilationUnit.ofTokens_eq_ok_iff.mpr ⟨c', _, c₁, h₁, _, preamble, types, rfl⟩
  rw [CompilationUnit.read, lexed]
  simp only [whole]
  rfl

end Subclass

end TestDouble
