import TestDouble.CompilationUnit.Reader
import TestDouble.Proofs.Acceptance

/-!
# How members, types and units are read

The readers of members and of types choose among several forms. Here each form is one case of a
relation, with all that the reader checked before it chose, and the relation holds exactly when the
reader succeeds. Lists of members, of imports and of types, which the readers collect backwards, are
related in their order.
-/

namespace TestDouble

/-! ### Parameters -/

/-- Take the next token if it has the given kind, and tell whether it has. -/
def Cursor.optionally (c : Cursor) (kind : Kind) : Reached c Bool :=
  match c.accept? kind with
  | some ⟨_, c₁, h₁⟩ => ⟨true, c₁, Cursor.le_of_lt h₁⟩
  | none => ⟨false, c, c.size_le⟩

/-- A token of the kind is passed, or none comes next. -/
inductive Cursor.MayPass (kind : Kind) (c : Cursor) : Bool → Cursor → Prop where
  | passed {t : Token} {d : Cursor} {h : d.size < c.size} :
      c.accept? kind = some ⟨t, d, h⟩ → MayPass kind c true d
  | missing : c.accept? kind = none → MayPass kind c false c

theorem Cursor.mayPass_optionally (c : Cursor) (kind : Kind) :
    MayPass kind c (c.optionally kind).value (c.optionally kind).cursor := by
  rw [optionally]
  split
  next found => exact .passed found
  next missing => exact .missing missing

theorem Cursor.MayPass.optionally {c d : Cursor} {kind : Kind} {passed : Bool}
    (mayPass : MayPass kind c passed d) : ∃ h, c.optionally kind = ⟨passed, d, h⟩ := by
  rw [Cursor.optionally]
  cases mayPass with
  | @passed t d h found =>
    rw [found]
    exact ⟨le_of_lt h, rfl⟩
  | missing missing =>
    rw [missing]
    exact ⟨c.size_le, rfl⟩

theorem Cursor.MayPass.size_le {c d : Cursor} {kind : Kind} {passed : Bool}
    (mayPass : MayPass kind c passed d) : d.size ≤ c.size := by
  obtain ⟨h, -⟩ := mayPass.optionally
  exact h

/-- What stands behind the type of a parameter: `this`, or a name with dimensions. -/
def Parameter.readNamed (origin : Cursor) (q : Qualifiers) (type : TypeRef) (start : Location)
    (variadic : Bool) (c : Cursor) (within : c.size < origin.size) :
    Reading (Option Parameter) origin :=
  match c.accept? .thisWord with
  | some ⟨_, c₅, h₅⟩ => return ⟨none, c₅, Cursor.lt_of_lt_lt within h₅⟩
  | none => do
    let ⟨name, c₅, h₅⟩ ← c.identifier
    let ⟨n, c₆, h₆⟩ := c₅.dimensions
    have named := Cursor.lt_of_lt_lt within h₅
    return ⟨some ⟨q.modifiers, q.annotations, type.addDimensions n, name, variadic,
      ⟨start, c₆.lastStop⟩⟩, c₆, Cursor.lt_of_lt_le named h₆⟩

theorem Parameter.read_eq (c : Cursor) : read c = (do
    let ⟨q, c₁, h₁⟩ ← Qualifiers.read c
    let ⟨type, c₂, h₂⟩ ← TypeRef.read c₁
    let ⟨_, c₃, h₃⟩ ← Annotation.pass c₂
    let ⟨variadic, c₄, h₄⟩ := c₃.optionally .ellipsis
    readNamed c q type c.location variadic c₄
      (Cursor.lt_of_lt_le (Cursor.lt_of_lt_le (Cursor.lt_of_le_lt h₁ h₂) h₃) h₄)) := rfl

/-- What stands before the name of a parameter: its modifiers and annotations, its type and, for a
variable number of arguments, dots. -/
def Cursor.Typed (c : Cursor) (q : Qualifiers) (type : TypeRef) (variadic : Bool) (c₄ : Cursor) :
    Prop :=
  ∃ c₁ c₂ c₃ h₁ h₂ h₃, Qualifiers.read c = .ok ⟨q, c₁, h₁⟩ ∧ TypeRef.read c₁ = .ok ⟨type, c₂, h₂⟩ ∧
    Annotation.pass c₂ = .ok ⟨(), c₃, h₃⟩ ∧ c₃.MayPass .ellipsis variadic c₄

/-- How a parameter is read. The receiver parameter is none. -/
inductive Parameter.ReadAs (c : Cursor) : Option Parameter → Cursor → Prop where
  | receiver {q : Qualifiers} {type : TypeRef} {variadic : Bool} {word : Token} {c₄ d : Cursor}
      {h : d.size < c₄.size} :
      c.Typed q type variadic c₄ → c₄.accept? .thisWord = some ⟨word, d, h⟩ → ReadAs c none d
  | named {q : Qualifiers} {type : TypeRef} {variadic : Bool} {name : String} {n : Nat}
      {c₄ c₅ d : Cursor} {h₅ : c₅.size < c₄.size} {h₆ : d.size ≤ c₅.size} :
      c.Typed q type variadic c₄ → c₄.accept? .thisWord = none →
      c₄.identifier = .ok ⟨name, c₅, h₅⟩ → c₅.dimensions = ⟨n, d, h₆⟩ →
      ReadAs c (some ⟨q.modifiers, q.annotations, type.addDimensions n, name, variadic,
        ⟨c.location, d.lastStop⟩⟩) d

theorem Parameter.read_eq_ok_iff {c d : Cursor} {v : Option Parameter} :
    (∃ h, read c = .ok ⟨v, d, h⟩) ↔ ReadAs c v d := by
  constructor
  · rintro ⟨h, returned⟩
    rw [read_eq] at returned
    obtain ⟨⟨q, c₁, h₁⟩, qualified, returned⟩ := bind_eq_ok returned
    obtain ⟨⟨type, c₂, h₂⟩, typed, returned⟩ := bind_eq_ok returned
    obtain ⟨⟨_, c₃, h₃⟩, passed, returned⟩ := bind_eq_ok returned
    have typed : c.Typed q type _ _ :=
      ⟨c₁, c₂, c₃, h₁, h₂, h₃, qualified, typed, passed, c₃.mayPass_optionally .ellipsis⟩
    dsimp only at returned
    rw [readNamed] at returned
    split at returned
    next found =>
      cases returned
      exact .receiver typed found
    next missing =>
      obtain ⟨⟨name, c₅, h₅⟩, named, finished⟩ := bind_eq_ok returned
      cases finished
      exact .named typed missing named rfl
  · intro readAs
    rw [read_eq]
    cases readAs with
    | receiver typed found =>
      obtain ⟨c₁, c₂, c₃, h₁, h₂, h₃, qualified, typed, passed, mayPass⟩ := typed
      have size := mayPass.size_le
      obtain ⟨h₄, marked⟩ := mayPass.optionally
      refine ⟨by omega, bind_of_ok qualified (bind_of_ok typed (bind_of_ok passed ?_))⟩
      dsimp only
      -- The place behind the dots occurs in proofs too, so it is replaced everywhere at once.
      generalize c₃.optionally .ellipsis = marks at marked ⊢
      subst marked
      simp only [readNamed, found]
      rfl
    | named typed missing named counted =>
      obtain ⟨c₁, c₂, c₃, h₁, h₂, h₃, qualified, typed, passed, mayPass⟩ := typed
      have size := mayPass.size_le
      obtain ⟨h₄, marked⟩ := mayPass.optionally
      refine ⟨by omega, bind_of_ok qualified (bind_of_ok typed (bind_of_ok passed ?_))⟩
      dsimp only
      generalize c₃.optionally .ellipsis = marks at marked ⊢
      subst marked
      simp only [readNamed, missing]
      refine bind_of_ok named ?_
      simp only [counted]
      rfl

/-! ### Members -/

/-- The modifiers and annotations of a declared member come next: it is no initializer. -/
structure Cursor.Qualifies (c : Cursor) (q : Qualifiers) (c₁ : Cursor) : Prop where
  notOpen : c.sees [.leftBrace] = false
  notStatic : c.sees [.modifier .staticMember, .leftBrace] = false
  qualified : ∃ h, Qualifiers.read c = .ok ⟨q, c₁, h⟩

/-- A member with a type and a name comes next: it is no type and no constructor. -/
def Cursor.Names (c : Cursor) (q : Qualifiers) (ps : List TypeParameter) (type : TypeRef)
    (name : String) (c₄ : Cursor) : Prop :=
  ∃ c₁ c₂ c₃ h₂ h₃ h₄, c.Qualifies q c₁ ∧ TypeDecl.comesNext c₁ = false ∧
    TypeParameter.readAll c₁ = .ok ⟨ps, c₂, h₂⟩ ∧ c₂.sees [.identifier, .leftParen] = false ∧
    TypeRef.read c₂ = .ok ⟨type, c₃, h₃⟩ ∧ c₃.identifier = .ok ⟨name, c₄, h₄⟩

/-- How a member is read, one case for each kind of member. -/
inductive BodyMember.ReadAs (c : Cursor) : List BodyMember → Cursor → Prop where
  | initializer {body : Block} {d : Cursor} {h : d.size < c.size} :
      c.sees [.leftBrace] = true → Block.read c = .ok ⟨body, d, h⟩ →
      ReadAs c [.initializer ⟨false, body, ⟨c.location, d.lastStop⟩⟩] d
  | static {word : Token} {body : Block} {c₁ d : Cursor} {h₁ : c₁.size < c.size}
      {h : d.size < c₁.size} :
      c.sees [.leftBrace] = false → c.sees [.modifier .staticMember, .leftBrace] = true →
      c.expect (.modifier .staticMember) "'static'" = .ok ⟨word, c₁, h₁⟩ →
      Block.read c₁ = .ok ⟨body, d, h⟩ →
      ReadAs c [.initializer ⟨true, body, ⟨c.location, d.lastStop⟩⟩] d
  | type {q : Qualifiers} {decl : TypeDecl} {c₁ d : Cursor} {h : d.size < c₁.size} :
      c.Qualifies q c₁ → TypeDecl.comesNext c₁ = true →
      TypeDecl.readRest q c.location c₁ = .ok ⟨decl, d, h⟩ → ReadAs c [.type decl] d
  | constructor {q : Qualifiers} {ps : List TypeParameter} {decl : Constructor} {c₁ c₂ d : Cursor}
      {h₂ : c₂.size ≤ c₁.size} {h : d.size < c₂.size} :
      c.Qualifies q c₁ → TypeDecl.comesNext c₁ = false →
      TypeParameter.readAll c₁ = .ok ⟨ps, c₂, h₂⟩ → c₂.sees [.identifier, .leftParen] = true →
      Constructor.readRest q ps c.location c₂ = .ok ⟨decl, d, h⟩ → ReadAs c [.constructor decl] d
  | method {q : Qualifiers} {ps : List TypeParameter} {type : TypeRef} {name : String}
      {decl : Method} {c₄ d : Cursor} {h : d.size < c₄.size} :
      c.Names q ps type name c₄ → c₄.sees [.leftParen] = true →
      Method.readRest q ps type name c.location c₄ = .ok ⟨decl, d, h⟩ → ReadAs c [.method decl] d
  | fields {q : Qualifiers} {type : TypeRef} {name : String} {ds : List Declarator}
      {c₄ d : Cursor} {h : d.size < c₄.size} :
      c.Names q [] type name c₄ → c₄.sees [.leftParen] = false →
      Declarator.readAll c₄ c₄ c₄.size_le name [] = .ok ⟨ds, d, h⟩ →
      ReadAs c (ds.map fun d => .field (d.field q type c.location)) d

theorem BodyMember.readAs_of_read {c d : Cursor} {v : List BodyMember} {h : d.size < c.size}
    (returned : BodyMember.read c = .ok ⟨v, d, h⟩) : ReadAs c v d := by
  rw [BodyMember.read] at returned
  -- The reader looks for a block first, then for the word before one; what is left is declared.
  split at returned
  next opens =>
    obtain ⟨⟨body, c₁, h₁⟩, read, finished⟩ := bind_eq_ok returned
    cases finished
    exact .initializer opens read
  next notOpen =>
    split at returned
    next isStatic =>
      obtain ⟨⟨word, c₁, h₁⟩, expected, returned⟩ := bind_eq_ok returned
      obtain ⟨⟨body, c₂, h₂⟩, read, finished⟩ := bind_eq_ok returned
      cases finished
      exact .static (by simpa using notOpen) isStatic expected read
    next notStatic =>
      obtain ⟨⟨q, c₁, h₁⟩, qualified, returned⟩ := bind_eq_ok returned
      have qualifies : c.Qualifies q c₁ :=
        ⟨by simpa using notOpen, by simpa using notStatic, h₁, qualified⟩
      dsimp only at returned
      split at returned
      next isType =>
        obtain ⟨⟨decl, c₂, h₂⟩, read, finished⟩ := bind_eq_ok returned
        cases finished
        exact .type qualifies isType read
      next notType =>
        obtain ⟨⟨ps, c₂, h₂⟩, listed, returned⟩ := bind_eq_ok returned
        dsimp only at returned
        split at returned
        next isConstructor =>
          obtain ⟨⟨decl, c₃, h₃⟩, read, finished⟩ := bind_eq_ok returned
          cases finished
          exact .constructor qualifies (by simpa using notType) listed isConstructor read
        next notConstructor =>
          obtain ⟨⟨type, c₃, h₃⟩, typed, returned⟩ := bind_eq_ok returned
          obtain ⟨⟨name, c₄, h₄⟩, named, returned⟩ := bind_eq_ok returned
          have names : c.Names q ps type name c₄ :=
            ⟨c₁, c₂, c₃, h₂, h₃, h₄, qualifies, by simpa using notType, listed,
              by simpa using notConstructor, typed, named⟩
          dsimp only at returned
          split at returned
          next isMethod =>
            obtain ⟨⟨decl, c₅, h₅⟩, read, finished⟩ := bind_eq_ok returned
            cases finished
            exact .method names isMethod (mapError_eq_ok read)
          next notMethod =>
            split at returned
            next => cases returned
            next plain =>
              obtain ⟨⟨ds, c₅, h₅⟩, read, finished⟩ := bind_eq_ok returned
              cases finished
              obtain rfl : ps = [] := by simpa using plain
              exact .fields names (by simpa using notMethod) read

theorem BodyMember.ReadAs.read {c d : Cursor} {v : List BodyMember} (readAs : ReadAs c v d) :
    ∃ h, BodyMember.read c = .ok ⟨v, d, h⟩ := by
  rw [BodyMember.read]
  -- Every case holds what the reader checks on its way there, so the checks are replayed in order.
  cases readAs with
  | @initializer body _ h opens read =>
    rw [if_pos opens]
    exact ⟨h, bind_of_ok read rfl⟩
  | static notOpen isStatic expected read =>
    rw [if_neg (by simp [notOpen]), if_pos isStatic]
    exact ⟨by omega, bind_of_ok expected (bind_of_ok read rfl)⟩
  | type qualifies isType read =>
    obtain ⟨notOpen, notStatic, h₁, qualified⟩ := qualifies
    rw [if_neg (by simp [notOpen]), if_neg (by simp [notStatic])]
    refine ⟨by omega, bind_of_ok qualified ?_⟩
    dsimp only
    rw [if_pos isType]
    exact bind_of_ok read rfl
  | constructor qualifies notType listed isConstructor read =>
    obtain ⟨notOpen, notStatic, h₁, qualified⟩ := qualifies
    rw [if_neg (by simp [notOpen]), if_neg (by simp [notStatic])]
    refine ⟨by omega, bind_of_ok qualified ?_⟩
    dsimp only
    rw [if_neg (by simp [notType])]
    refine bind_of_ok listed ?_
    dsimp only
    rw [if_pos isConstructor]
    exact bind_of_ok read rfl
  | method names isMethod read =>
    obtain ⟨c₁, c₂, c₃, h₂, h₃, h₄, ⟨notOpen, notStatic, h₁, qualified⟩, notType, listed,
      notConstructor, typed, named⟩ := names
    rw [if_neg (by simp [notOpen]), if_neg (by simp [notStatic])]
    refine ⟨by omega, bind_of_ok qualified ?_⟩
    dsimp only
    rw [if_neg (by simp [notType])]
    refine bind_of_ok listed ?_
    dsimp only
    rw [if_neg (by simp [notConstructor])]
    refine bind_of_ok typed (bind_of_ok named ?_)
    dsimp only
    rw [if_pos isMethod]
    exact bind_of_ok (mapError_of_ok read) rfl
  | fields names notMethod read =>
    obtain ⟨c₁, c₂, c₃, h₂, h₃, h₄, ⟨notOpen, notStatic, h₁, qualified⟩, notType, listed,
      notConstructor, typed, named⟩ := names
    rw [if_neg (by simp [notOpen]), if_neg (by simp [notStatic])]
    refine ⟨by omega, bind_of_ok qualified ?_⟩
    dsimp only
    rw [if_neg (by simp [notType])]
    refine bind_of_ok listed ?_
    dsimp only
    rw [if_neg (by simp [notConstructor])]
    refine bind_of_ok typed (bind_of_ok named ?_)
    dsimp only
    rw [if_neg (by simp [notMethod]), if_neg (by simp)]
    exact bind_of_ok read rfl

namespace NominalDecl

section

variable {c : Cursor} {n m : Nat}

/-! The outcomes of the two scans, one after the other. -/

theorem passBody_of_noHeader (header : headerLength? c.ahead 0 0 = none) :
    passBody c = .error (c.expectedAtEnd "'\x7b' to open type body") := by
  rw [passBody, header]

theorem passBody_of_noBody (header : headerLength? c.ahead 0 0 = some n)
    (body : bodyLength? (c.ahead.drop (n + 1)) 0 0 = none) :
    passBody c = .error (c.expectedAtEnd "'\x7d'") := by
  rw [passBody, header]
  dsimp only
  split <;> simp_all

theorem passBody_of_counted (header : headerLength? c.ahead 0 0 = some n)
    (body : bodyLength? (c.ahead.drop (n + 1)) 0 0 = some m) :
    ∃ within h, passBody c = .ok ⟨(), c.skip (n + 1 + m) within, h⟩ := by
  have within := bodyLength?_le body
  refine ⟨within, Cursor.size_skip_le within, ?_⟩
  rw [passBody, header]
  dsimp only
  split <;> simp_all

end

/-- The header and the body are passed exactly when the braces around the body are found. -/
theorem passBody_eq_ok_iff {c d : Cursor} :
    (∃ h, passBody c = .ok ⟨(), d, h⟩) ↔ ∃ n m, headerLength? c.ahead 0 0 = some n ∧
      bodyLength? (c.ahead.drop (n + 1)) 0 0 = some m ∧
      ∃ within, c.skip (n + 1 + m) within = d := by
  constructor
  · rintro ⟨h, passed⟩
    rcases header : headerLength? c.ahead 0 0 with _ | n
    · rw [passBody_of_noHeader header] at passed
      cases passed
    rcases body : bodyLength? (c.ahead.drop (n + 1)) 0 0 with _ | m
    · rw [passBody_of_noBody header body] at passed
      cases passed
    obtain ⟨within, h, found⟩ := passBody_of_counted header body
    exact ⟨n, m, rfl, body, within,
      congrArg Reached.cursor (Except.ok.inj (found.symm.trans passed))⟩
  · rintro ⟨n, m, header, body, within, rfl⟩
    obtain ⟨_, h, passed⟩ := passBody_of_counted header body
    exact ⟨h, passed⟩

end NominalDecl

/-- What stands before the body of a class comes next. -/
def Cursor.HeadsClass (c : Cursor) (name : String) (ps : List TypeParameter) (super : Option TypeRef)
    (is : List TypeRef) (c₆ : Cursor) : Prop :=
  ∃ t c₁ c₂ c₃ c₄ c₅ h₁ h₂ h₃ h₄ h₅ h₆, c.accept? .classWord = some ⟨t, c₁, h₁⟩ ∧
    c₁.identifier = .ok ⟨name, c₂, h₂⟩ ∧ TypeParameter.readAll c₂ = .ok ⟨ps, c₃, h₃⟩ ∧
    (c₃.clause .extendsWord fun c' _ => TypeRef.read c') = .ok ⟨super, c₄, h₄⟩ ∧
    TypeRef.readClause c₄ .implementsWord = .ok ⟨is, c₅, h₅⟩ ∧
    TypeDecl.passPermits c₅ = .ok ⟨(), c₆, h₆⟩

/-- What stands before the body of an interface comes next. -/
def Cursor.HeadsInterface (c : Cursor) (name : String) (ps : List TypeParameter) (is : List TypeRef)
    (c₅ : Cursor) : Prop :=
  ∃ t c₁ c₂ c₃ c₄ h₁ h₂ h₃ h₄ h₅, c.accept? .classWord = none ∧
    c.accept? .interfaceWord = some ⟨t, c₁, h₁⟩ ∧ c₁.identifier = .ok ⟨name, c₂, h₂⟩ ∧
    TypeParameter.readAll c₂ = .ok ⟨ps, c₃, h₃⟩ ∧
    TypeRef.readClause c₃ .extendsWord = .ok ⟨is, c₄, h₄⟩ ∧
    TypeDecl.passPermits c₄ = .ok ⟨(), c₅, h₅⟩

theorem Cursor.HeadsClass.size_lt {c c₆ : Cursor} {name : String} {ps : List TypeParameter}
    {super : Option TypeRef} {is : List TypeRef} (heads : c.HeadsClass name ps super is c₆) :
    c₆.size < c.size := by
  obtain ⟨t, c₁, c₂, c₃, c₄, c₅, h₁, h₂, h₃, h₄, h₅, h₆, -⟩ := heads
  omega

theorem Cursor.HeadsInterface.size_lt {c c₅ : Cursor} {name : String} {ps : List TypeParameter}
    {is : List TypeRef} (heads : c.HeadsInterface name ps is c₅) : c₅.size < c.size := by
  obtain ⟨t, c₁, c₂, c₃, c₄, h₁, h₂, h₃, h₄, h₅, -⟩ := heads
  omega

/-- How a type declaration is read behind its modifiers and annotations, one case for each kind. -/
inductive TypeDecl.ReadAs (q : Qualifiers) (start : Location) (c : Cursor) :
    TypeDecl → Cursor → Prop where
  | classDecl {name : String} {ps : List TypeParameter} {super : Option TypeRef} {is : List TypeRef}
      {body : List BodyMember} {c₆ d : Cursor} {h : d.size < c₆.size} :
      c.HeadsClass name ps super is c₆ → BodyMember.readBody c₆ = .ok ⟨body, d, h⟩ →
      ReadAs q start c (.classDecl ⟨q.modifiers, q.annotations, name, ps, super, is, body,
        ⟨start, d.lastStop⟩⟩) d
  | interfaceDecl {name : String} {ps : List TypeParameter} {is : List TypeRef}
      {body : List BodyMember} {c₅ d : Cursor} {h : d.size < c₅.size} :
      c.HeadsInterface name ps is c₅ → BodyMember.readBody c₅ = .ok ⟨body, d, h⟩ →
      ReadAs q start c (.interfaceDecl ⟨q.modifiers, q.annotations, name, ps, is,
        body.map BodyMember.inInterface, ⟨start, d.lastStop⟩⟩) d
  | nominal {kind : NominalKind} {decl : NominalDecl} {c₁ d : Cursor} {h₁ : c₁.size < c.size}
      {h : d.size < c₁.size} :
      c.accept? .classWord = none → c.accept? .interfaceWord = none →
      NominalDecl.kind? c = some ⟨kind, c₁, h₁⟩ →
      NominalDecl.readRest kind q start c₁ = .ok ⟨decl, d, h⟩ → ReadAs q start c (.nominal decl) d

theorem TypeDecl.readAs_of_readRest {q : Qualifiers} {start : Location} {c d : Cursor} {v : TypeDecl}
    {h : d.size < c.size} (returned : TypeDecl.readRest q start c = .ok ⟨v, d, h⟩) :
    ReadAs q start c v d := by
  rw [TypeDecl.readRest] at returned
  split at returned
  next t c₁ h₁ word =>
    obtain ⟨⟨name, c₂, h₂⟩, named, returned⟩ := bind_eq_ok returned
    obtain ⟨⟨ps, c₃, h₃⟩, listed, returned⟩ := bind_eq_ok returned
    obtain ⟨⟨super, c₄, h₄⟩, extended, returned⟩ := bind_eq_ok returned
    obtain ⟨⟨is, c₅, h₅⟩, implemented, returned⟩ := bind_eq_ok returned
    obtain ⟨⟨_, c₆, h₆⟩, permitted, returned⟩ := bind_eq_ok returned
    obtain ⟨⟨body, c₇, h₇⟩, bodyRead, finished⟩ := bind_eq_ok returned
    cases finished
    exact .classDecl ⟨t, c₁, c₂, c₃, c₄, c₅, h₁, h₂, h₃, h₄, h₅, h₆, word, named, listed, extended,
      implemented, permitted⟩ (mapError_eq_ok bodyRead)
  next noClass =>
    split at returned
    next t c₁ h₁ word =>
      obtain ⟨⟨name, c₂, h₂⟩, named, returned⟩ := bind_eq_ok returned
      obtain ⟨⟨ps, c₃, h₃⟩, listed, returned⟩ := bind_eq_ok returned
      obtain ⟨⟨is, c₄, h₄⟩, extended, returned⟩ := bind_eq_ok returned
      obtain ⟨⟨_, c₅, h₅⟩, permitted, returned⟩ := bind_eq_ok returned
      obtain ⟨⟨body, c₆, h₆⟩, bodyRead, finished⟩ := bind_eq_ok returned
      cases finished
      exact .interfaceDecl ⟨t, c₁, c₂, c₃, c₄, h₁, h₂, h₃, h₄, h₅, noClass, word, named, listed,
        extended, permitted⟩ (mapError_eq_ok bodyRead)
    next noInterface =>
      split at returned
      next kind c₁ h₁ known =>
        obtain ⟨⟨decl, c₂, h₂⟩, read, finished⟩ := bind_eq_ok returned
        cases finished
        exact .nominal noClass noInterface known read
      next => cases returned

theorem TypeDecl.ReadAs.read {q : Qualifiers} {start : Location} {c d : Cursor} {v : TypeDecl}
    (readAs : ReadAs q start c v d) : ∃ h, TypeDecl.readRest q start c = .ok ⟨v, d, h⟩ := by
  rw [TypeDecl.readRest]
  cases readAs with
  | classDecl heads bodyRead =>
    obtain ⟨t, c₁, c₂, c₃, c₄, c₅, h₁, h₂, h₃, h₄, h₅, h₆, word, named, listed, extended, implemented,
      permitted⟩ := heads
    rw [word]
    exact ⟨by omega, bind_of_ok named (bind_of_ok listed (bind_of_ok extended (bind_of_ok implemented
      (bind_of_ok permitted (bind_of_ok (mapError_of_ok bodyRead) rfl)))))⟩
  | interfaceDecl heads bodyRead =>
    obtain ⟨t, c₁, c₂, c₃, c₄, h₁, h₂, h₃, h₄, h₅, noClass, word, named, listed, extended,
      permitted⟩ := heads
    rw [noClass]
    dsimp only
    rw [word]
    exact ⟨by omega, bind_of_ok named (bind_of_ok listed (bind_of_ok extended
      (bind_of_ok permitted (bind_of_ok (mapError_of_ok bodyRead) rfl))))⟩
  | nominal noClass noInterface known read =>
    rw [noClass]
    dsimp only
    rw [noInterface]
    dsimp only
    rw [known]
    exact ⟨by omega, bind_of_ok read rfl⟩

/-- The members from a place in a body up to its closing brace, in their order. -/
inductive BodyMember.Listed : Cursor → List BodyMember → Cursor → Prop where
  | closed {c d : Cursor} {t : Token} {h : d.size < c.size} :
      c.accept? .rightBrace = some ⟨t, d, h⟩ → Listed c [] d
  | semicolon {c c₁ d : Cursor} {t : Token} {h₁ : c₁.size < c.size} {parts : List BodyMember} :
      c.accept? .rightBrace = none → c.accept? .semicolon = some ⟨t, c₁, h₁⟩ → Listed c₁ parts d →
      Listed c parts d
  | more {c c₁ d : Cursor} {h₁ : c₁.size < c.size} {read parts : List BodyMember} :
      c.accept? .rightBrace = none → c.accept? .semicolon = none →
      BodyMember.read c = .ok ⟨read, c₁, h₁⟩ → Listed c₁ parts d → Listed c (read ++ parts) d

theorem BodyMember.Listed.size_lt {c d : Cursor} {parts : List BodyMember}
    (listed : Listed c parts d) : d.size < c.size := by
  induction listed with
  | @closed c d t h => exact h
  | semicolon | more => omega

theorem BodyMember.listed_of_readAll {origin c d : Cursor} {within : c.size < origin.size}
    {read v : List BodyMember} {h : d.size < origin.size}
    (returned : readAll origin c within read = .ok ⟨v, d, h⟩) :
    ∃ parts, v = read.reverse ++ parts ∧ Listed c parts d := by
  rw [readAll] at returned
  split at returned
  next t c₁ h₁ found =>
    cases returned
    exact ⟨[], by simp, .closed found⟩
  next notClosed =>
    split at returned
    next => cases returned
    next =>
      split at returned
      next t c₁ h₁ found =>
        obtain ⟨parts, same, listed⟩ := listed_of_readAll returned
        exact ⟨parts, same, .semicolon notClosed found listed⟩
      next notEnded =>
        obtain ⟨⟨found, c₁, h₁⟩, memberRead, returned⟩ := bind_eq_ok returned
        obtain ⟨parts, same, listed⟩ := listed_of_readAll returned
        refine ⟨found ++ parts, ?_, .more notClosed notEnded memberRead listed⟩
        rw [same, List.reverse_append, List.reverse_reverse, List.append_assoc]
termination_by c.size

theorem BodyMember.Listed.readAll {c d : Cursor} {parts : List BodyMember} (listed : Listed c parts d)
    {origin : Cursor} (within : c.size < origin.size) (read : List BodyMember) :
    ∃ h, BodyMember.readAll origin c within read = .ok ⟨read.reverse ++ parts, d, h⟩ := by
  induction listed generalizing read with
  | closed found =>
    rw [BodyMember.readAll, found]
    exact ⟨by omega, by simp⟩
  | @semicolon c c₁ d t h₁ parts notClosed found _ ih =>
    have more : c.ahead.isEmpty = false := Cursor.isEmpty_of_size_lt h₁
    obtain ⟨h, later⟩ := ih (by omega) read
    rw [BodyMember.readAll, notClosed]
    simp only [more, found]
    exact ⟨h, later⟩
  | @more c c₁ d h₁ found parts notClosed notEnded memberRead _ ih =>
    have more : c.ahead.isEmpty = false := Cursor.isEmpty_of_size_lt h₁
    obtain ⟨h, later⟩ := ih (by omega) (found.reverse ++ read)
    rw [BodyMember.readAll, notClosed]
    simp only [more, notEnded]
    refine ⟨h, bind_of_ok memberRead ?_⟩
    rw [List.reverse_append, List.reverse_reverse, List.append_assoc] at later
    exact later

/-- A body is read exactly when its members are listed between its braces. -/
theorem BodyMember.readBody_eq_ok_iff {c d : Cursor} {parts : List BodyMember} :
    (∃ h, readBody c = .ok ⟨parts, d, h⟩) ↔
      ∃ t c₁ h₁, c.expect .leftBrace "'\x7b' to open class body" = .ok ⟨t, c₁, h₁⟩ ∧
        Listed c₁ parts d := by
  constructor
  · rintro ⟨h, returned⟩
    rw [readBody] at returned
    obtain ⟨⟨t, c₁, h₁⟩, opened, returned⟩ := bind_eq_ok returned
    obtain ⟨parts, rfl, listed⟩ := listed_of_readAll returned
    exact ⟨t, c₁, h₁, opened, listed⟩
  · rintro ⟨t, c₁, h₁, opened, listed⟩
    obtain ⟨h, returned⟩ := listed.readAll h₁ []
    rw [readBody]
    exact ⟨h, bind_of_ok opened returned⟩

/-! ### What a unit starts with -/

/-- How the declaration of a package is read, if there is one. -/
inductive PackageDecl.ReadAs (c : Cursor) : Option PackageDecl → Cursor → Prop where
  | missing : c.accept? .packageWord = none → ReadAs c none c
  | declared {word semicolon : Token} {name : String} {c₁ c₂ d : Cursor} {h₁ : c₁.size < c.size}
      {h₂ : c₂.size < c₁.size} {h₃ : d.size < c₂.size} :
      c.accept? .packageWord = some ⟨word, c₁, h₁⟩ → c₁.dottedName = .ok ⟨name, c₂, h₂⟩ →
      c₂.expect .semicolon "';' after package name" = .ok ⟨semicolon, d, h₃⟩ →
      ReadAs c (some ⟨name, ⟨c.location, d.lastStop⟩⟩) d

theorem PackageDecl.read?_eq_ok_iff {c d : Cursor} {v : Option PackageDecl} :
    (∃ h, read? c = .ok ⟨v, d, h⟩) ↔ ReadAs c v d := by
  constructor
  · rintro ⟨h, returned⟩
    rw [read?] at returned
    split at returned
    next missing =>
      cases returned
      exact .missing missing
    next word c₁ h₁ found =>
      obtain ⟨⟨name, c₂, h₂⟩, named, returned⟩ := bind_eq_ok returned
      obtain ⟨⟨semicolon, c₃, h₃⟩, ended, finished⟩ := bind_eq_ok returned
      cases finished
      exact .declared found named ended
  · intro readAs
    rw [read?]
    cases readAs with
    | missing missing =>
      rw [missing]
      exact ⟨c.size_le, rfl⟩
    | declared found named ended =>
      rw [found]
      exact ⟨by omega, bind_of_ok named (bind_of_ok ended rfl)⟩

/-- What stands behind `import` and, perhaps, `static`. -/
def ImportDecl.readTarget (origin : Cursor) (start : Location) (isStatic : Bool) (c : Cursor)
    (within : c.size ≤ origin.size) : Reading ImportDecl origin := do
  let ⟨name, c₂, h₂⟩ ← c.dottedName
  let ⟨star, c₃, h₃⟩ ← c₂.clause .dot fun d _ => d.expect .star "'*' after '.' in import"
  let ⟨_, c₄, h₄⟩ ← c₃.expect .semicolon "';' after import"
  have named := Cursor.lt_of_le_lt within h₂
  have starred := Cursor.lt_of_lt_le named h₃
  return ⟨⟨name, isStatic, star.isSome, ⟨start, c₄.lastStop⟩⟩, c₄, Cursor.lt_of_lt_lt starred h₄⟩

theorem ImportDecl.readRest_eq (start : Location) (c : Cursor) : readRest start c =
    (let ⟨isStatic, c₁, h₁⟩ := c.optionally (.modifier .staticMember)
    readTarget c start isStatic c₁ h₁) := rfl

/-- How an import is read behind its keyword. -/
inductive ImportDecl.ReadAs (start : Location) (c : Cursor) : ImportDecl → Cursor → Prop where
  | target {isStatic : Bool} {name : String} {star : Option Token} {sign : Token}
      {c₁ c₂ c₃ d : Cursor} {h₂ : c₂.size < c₁.size} {h₃ : c₃.size ≤ c₂.size} {h₄ : d.size < c₃.size} :
      c.MayPass (.modifier .staticMember) isStatic c₁ → c₁.dottedName = .ok ⟨name, c₂, h₂⟩ →
      (c₂.clause .dot fun d _ => d.expect .star "'*' after '.' in import") = .ok ⟨star, c₃, h₃⟩ →
      c₃.expect .semicolon "';' after import" = .ok ⟨sign, d, h₄⟩ →
      ReadAs start c ⟨name, isStatic, star.isSome, ⟨start, d.lastStop⟩⟩ d

theorem ImportDecl.readRest_eq_ok_iff {start : Location} {c d : Cursor} {decl : ImportDecl} :
    (∃ h, readRest start c = .ok ⟨decl, d, h⟩) ↔ ReadAs start c decl d := by
  constructor
  · rintro ⟨h, returned⟩
    rw [readRest_eq] at returned
    obtain ⟨⟨name, c₂, h₂⟩, named, returned⟩ := bind_eq_ok returned
    obtain ⟨⟨star, c₃, h₃⟩, starred, returned⟩ := bind_eq_ok returned
    obtain ⟨⟨sign, c₄, h₄⟩, ended, finished⟩ := bind_eq_ok returned
    cases finished
    exact .target (c.mayPass_optionally _) named starred ended
  · rintro ⟨mayPass, named, starred, ended⟩
    have size := mayPass.size_le
    obtain ⟨h₁, marked⟩ := mayPass.optionally
    rw [readRest_eq]
    simp only [marked]
    exact ⟨by omega, bind_of_ok named (bind_of_ok starred (bind_of_ok ended rfl))⟩

/-- The imports from a place on, in their order. -/
inductive ImportDecl.Listed : Cursor → List ImportDecl → Cursor → Prop where
  | ended {c : Cursor} : c.accept? .importWord = none → Listed c [] c
  | more {c c₁ c₂ d : Cursor} {word : Token} {h₁ : c₁.size < c.size} {h₂ : c₂.size < c₁.size}
      {decl : ImportDecl} {decls : List ImportDecl} :
      c.accept? .importWord = some ⟨word, c₁, h₁⟩ → readRest c.location c₁ = .ok ⟨decl, c₂, h₂⟩ →
      Listed c₂ decls d → Listed c (decl :: decls) d

theorem ImportDecl.Listed.size_le {c d : Cursor} {decls : List ImportDecl}
    (listed : Listed c decls d) : d.size ≤ c.size := by
  induction listed with
  | ended => exact Nat.le_refl _
  | more => omega

theorem ImportDecl.listed_of_readFrom {origin c d : Cursor} {within : c.size ≤ origin.size}
    {read v : List ImportDecl} {h : d.size ≤ origin.size}
    (returned : readFrom origin c within read = .ok ⟨v, d, h⟩) :
    ∃ decls, v = read.reverse ++ decls ∧ Listed c decls d := by
  rw [readFrom] at returned
  split at returned
  next missing =>
    cases returned
    exact ⟨[], by simp, .ended missing⟩
  next word c₁ h₁ found =>
    obtain ⟨⟨decl, c₂, h₂⟩, declared, returned⟩ := bind_eq_ok returned
    obtain ⟨decls, same, listed⟩ := listed_of_readFrom returned
    exact ⟨decl :: decls, by simp [same], .more found declared listed⟩
termination_by c.size

theorem ImportDecl.Listed.readFrom {c d : Cursor} {decls : List ImportDecl} (listed : Listed c decls d)
    {origin : Cursor} (within : c.size ≤ origin.size) (read : List ImportDecl) :
    ∃ h, ImportDecl.readFrom origin c within read = .ok ⟨read.reverse ++ decls, d, h⟩ := by
  induction listed generalizing read with
  | ended missing =>
    rw [ImportDecl.readFrom, missing, List.append_nil]
    exact ⟨within, rfl⟩
  | @more c c₁ c₂ d word h₁ h₂ decl decls found declared _ ih =>
    obtain ⟨h, later⟩ := ih (by omega) (decl :: read)
    rw [ImportDecl.readFrom, found]
    rw [List.reverse_cons, ← List.append_cons] at later
    exact ⟨h, bind_of_ok declared later⟩

theorem ImportDecl.readAll_eq_ok_iff {c d : Cursor} {decls : List ImportDecl} :
    (∃ h, readAll c = .ok ⟨decls, d, h⟩) ↔ Listed c decls d := by
  constructor
  · rintro ⟨h, returned⟩
    obtain ⟨decls, rfl, listed⟩ := listed_of_readFrom returned
    exact listed
  · intro listed
    exact listed.readFrom c.size_le []

/-- A unit starts with its package, and its imports follow. -/
theorem Preamble.read_eq_ok_iff {c d : Cursor} {package : Option PackageDecl}
    {imports : List ImportDecl} :
    (∃ h, read c = .ok ⟨⟨package, imports⟩, d, h⟩) ↔
      ∃ c₁, PackageDecl.ReadAs c package c₁ ∧ ImportDecl.Listed c₁ imports d := by
  constructor
  · rintro ⟨h, returned⟩
    obtain ⟨⟨package, c₁, h₁⟩, packaged, returned⟩ := bind_eq_ok returned
    obtain ⟨⟨imports, c₂, h₂⟩, imported, finished⟩ := bind_eq_ok returned
    cases finished
    exact ⟨c₁, PackageDecl.read?_eq_ok_iff.mp ⟨h₁, packaged⟩,
      ImportDecl.readAll_eq_ok_iff.mp ⟨h₂, imported⟩⟩
  · rintro ⟨c₁, readAs, listed⟩
    obtain ⟨h₁, packaged⟩ := PackageDecl.read?_eq_ok_iff.mpr readAs
    obtain ⟨h₂, imported⟩ := ImportDecl.readAll_eq_ok_iff.mpr listed
    exact ⟨Nat.le_trans h₂ h₁, bind_of_ok packaged (bind_of_ok imported rfl)⟩

theorem Preamble.read_of_nextKind {c : Cursor} (notPackage : c.nextKind ≠ some .packageWord)
    (notImport : c.nextKind ≠ some .importWord) :
    Preamble.read c = .ok ⟨⟨none, []⟩, c, c.size_le⟩ := by
  obtain ⟨_, read⟩ := Preamble.read_eq_ok_iff.mpr ⟨c, .missing (Cursor.accept?_eq_none notPackage),
    .ended (Cursor.accept?_eq_none notImport)⟩
  exact read

/-! ### Units -/

/-- The types from a place in a source up to its end, in their order. -/
inductive TypeDecl.Listed : Cursor → List TypeDecl → Cursor → Prop where
  | ended {c : Cursor} : c.ahead.isEmpty = true → Listed c [] c
  | semicolon {c c₁ d : Cursor} {t : Token} {h₁ : c₁.size < c.size} {types : List TypeDecl} :
      c.accept? .semicolon = some ⟨t, c₁, h₁⟩ → Listed c₁ types d → Listed c types d
  | more {c c₁ d : Cursor} {h₁ : c₁.size < c.size} {decl : TypeDecl} {types : List TypeDecl} :
      c.accept? .semicolon = none → TypeDecl.read c = .ok ⟨decl, c₁, h₁⟩ → Listed c₁ types d →
      Listed c (decl :: types) d

namespace TypeDecl

theorem listed_of_readAll {c d : Cursor} {read types : List TypeDecl}
    (returned : readAll c read = (types, .ok d)) :
    ∃ parts, types = read.reverse ++ parts ∧ Listed c parts d := by
  rw [readAll] at returned
  split at returned
  next ended =>
    cases returned
    exact ⟨[], by simp, .ended ended⟩
  next =>
    split at returned
    next t c₁ h₁ found =>
      obtain ⟨parts, same, listed⟩ := listed_of_readAll returned
      exact ⟨parts, same, .semicolon found listed⟩
    next notEnded =>
      split at returned
      next decl c₁ h₁ declRead =>
        obtain ⟨parts, same, listed⟩ := listed_of_readAll returned
        exact ⟨decl :: parts, by simp [same], .more notEnded declRead listed⟩
      next => cases returned
termination_by c.size

theorem Listed.readAll {c d : Cursor} {parts : List TypeDecl} (listed : Listed c parts d)
    (read : List TypeDecl) : TypeDecl.readAll c read = (read.reverse ++ parts, .ok d) := by
  induction listed generalizing read with
  | ended ended => rw [TypeDecl.readAll, if_pos ended, List.append_nil]
  | @semicolon c c₁ d t h₁ types found _ ih =>
    rw [TypeDecl.readAll, Cursor.isEmpty_of_size_lt h₁]
    simp only [found]
    exact ih read
  | @more c c₁ d h₁ decl types notEnded declRead _ ih =>
    rw [TypeDecl.readAll, Cursor.isEmpty_of_size_lt h₁]
    simp only [notEnded, declRead]
    rw [List.append_cons, ← List.reverse_cons]
    exact ih (decl :: read)

end TypeDecl

namespace CompilationUnit

/-- How a unit is read: its preamble and then its types up to the end. -/
def ReadAs (c : Cursor) (unit : CompilationUnit) (d : Cursor) : Prop :=
  ∃ preamble c₁ h₁ types, Preamble.read c = .ok ⟨preamble, c₁, h₁⟩ ∧ TypeDecl.Listed c₁ types d ∧
    unit = ⟨preamble.package, preamble.imports, types, ⟨c.location, d.lastStop⟩⟩

theorem ofTokens_eq_ok_iff {tokens : List Token} {unit : CompilationUnit} :
    (ofTokens tokens).2 = .ok unit ↔ ∃ d, ReadAs (Cursor.start tokens) unit d := by
  constructor
  · intro returned
    rw [ofTokens] at returned
    split at returned
    next => cases returned
    next preamble c₁ h₁ preambleRead =>
      split at returned
      next => cases returned
      next types d typesRead =>
        cases returned
        obtain ⟨_, rfl, listed⟩ := TypeDecl.listed_of_readAll typesRead
        exact ⟨d, preamble, c₁, h₁, _, preambleRead, listed, rfl⟩
  · rintro ⟨d, preamble, c₁, h₁, types, preambleRead, listed, rfl⟩
    simp only [ofTokens, preambleRead, listed.readAll [], List.reverse_nil, List.nil_append]

end CompilationUnit

end TestDouble
