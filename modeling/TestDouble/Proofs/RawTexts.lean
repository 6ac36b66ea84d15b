import TestDouble.Proofs.BlockTokens
import TestDouble.Proofs.DeclarationInverse
import TestDouble.Proofs.Exchange
import TestDouble.Proofs.PieceSlices

/-!
# What is kept as source text

Statements, initializers of fields and arguments of annotations are kept as they are written. Each of
them is taken from a run of the tokens that its declaration is read from, and its text is taken apart
into these tokens again.
-/

namespace TestDouble

/-! ### Fragments of blocks -/

mutual

theorem Block.collect_eq : (block : Block) → (collected : List Fragment) →
    block.collect collected = block.collect [] ++ collected
  | ⟨statements, _⟩, collected => by
    rw [Block.collect, Block.collect]
    exact BodyStatement.collectAll_eq statements collected

theorem BodyStatement.collect_eq : (statement : BodyStatement) → (collected : List Fragment) →
    statement.collect collected = statement.collect [] ++ collected
  | .block block, collected => by
    rw [BodyStatement.collect, BodyStatement.collect]
    exact block.collect_eq collected
  | .fragment f, collected => by
    rw [BodyStatement.collect, BodyStatement.collect]
    rfl
  | .empty, collected => by
    rw [BodyStatement.collect, BodyStatement.collect]
    rfl

theorem BodyStatement.collectAll_eq : (statements : List BodyStatement) →
    (collected : List Fragment) → BodyStatement.collectAll statements collected =
      BodyStatement.collectAll statements [] ++ collected
  | [], collected => by
    rw [BodyStatement.collectAll, BodyStatement.collectAll]
    rfl
  | statement :: rest, collected => by
    rw [BodyStatement.collectAll, BodyStatement.collectAll,
      BodyStatement.collectAll_eq rest (statement.collect collected),
      BodyStatement.collectAll_eq rest (statement.collect []), statement.collect_eq collected,
      List.append_assoc]

end

namespace BodyStatement

/-- The fragments of several statements in order, those of nested blocks in their place. -/
def allFragments (statements : List BodyStatement) : List Fragment := (collectAll statements []).reverse

@[simp] theorem allFragments_nil : allFragments [] = [] := by
  rw [allFragments, collectAll]
  rfl

theorem allFragments_cons (statement : BodyStatement) (rest : List BodyStatement) :
    allFragments (statement :: rest) = (statement.collect []).reverse ++ allFragments rest := by
  rw [allFragments, collectAll, collectAll_eq, List.reverse_append]
  rfl

@[simp] theorem allFragments_empty (rest : List BodyStatement) :
    allFragments (.empty :: rest) = allFragments rest := by
  rw [allFragments_cons, collect]
  rfl

@[simp] theorem allFragments_fragment (f : Fragment) (rest : List BodyStatement) :
    allFragments (.fragment f :: rest) = f :: allFragments rest := by
  rw [allFragments_cons, collect]
  rfl

@[simp] theorem allFragments_block (block : Block) (rest : List BodyStatement) :
    allFragments (.block block :: rest) = block.fragments ++ allFragments rest := by
  rw [allFragments_cons, collect]
  rfl

end BodyStatement

theorem Block.fragments_eq (block : Block) :
    block.fragments = BodyStatement.allFragments block.statements := by
  obtain ⟨statements, span⟩ := block
  rw [Block.fragments, Block.collect, BodyStatement.allFragments]

/-! ### Raw texts of declarations -/

/-- What is kept as source text: a statement, an initializer, or the arguments of an annotation. -/
inductive Raw where
  | statement (f : Fragment)
  | initializer (f : Fragment)
  | arguments (a : Annotation)

/-- The source text is taken from a run of the tokens. That of a statement would be read as a statement
again. -/
def Raw.TakenFrom (tokens : List Token) : Raw → Prop
  | .statement f => ∃ first more, first :: more <:+: tokens ∧ f = Fragment.ofTokens first more ∧
      Sentence ((first :: more).map Token.lexeme)
  | .initializer f => ∃ first more, first :: more <:+: tokens ∧ f = Fragment.ofTokens first more
  | .arguments a => a.TakenFrom tokens

theorem Raw.TakenFrom.widen {taken wider : List Token} {x : Raw} (from_ : x.TakenFrom taken)
    (within : taken <:+: wider) : x.TakenFrom wider := by
  cases x with
  | statement f | initializer f =>
    obtain ⟨first, more, run, cut⟩ := from_
    exact ⟨first, more, run.trans within, cut⟩
  | arguments a => exact Annotation.TakenFrom.widen from_ within

def Parameter.raws (p : Parameter) : List Raw := p.annotations.map .arguments

def Block.raws (block : Block) : List Raw := block.fragments.map .statement

def Declarator.raws (d : Declarator) : List Raw := d.initializer.toList.map .initializer

mutual

/-- The raw texts of a declaration. -/
def TypeDecl.raws : TypeDecl → List Raw
  | .classDecl ⟨_, annotations, _, _, _, _, body, _⟩ =>
    annotations.map .arguments ++ BodyMember.allRaws body
  | .interfaceDecl ⟨_, annotations, _, _, _, body, _⟩ =>
    annotations.map .arguments ++ BodyMember.allRaws body
  | .nominal decl => decl.annotations.map .arguments

def BodyMember.raws : BodyMember → List Raw
  | .field f => f.annotations.map .arguments ++ f.initializer.toList.map .initializer
  | .method m =>
    m.annotations.map .arguments ++ (m.parameters.flatMap Parameter.raws ++
      m.body.toList.flatMap Block.raws)
  | .constructor c =>
    c.annotations.map .arguments ++ (c.parameters.flatMap Parameter.raws ++ c.body.raws)
  | .initializer i => i.body.raws
  | .type decl => decl.raws

def BodyMember.allRaws : List BodyMember → List Raw
  | [] => []
  | part :: rest => part.raws ++ BodyMember.allRaws rest

end

/-- The raw texts of a unit. -/
def CompilationUnit.raws (unit : CompilationUnit) : List Raw := unit.types.flatMap TypeDecl.raws

theorem TypeDecl.raws_classDecl (decl : ClassDecl) : (TypeDecl.classDecl decl).raws =
    decl.annotations.map .arguments ++ BodyMember.allRaws decl.body := by
  obtain ⟨_, annotations, _, _, _, _, body, _⟩ := decl
  rw [TypeDecl.raws]

theorem BodyMember.allRaws_eq_flatMap (parts : List BodyMember) :
    allRaws parts = parts.flatMap raws := by
  induction parts with
  | nil => rfl
  | cons part rest ih => rw [allRaws, ih, List.flatMap_cons]

theorem BodyMember.raws_inInterface (part : BodyMember) : part.inInterface.raws = part.raws := by
  cases part <;> simp [inInterface, raws]

/-! ### Reading raw texts -/

/-- The second cursor stands behind tokens that come next at the first, and the raw texts are taken
from these tokens. -/
def Cursor.Takes (c : Cursor) (raws : List Raw) (d : Cursor) : Prop :=
  ∃ taken, c.Passes taken d ∧ ∀ x ∈ raws, x.TakenFrom taken

namespace Cursor

variable {a b c d : Cursor} {xs ys : List Raw}

theorem Leads.takes (leads : a.Leads b) : a.Takes [] b := by
  obtain ⟨taken, passes⟩ := leads
  exact ⟨taken, passes, nofun⟩

theorem Takes.mono (takes : a.Takes xs b) (fewer : ys ⊆ xs) : a.Takes ys b := by
  obtain ⟨taken, passes, each⟩ := takes
  exact ⟨taken, passes, fun x member => each x (fewer member)⟩

theorem Takes.trans (first : a.Takes xs b) (second : b.Takes ys c) : a.Takes (xs ++ ys) c := by
  obtain ⟨taken, passes, each⟩ := first
  obtain ⟨others, passesOn, eachOther⟩ := second
  refine ⟨taken ++ others, passes.trans passesOn, ?_⟩
  intro x member
  rcases List.mem_append.mp member with here | later
  · exact (each x here).widen (List.prefix_append ..).isInfix
  · exact (eachOther x later).widen (List.suffix_append ..).isInfix

theorem Leads.then_takes (leads : a.Leads b) (takes : b.Takes xs c) : a.Takes xs c :=
  leads.takes.trans takes

theorem Takes.then_leads (takes : a.Takes xs b) (leads : b.Leads c) : a.Takes xs c :=
  (takes.trans leads.takes).mono (by simp)

/-- What is taken on the way to a cursor is taken on the way to a later one. -/
theorem Takes.extend (takes : a.Takes xs b) (leads : a.Leads c) (later : c.size ≤ b.size) :
    a.Takes xs c := by
  obtain ⟨taken, passes, each⟩ := takes
  obtain ⟨all, passesAll⟩ := leads
  have length : taken.length ≤ all.length := by
    have before := passes.size_eq
    have behind := passesAll.size_eq
    omega
  have starts : taken <+: all := by
    have first : taken <+: a.ahead := ⟨_, passes.ahead.symm⟩
    have second : all <+: a.ahead := ⟨_, passesAll.ahead.symm⟩
    exact List.prefix_of_prefix_length_le first second length
  exact ⟨all, passesAll, fun x member => (each x member).widen starts.isInfix⟩

/-- A list is taken from the tokens of its items. -/
theorem sepBy_takes {α : Type} (raws : α → List Raw) {separator : Kind}
    {item : (c' : Cursor) → c'.size ≤ c.size → Reading α c'}
    (each : ∀ c' within r, item c' within = .ok r → c'.Takes (raws r.value) r.cursor)
    {r : Consumed c (List α)} (returned : c.sepBy separator item = .ok r) :
    c.Takes (r.value.flatMap raws) r.cursor := by
  obtain ⟨taken, passes, separated⟩ :=
    sepBy_eq_ok (fun ts value => ∀ x ∈ raws value, x.TakenFrom ts) each returned
  refine ⟨taken, passes, ?_⟩
  clear passes
  generalize r.value = values at separated
  induction separated with
  | one here => simpa using here
  | @more taken rest t value items here _ _ ih =>
    intro x member
    rw [List.flatMap_cons, List.mem_append] at member
    rcases member with first | later
    · exact (here x first).widen (List.prefix_append ..).isInfix
    · have behind : rest <:+ taken ++ t :: rest := ⟨taken ++ [t], by simp⟩
      exact (ih x later).widen behind.isInfix

theorem clause_takes {α : Type} (raws : α → List Raw) {kind : Kind}
    {item : (c' : Cursor) → c'.size ≤ c.size → Reading α c'}
    (each : ∀ c' within r, item c' within = .ok r → c'.Takes (raws r.value) r.cursor)
    {r : Reached c (Option α)} (returned : c.clause kind item = .ok r) :
    c.Takes (r.value.toList.flatMap raws) r.cursor := by
  obtain ⟨taken, passes, found⟩ :=
    clause_eq_ok (fun ts value => ∀ x ∈ raws value, x.TakenFrom ts) each returned
  refine ⟨taken, passes, ?_⟩
  rcases found with ⟨none, -⟩ | ⟨t, rest, value, some, rfl, -, here⟩
  · simp [none]
  · intro x member
    rw [some] at member
    exact (here x (by simpa using member)).widen (List.suffix_cons t rest).isInfix

end Cursor

theorem Fragment.readValue_takes {c : Cursor} {what : String} {stops : List Token → Bool}
    {r : Consumed c Fragment} (returned : readValue c what stops = .ok r) :
    c.Takes [.initializer r.value] r.cursor := by
  obtain ⟨first, more, passes, cut, -⟩ := readValue_eq_ok returned
  refine ⟨first :: more, passes, ?_⟩
  simpa using ⟨first, more, List.infix_refl _, cut⟩

/-- The tokens of a statement are read as a statement wherever a semicolon follows. -/
theorem Fragment.sentence_of_statementLength? {c : Cursor} {first : Token} {more rest : List Token}
    {ended : Bool} (ahead : c.ahead = first :: more ++ rest) (stands : c.AtStatement)
    (length : statementLength? (c.seesWord "do") c.ahead 0 0 = some (more.length + 1, ended)) :
    Sentence ((first :: more).map Token.lexeme) := by
  obtain ⟨kind, next, plain⟩ := stands
  rw [Cursor.nextKind, ahead] at next
  obtain rfl : first.kind = kind := Option.some.inj next
  refine ⟨⟨first.lexeme, more.map Token.lexeme, rfl, plain⟩, ?_⟩
  intro d taken semicolon after aheadAgain same isSemicolon
  have afterDo : d.seesWord "do" = c.seesWord "do" := by
    obtain ⟨t, others, rfl, lexeme, -⟩ := List.map_eq_cons_iff.mp same
    have sameKind : t.kind = first.kind := congrArg Lexeme.kind lexeme
    have sameText : t.text = first.text := congrArg Lexeme.text lexeme
    rw [Cursor.seesWord, Cursor.seesWord, ahead, aheadAgain]
    simp [sameKind, sameText]
  rw [ahead, ← Nat.zero_add (more.length + 1)] at length
  rw [aheadAgain, afterDo, statementLength?_before_semicolon length same isSemicolon, Nat.zero_add]

theorem Fragment.readStatement_takes {c : Cursor} {r : Consumed c Fragment} (stands : c.AtStatement)
    (returned : readStatement c = .ok r) : c.Takes [.statement r.value] r.cursor := by
  obtain ⟨first, more, dropped, ended, passes, cut, length, -⟩ := readStatement_eq_ok returned
  have ahead : c.ahead = first :: more ++ (dropped ++ r.cursor.ahead) := by
    rw [passes.ahead, List.append_assoc]
  refine ⟨first :: more ++ dropped, passes, ?_⟩
  rw [List.forall_mem_singleton]
  exact ⟨first, more, (List.prefix_append (first :: more) dropped).isInfix, cut,
    sentence_of_statementLength? ahead stands length⟩

/-- Statements that are cut from tokens are taken from them, those of nested blocks included. -/
theorem Block.CutsInto.takes {c d : Cursor} {statements : List BodyStatement}
    (cuts : CutsInto c statements d) :
    c.Takes ((BodyStatement.allFragments statements).map .statement) d := by
  induction cuts with
  | closed passes _ => exact Cursor.Leads.takes ⟨_, passes⟩
  | empty passes _ _ ih => simpa using Cursor.Leads.then_takes ⟨_, passes⟩ ih
  | block passes _ _ _ ihInner ih =>
    simpa [Block.fragments_eq] using Cursor.Leads.then_takes ⟨_, passes⟩ (ihInner.trans ih)
  | fragment stands statement _ ih =>
    simpa using (Fragment.readStatement_takes stands statement).trans ih

theorem Block.read_takes {c : Cursor} {r : Consumed c Block} (returned : Block.read c = .ok r) :
    c.Takes r.value.raws r.cursor := by
  obtain ⟨⟨opening, c₁, passes, -, cuts⟩, -⟩ := cuts_of_read returned
  rw [Block.raws, Block.fragments_eq]
  exact Cursor.Leads.then_takes ⟨_, passes⟩ cuts.takes

theorem Qualifiers.read_takes {c : Cursor} {r : Reached c Qualifiers}
    (returned : Qualifiers.read c = .ok r) :
    c.Takes (r.value.annotations.map .arguments) r.cursor := by
  obtain ⟨taken, passes, -, each⟩ := read_eq_ok returned
  refine ⟨taken, passes, ?_⟩
  intro x member
  obtain ⟨a, listed, rfl⟩ := List.mem_map.mp member
  exact each a listed

theorem Parameter.ReadAs.takes {c d : Cursor} {v : Option Parameter} (readAs : ReadAs c v d) :
    c.Takes (v.toList.flatMap Parameter.raws) d := by
  have leads : c.Leads d := (readAs.tells fun _ word => word).leads
  cases readAs with
  | receiver => exact leads.takes
  | @named q type variadic name n c₄ c₅ d h₅ h₆ typed =>
    -- All annotations that are kept stand before the type.
    obtain ⟨c₁, c₂, c₃, _, _, _, qualified, _, _, mayPass⟩ := typed
    have marked := mayPass.size_le
    have later : d.size ≤ c₁.size := by omega
    simpa [Parameter.raws] using (Qualifiers.read_takes qualified).extend leads later

theorem Parameter.readAll_takes {c : Cursor} {r : Consumed c (List Parameter)}
    (returned : Parameter.readAll c = .ok r) : c.Takes (r.value.flatMap Parameter.raws) r.cursor := by
  obtain ⟨⟨opening, c₁, h₁⟩, opened, returned⟩ := bind_eq_ok returned
  obtain ⟨⟨parameters, c₂, h₂⟩, listed, returned⟩ := bind_eq_ok returned
  obtain ⟨⟨closing, c₃, h₃⟩, closed, finished⟩ := bind_eq_ok returned
  cases finished
  have inner : c₁.Takes (parameters.flatMap Parameter.raws) c₂ := by
    split at listed
    next =>
      cases listed
      exact (Cursor.Leads.refl c₁).takes
    next =>
      obtain ⟨⟨found, c', h'⟩, separated, finished⟩ := bind_eq_ok listed
      cases finished
      have takes := Cursor.sepBy_takes (fun p => p.toList.flatMap Parameter.raws)
        (fun _ _ r read => (Parameter.read_eq_ok_iff.mp ⟨r.shorter, read⟩).takes) separated
      apply takes.mono
      intro x member
      simp only [List.mem_flatMap, List.mem_filterMap, id] at member ⊢
      obtain ⟨p, ⟨found, listed, rfl⟩, here⟩ := member
      exact ⟨some p, listed, p, by simp, here⟩
  exact (Cursor.expect_tells opened).leads.then_takes
    (inner.then_leads (Cursor.expect_tells closed).leads)

theorem Declarator.readRest_takes {name : String} {c : Cursor} {r : Reached c Declarator}
    (returned : Declarator.readRest name c = .ok r) : c.Takes r.value.raws r.cursor := by
  obtain ⟨⟨initializer, c₂, h₂⟩, assigned, finished⟩ := bind_eq_ok returned
  cases finished
  have takes := Cursor.clause_takes (fun f => [Raw.initializer f])
    (fun _ _ _ read => Fragment.readValue_takes read) assigned
  have counted : c.Leads c.dimensions.cursor := (Cursor.dimensions_tells c).leads
  apply (counted.then_takes takes).mono
  intro x member
  simpa [Declarator.raws, eq_comm] using member

theorem Declarator.readAll_takes {origin c : Cursor} {within : c.size ≤ origin.size} {name : String}
    {read : List Declarator} {r : Consumed origin (List Declarator)}
    (returned : Declarator.readAll origin c within name read = .ok r) :
    ∃ found, r.value = read.reverse ++ found ∧ c.Takes (found.flatMap Declarator.raws) r.cursor := by
  induction c, within, name, read using Declarator.readAll.induct origin with
  | case1 c within name read ih =>
    rw [Declarator.readAll] at returned
    obtain ⟨⟨declarator, c₁, h₁⟩, restRead, returned⟩ := bind_eq_ok returned
    have first := Declarator.readRest_takes restRead
    dsimp only at returned
    split at returned
    next comma c₂ h₂ accepted =>
      obtain ⟨⟨next, c₃, h₃⟩, named, returned⟩ := bind_eq_ok returned
      obtain ⟨found, same, takes⟩ := ih declarator c₁ h₁ c₂ h₂ next c₃ h₃ returned
      have leads := (Cursor.accept?_tells accepted).leads.trans (Cursor.identifier_tells named).leads
      refine ⟨declarator :: found, by simp [same], ?_⟩
      rw [List.flatMap_cons]
      exact first.trans (leads.then_takes takes)
    next =>
      obtain ⟨⟨semicolon, c₂, h₂⟩, closed, finished⟩ := bind_eq_ok returned
      cases finished
      refine ⟨[declarator], by simp, ?_⟩
      simpa using first.then_leads (Cursor.expect_tells closed).leads

theorem Method.readRest_takes {q : Qualifiers} {ps : List TypeParameter} {type : TypeRef}
    {name : String} {start : Location} {c : Cursor} {r : Consumed c Method}
    (returned : Method.readRest q ps type name start c = .ok r) :
    r.value.annotations = q.annotations ∧
      c.Takes (r.value.parameters.flatMap Parameter.raws ++ r.value.body.toList.flatMap Block.raws)
        r.cursor := by
  obtain ⟨⟨parameters, c₁, h₁⟩, listed, returned⟩ := bind_eq_ok returned
  obtain ⟨⟨exceptions, c₃, h₃⟩, thrown, returned⟩ := bind_eq_ok returned
  obtain ⟨⟨body, c₄, h₄⟩, bodyRead, finished⟩ := bind_eq_ok returned
  cases finished
  refine ⟨rfl, ?_⟩
  have leads : c₁.Leads c₃ := (Cursor.dimensions_tells c₁).leads.trans
    (TypeRef.readClause_tells (fun _ word => word) thrown).leads
  have inner : c₃.Takes (body.toList.flatMap Block.raws) c₄ := by
    split at bodyRead
    next =>
      obtain ⟨⟨block, c₅, h₅⟩, blockRead, finished⟩ := bind_eq_ok bodyRead
      cases finished
      simpa using Block.read_takes blockRead
    next =>
      obtain ⟨⟨_, c₅, h₅⟩, ended, finished⟩ := bind_eq_ok bodyRead
      cases finished
      exact (Cursor.expect_tells ended).leads.takes
  exact (Parameter.readAll_takes listed).trans (leads.then_takes inner)

theorem Constructor.readRest_takes {q : Qualifiers} {ps : List TypeParameter} {start : Location}
    {c : Cursor} {r : Consumed c Constructor}
    (returned : Constructor.readRest q ps start c = .ok r) :
    r.value.annotations = q.annotations ∧
      c.Takes (r.value.parameters.flatMap Parameter.raws ++ r.value.body.raws) r.cursor := by
  obtain ⟨⟨name, c₁, h₁⟩, named, returned⟩ := bind_eq_ok returned
  obtain ⟨⟨parameters, c₂, h₂⟩, listed, returned⟩ := bind_eq_ok returned
  obtain ⟨⟨exceptions, c₃, h₃⟩, thrown, returned⟩ := bind_eq_ok returned
  obtain ⟨⟨body, c₄, h₄⟩, bodyRead, finished⟩ := bind_eq_ok returned
  cases finished
  have takes := (Parameter.readAll_takes (mapError_eq_ok listed)).trans
    ((TypeRef.readClause_tells (fun _ word => word) thrown).leads.then_takes
      (Block.read_takes bodyRead))
  exact ⟨rfl, (Cursor.identifier_tells named).leads.then_takes takes⟩

theorem NominalDecl.readRest_takes {kind : NominalKind} {q : Qualifiers} {start : Location}
    {c : Cursor} {r : Consumed c NominalDecl} (returned : readRest kind q start c = .ok r) :
    r.value.annotations = q.annotations ∧ c.Leads r.cursor := by
  refine ⟨?_, (readRest_tells returned).leads⟩
  obtain ⟨⟨name, c₁, h₁⟩, named, returned⟩ := bind_eq_ok returned
  obtain ⟨⟨_, c₂, h₂⟩, passed, finished⟩ := bind_eq_ok returned
  cases finished
  rfl

theorem Cursor.Qualifies.takes {c d : Cursor} {q : Qualifiers} (qualifies : c.Qualifies q d) :
    c.Takes (q.annotations.map .arguments) d := by
  obtain ⟨h, qualified⟩ := qualifies.qualified
  exact Qualifiers.read_takes qualified

theorem Cursor.Names.takes {c d : Cursor} {q : Qualifiers} {ps : List TypeParameter} {type : TypeRef}
    {name : String} (names : c.Names q ps type name d) :
    c.Takes (q.annotations.map .arguments) d := by
  have leads := names.leads
  obtain ⟨c₁, c₂, c₃, h₂, h₃, h₄, qualifies, -⟩ := names
  exact qualifies.takes.extend leads (by omega)

theorem BodyMember.allRaws_one (part : BodyMember) : allRaws [part] = part.raws := by
  rw [allRaws, allRaws, List.append_nil]

theorem BodyMember.allRaws_append (parts more : List BodyMember) :
    allRaws (parts ++ more) = allRaws parts ++ allRaws more := by
  simp [allRaws_eq_flatMap]

mutual

/-- What a declaration keeps as source text belongs to its qualifiers or is taken behind them. -/
theorem TypeDecl.readRest_takes {q : Qualifiers} {start : Location} {c d : Cursor} {decl : TypeDecl}
    (read : Returns (TypeDecl.readRest q start) c decl d) :
    ∃ inner, c.Takes inner d ∧ decl.raws ⊆ q.annotations.map .arguments ++ inner := by
  obtain ⟨h, returned⟩ := read
  cases TypeDecl.readAs_of_readRest returned with
  | @classDecl name ps super is body c₆ _ h₇ heads bodyRead =>
    have shorter := heads.size_lt
    refine ⟨_, heads.leads.then_takes (BodyMember.readBody_takes ⟨h₇, bodyRead⟩), ?_⟩
    rw [TypeDecl.raws]
    exact List.Subset.refl _
  | @interfaceDecl name ps is body c₅ _ h₆ heads bodyRead =>
    have shorter := heads.size_lt
    refine ⟨_, heads.leads.then_takes (BodyMember.readBody_takes ⟨h₆, bodyRead⟩), ?_⟩
    have same : BodyMember.allRaws (body.map BodyMember.inInterface) = BodyMember.allRaws body := by
      simp [BodyMember.allRaws_eq_flatMap, List.flatMap_map, BodyMember.raws_inInterface]
    rw [TypeDecl.raws, same]
    exact List.Subset.refl _
  | nominal _ _ known read =>
    obtain ⟨annotations, leads⟩ := NominalDecl.readRest_takes read
    refine ⟨[], ((NominalDecl.kind?_tells known).leads.trans leads).takes, ?_⟩
    rw [TypeDecl.raws, annotations, List.append_nil]
    exact List.Subset.refl _
termination_by 4 * c.size

theorem BodyMember.readBody_takes {c d : Cursor} {parts : List BodyMember}
    (read : Returns BodyMember.readBody c parts d) : c.Takes (BodyMember.allRaws parts) d := by
  obtain ⟨t, c₁, h₁, opened, listed⟩ := BodyMember.readBody_eq_ok_iff.mp read
  exact (Cursor.expect_tells opened).leads.then_takes (BodyMember.Listed.takes listed)
termination_by 4 * c.size + 3

theorem BodyMember.Listed.takes {c d : Cursor} {parts : List BodyMember}
    (listed : BodyMember.Listed c parts d) : c.Takes (BodyMember.allRaws parts) d := by
  cases listed with
  | closed closing =>
    rw [BodyMember.allRaws]
    exact (Cursor.accept?_tells closing).leads.takes
  | semicolon _ ended rest =>
    exact (Cursor.accept?_tells ended).leads.then_takes (BodyMember.Listed.takes rest)
  | @more _ c₁ _ h₁ found parts _ _ read rest =>
    rw [BodyMember.allRaws_append]
    exact (BodyMember.read_takes ⟨h₁, read⟩).trans (BodyMember.Listed.takes rest)
termination_by 4 * c.size + 2

theorem BodyMember.read_takes {c d : Cursor} {parts : List BodyMember}
    (read : Returns BodyMember.read c parts d) : c.Takes (BodyMember.allRaws parts) d := by
  obtain ⟨h, returned⟩ := read
  cases BodyMember.readAs_of_read returned with
  | initializer _ read =>
    rw [BodyMember.allRaws_one, BodyMember.raws]
    exact Block.read_takes read
  | static _ _ expected read =>
    rw [BodyMember.allRaws_one, BodyMember.raws]
    exact (Cursor.expect_tells expected).leads.then_takes (Block.read_takes read)
  | @type q decl c₁ _ h₂ qualifies _ read =>
    obtain ⟨h₁, -⟩ := qualifies.qualified
    obtain ⟨inner, takes, fewer⟩ := TypeDecl.readRest_takes ⟨h₂, read⟩
    rw [BodyMember.allRaws_one, BodyMember.raws]
    exact (qualifies.takes.trans takes).mono fewer
  | constructor qualifies _ listed _ read =>
    obtain ⟨annotations, takes⟩ := Constructor.readRest_takes read
    have leads := (TypeParameter.readAll_tells (fun _ word => word) listed).leads
    rw [BodyMember.allRaws_one, BodyMember.raws, annotations]
    exact qualifies.takes.trans (leads.then_takes takes)
  | method names _ read =>
    obtain ⟨annotations, takes⟩ := Method.readRest_takes read
    rw [BodyMember.allRaws_one, BodyMember.raws, annotations]
    exact names.takes.trans takes
  | @fields q type name ds c₄ _ _ names _ read =>
    -- Every field of the declaration has the same annotations and an initializer of its own.
    obtain ⟨found, same, takes⟩ := Declarator.readAll_takes read
    obtain rfl : ds = found := same
    apply (names.takes.trans takes).mono
    intro x member
    rw [BodyMember.allRaws_eq_flatMap, List.mem_flatMap] at member
    obtain ⟨part, listed, here⟩ := member
    obtain ⟨declarator, inList, rfl⟩ := List.mem_map.mp listed
    rw [BodyMember.raws, List.mem_append] at here
    rcases here with shared | own
    · exact List.mem_append_left _ shared
    · exact List.mem_append_right _ (List.mem_flatMap.mpr ⟨declarator, inList, own⟩)
termination_by 4 * c.size + 1

end

theorem TypeDecl.read_takes {c d : Cursor} {decl : TypeDecl} {h : d.size < c.size}
    (returned : TypeDecl.read c = .ok ⟨decl, d, h⟩) : c.Takes decl.raws d := by
  obtain ⟨⟨q, c₁, h₁⟩, qualified, returned⟩ := bind_eq_ok returned
  obtain ⟨⟨decl, c₂, h₂⟩, read, finished⟩ := bind_eq_ok returned
  cases finished
  obtain ⟨inner, takes, fewer⟩ := TypeDecl.readRest_takes ⟨h₂, read⟩
  exact ((Qualifiers.read_takes qualified).trans takes).mono fewer

theorem TypeDecl.Listed.takes {c d : Cursor} {types : List TypeDecl} (listed : Listed c types d) :
    c.Takes (types.flatMap raws) d := by
  induction listed with
  | ended => exact (Cursor.Leads.refl _).takes
  | semicolon accepted _ ih => exact (Cursor.accept?_tells accepted).leads.then_takes ih
  | more _ read _ ih => exact (TypeDecl.read_takes read).trans ih

/-- What a unit keeps as source text is taken from runs of its tokens. -/
theorem CompilationUnit.takenFrom_of_ofTokens {tokens : List Token} {unit : CompilationUnit}
    (read : (ofTokens tokens).2 = .ok unit) : ∀ x ∈ unit.raws, x.TakenFrom tokens := by
  obtain ⟨d, preamble, c₁, h₁, types, preambleRead, listed, rfl⟩ := ofTokens_eq_ok_iff.mp read
  have leads : (Cursor.start tokens).Leads c₁ :=
    (Preamble.read_tells preambleRead).leads
  obtain ⟨taken, passes, each⟩ := leads.then_takes listed.takes
  have starts : taken <+: tokens := ⟨_, passes.ahead.symm⟩
  exact fun x member => (each x member).widen starts.isInfix

/-! ### Raw texts are read again -/

/-- The text is taken apart into the tokens of a run: into their texts in any case, and into their
kinds exactly when the last token is what it is whatever follows it. -/
def Token.ReadAgain (run : List Token) (text : String) : Prop :=
  ∃ found, ofSource text = .ok found ∧ found.map Token.text = run.map Token.text ∧
    (found.map lexeme = run.map lexeme ↔ ∀ last, run.getLast? = some last → last.lexeme.Settled)

/-- The raw text is taken from a run of the tokens, and its text is taken apart into this run. -/
def Raw.ReadAgain (tokens : List Token) : Raw → Prop
  | .statement f | .initializer f => ∃ first more, first :: more <:+: tokens ∧ f = Fragment.ofTokens first more ∧
      Token.ReadAgain (first :: more) f.text
  | .arguments a => ∃ own, own <:+: tokens ∧ own.head?.map Token.location = some a.span.start ∧
      own.getLast?.map Token.stop = some a.span.stop ∧
      ∀ argument ∈ a.arguments, ∃ run, run ≠ [] ∧ run <:+: own ∧ Token.ReadAgain run argument.text

theorem Token.readAgain_of_run {source : String} {tokens more : List Token} {first : Token}
    (lexed : ofSource source = .ok tokens) (run : first :: more <:+: tokens) :
    ReadAgain (first :: more) (Fragment.ofTokens first more).text := by
  obtain ⟨before, after, rfl⟩ := run
  rw [List.append_assoc] at lexed
  obtain ⟨found, again, lexemes⟩ := ofSource_slice lexed
  refine ⟨found, again, texts_of_lexemes lexemes, ?_⟩
  have last : ((first :: more).map lexeme).getLast? = some (more.getLast?.getD first).lexeme := by
    rw [List.getLast?_map, List.getLast?_cons, Option.map_some]
  rw [lexemes, modifyLast_eq_self_iff last, Lexeme.alone_eq_iff]
  simp [List.getLast?_cons]

theorem Raw.TakenFrom.readAgain {source : String} {tokens : List Token} {x : Raw}
    (lexed : Token.ofSource source = .ok tokens) (from_ : x.TakenFrom tokens) : x.ReadAgain tokens := by
  cases x with
  | statement f =>
    obtain ⟨first, more, run, rfl, -⟩ := from_
    exact ⟨first, more, run, rfl, Token.readAgain_of_run lexed run⟩
  | initializer f =>
    obtain ⟨first, more, run, rfl⟩ := from_
    exact ⟨first, more, run, rfl, Token.readAgain_of_run lexed run⟩
  | arguments a =>
    obtain ⟨own, within, start, stop, arguments⟩ := from_
    refine ⟨own, within, start, stop, fun argument member => ?_⟩
    obtain ⟨first, more, run, text⟩ := arguments argument member
    rw [text]
    exact ⟨first :: more, by simp, run, Token.readAgain_of_run lexed (run.trans within)⟩

/-- Any slice of a source between two of its pieces, what is skipped included, is taken apart into the
pieces of the slice: into their texts in any case, and into their kinds exactly when the last piece is
what it is whatever follows it. So are the texts of fragments and annotations in what is read from the
source. Without byte order marks every piece is what it is. -/
theorem Piece.slices_read_again {source : String} {tokens : List Token}
    (lexed : Token.ofSource source = .ok tokens) :
    (∀ before run after first last, ofSource source = before ++ (run ++ after) →
      run.head? = some first → run.getLast? = some last →
      ∃ text found, Text.Stands source first.location.offset last.stopOffset text ∧
        Token.ofSource text = .ok found ∧ (ofSource text).map Piece.text = run.map Piece.text ∧
        ((ofSource text).map bare = run.map bare ↔ last.Settled)) ∧
    (∀ p ∈ ofSource source, (ofSource p.text).map bare = [p.bare] ↔ p.Settled) ∧
    (∀ unit, (CompilationUnit.read source).outcome = .ok unit →
      ∀ x ∈ unit.raws, x.ReadAgain tokens) ∧
    ('\uFEFF' ∉ source.toList →
      (∀ p ∈ ofSource source, p.Settled) ∧ ∀ t ∈ tokens, t.lexeme.Settled) := by
  refine ⟨?_, ?_, ?_, ?_⟩
  · intro before run after first last cut starts stops
    obtain ⟨found, again⟩ := ofSource_of_run lexed cut
    exact ⟨_, found, stands_of_cut cut starts stops, again, texts_run lexed cut,
      bare_run_iff lexed cut stops⟩
  · intro p member
    obtain ⟨before, after, split⟩ := List.append_of_mem member
    have cut : ofSource source = before ++ ([p] ++ after) := split
    have alone : String.join ([p].map text) = p.text := by simp
    rw [← alone]
    exact bare_run_iff lexed cut rfl
  · intro unit read x member
    obtain ⟨found, types, lexedAgain, whole⟩ := CompilationUnit.read_eq_ok read
    obtain rfl : tokens = found := Except.ok.inj (lexed.symm.trans lexedAgain)
    have taken := CompilationUnit.takenFrom_of_ofTokens (congrArg Prod.snd whole)
    exact (taken x member).readAgain lexed
  · intro noMark
    exact ⟨fun p => settled_of_noMark lexed noMark,
      fun t => Token.free_of_ofSource lexed noMark⟩

/-- A source with an annotation, an initializer and a statement; a byte order mark stands behind a
reserved word. -/
private def markedSource : String :=
  "@A(x) class B \x7b int f = int\uFEFF; void m() \x7b g(); \x7d \x7d"

theorem Piece.slices_read_again_of_marked :
    ∃ tokens unit, Token.ofSource markedSource = .ok tokens ∧
      (CompilationUnit.read markedSource).outcome = .ok unit ∧ unit.raws.length = 3 ∧
      (∀ x ∈ unit.raws, x.ReadAgain tokens) ∧
      ∃ p ∈ ofSource markedSource, (ofSource p.text).map bare ≠ [p.bare] := by
  have signs : markedSource.toList = _ := String.toList_ofList
  have counted : (CompilationUnit.read markedSource).outcome.toOption.map (·.raws.length) = some 3 := by
    rw [CompilationUnit.read, Token.ofSource, Piece.ofSource, signs]
    decide +kernel
  have reserved : ∃ p ∈ ofSource markedSource,
      p.kind = some .identifier ∧ Kind.ofWord p.text ≠ .identifier := by
    rw [Piece.ofSource, signs]
    decide +kernel
  obtain ⟨unit, found, length⟩ := Option.map_eq_some_iff.mp counted
  have read := toOption_eq_some found
  obtain ⟨tokens, -, lexed, -⟩ := CompilationUnit.read_eq_ok read
  obtain ⟨-, each, raws, -⟩ := slices_read_again lexed
  refine ⟨tokens, unit, lexed, read, length, raws unit read, ?_⟩
  obtain ⟨p, member, identifier, isReserved⟩ := reserved
  exact ⟨p, member, fun same => isReserved ((each p member).mp same identifier)⟩

end TestDouble
