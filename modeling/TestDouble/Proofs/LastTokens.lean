import TestDouble.Proofs.Bars

/-!
# What reading ends with

A line may break inside a literal, and a value may end with one. Nothing else that is read ends so:
annotations end with a name or a round bracket, types with a name, a keyword or a bracket, and
declarations with a brace or a semicolon. Some readers take no token if what they read is not there;
these leave no literal behind if there was none before.
-/

namespace TestDouble

/-- The kinds of tokens in which a line feed or a carriage return may stand. -/
def Kind.mayBreak : Kind → Bool
  | stringLiteral | textBlock | charLiteral => true
  | _ => false

/-- The token last taken, if there is one, is no literal in which a line may break. -/
def Cursor.Unbroken (c : Cursor) : Prop := ∀ t, c.last = some t → t.kind.mayBreak = false

/-! ### Single tokens, names and lists -/

namespace Cursor

variable {c d : Cursor} {t : Token} {kind : Kind}

theorem unbroken_start (tokens : List Token) : (start tokens).Unbroken := nofun

theorem Passes.unbroken {taken : List Token} (passes : c.Passes taken d)
    (ends : taken.getLast?.map Token.kind = some kind) (plain : kind.mayBreak = false) :
    d.Unbroken := by
  obtain ⟨t, final, rfl⟩ := Option.map_eq_some_iff.mp ends
  intro u last
  rw [passes.last, final] at last
  obtain rfl : t = u := Option.some.inj last
  exact plain

theorem unbroken_of_accept? {h : d.size < c.size} (found : c.accept? kind = some ⟨t, d, h⟩)
    (plain : kind.mayBreak = false) : d.Unbroken := by
  obtain ⟨passes, rfl⟩ := accept?_eq_some found
  exact passes.unbroken rfl plain

theorem unbroken_of_acceptPair? {first : Kind} {h : d.size < c.size}
    (found : c.acceptPair? first kind = some ⟨t, d, h⟩) (plain : kind.mayBreak = false) :
    d.Unbroken := by
  obtain ⟨u, passes, -, rfl⟩ := acceptPair?_eq_some found
  exact passes.unbroken rfl plain

theorem unbroken_of_expect {what : String} {h : d.size < c.size}
    (expected : c.expect kind what = .ok ⟨t, d, h⟩) (plain : kind.mayBreak = false) :
    d.Unbroken := by
  obtain ⟨passes, rfl⟩ := expect_eq_ok expected
  exact passes.unbroken rfl plain

theorem unbroken_of_identifier {name : String} {h : d.size < c.size}
    (named : c.identifier = .ok ⟨name, d, h⟩) : d.Unbroken := by
  obtain ⟨t, passes, isName, -⟩ := identifier_eq_ok named
  exact passes.unbroken (congrArg some isName) rfl

theorem unbroken_of_dottedName {name : String} {h : d.size < c.size}
    (named : c.dottedName = .ok ⟨name, d, h⟩) : d.Unbroken := by
  obtain ⟨taken, passes, spelled⟩ := dottedName_eq_ok named
  cases spelled with
  | one isName => exact passes.unbroken (congrArg some isName) rfl
  | @more front _ dot t _ _ isName =>
    have ends : (front ++ [dot, t]).getLast?.map Token.kind = some .identifier := by simp [isName]
    exact passes.unbroken ends rfl

theorem Unbroken.bracketPairs {origin : Cursor} {within : c.size ≤ origin.size} {n : Nat}
    (plain : c.Unbroken) : (bracketPairs origin c within n).cursor.Unbroken := by
  induction c, within, n using bracketPairs.induct origin with
  | case1 c within n token c₁ h₁ found ih =>
    rw [Cursor.bracketPairs, found]
    exact ih (unbroken_of_acceptPair? found rfl)
  | case2 c within n missing =>
    rw [Cursor.bracketPairs, missing]
    exact plain

theorem Unbroken.dimensions (plain : c.Unbroken) : c.dimensions.cursor.Unbroken :=
  plain.bracketPairs

/-- A list ends as its last item does. -/
theorem unbroken_of_sepByTail {α : Type} {origin : Cursor} {separator : Kind}
    {item : (c : Cursor) → c.size ≤ origin.size → Reading α c}
    (each : ∀ c within r, item c within = .ok r → r.cursor.Unbroken)
    {within : c.size ≤ origin.size} {read : List α} {r : Consumed origin (List α)}
    (returned : sepByTail origin separator item c within read = .ok r) : r.cursor.Unbroken := by
  induction c, within, read using sepByTail.induct origin with
  | case1 c within read ih =>
    rw [sepByTail] at returned
    obtain ⟨⟨value, c₁, h₁⟩, itemRead, returned⟩ := bind_eq_ok returned
    dsimp only at returned
    split at returned
    next token c₂ h₂ found => exact ih value c₁ h₁ c₂ h₂ returned
    next =>
      cases returned
      exact each c within _ itemRead

theorem unbroken_of_sepBy {α : Type} {separator : Kind}
    {item : (c' : Cursor) → c'.size ≤ c.size → Reading α c'}
    (each : ∀ c' within r, item c' within = .ok r → r.cursor.Unbroken) {r : Consumed c (List α)}
    (returned : c.sepBy separator item = .ok r) : r.cursor.Unbroken :=
  unbroken_of_sepByTail each returned

theorem Unbroken.clause {α : Type} {item : (c' : Cursor) → c'.size ≤ c.size → Reading α c'}
    (plain : c.Unbroken) (each : ∀ c' within r, item c' within = .ok r → r.cursor.Unbroken)
    {r : Reached c (Option α)} (returned : c.clause kind item = .ok r) : r.cursor.Unbroken := by
  rw [Cursor.clause] at returned
  split at returned
  next token c₁ h₁ found =>
    obtain ⟨⟨value, c₂, h₂⟩, itemRead, finished⟩ := bind_eq_ok returned
    cases finished
    exact each c₁ _ _ itemRead
  next =>
    cases returned
    exact plain

/-- What ends with a bar ends with no literal. -/
theorem EndsWith.unbroken (ends : c.EndsWith kind d) (leads : c.Leads d)
    (plain : kind.mayBreak = false) : d.Unbroken := by
  obtain ⟨e, bar, ⟨before, way⟩, ahead, rfl⟩ := ends
  obtain ⟨taken, passes⟩ := leads
  -- What is passed in all is what stands before the bar, and the bar.
  have split : taken ++ d.ahead = (before ++ [bar]) ++ d.ahead := by
    rw [← passes.ahead, way.ahead, ahead, List.append_assoc, List.singleton_append]
  rw [List.append_cancel_right split] at passes
  exact passes.unbroken (by simp) plain

end Cursor

/-! ### Annotations -/

namespace Annotation

theorem unbroken_of_readArguments {c : Cursor} {r : Consumed c (List AnnotationArgument)}
    (returned : readArguments c = .ok r) : r.cursor.Unbroken := by
  obtain ⟨⟨arguments, c₁, h₁⟩, listed, returned⟩ := bind_eq_ok returned
  obtain ⟨⟨paren, c₂, h₂⟩, closed, finished⟩ := bind_eq_ok returned
  cases finished
  exact Cursor.unbroken_of_expect closed rfl

theorem unbroken_of_read {c : Cursor} {r : Consumed c Annotation} (returned : read c = .ok r) :
    r.cursor.Unbroken := by
  obtain ⟨⟨at_, c₁, h₁⟩, opened, returned⟩ := bind_eq_ok returned
  obtain ⟨⟨name, c₂, h₂⟩, named, returned⟩ := bind_eq_ok returned
  obtain ⟨⟨arguments, c₃, h₃⟩, listed, finished⟩ := bind_eq_ok returned
  cases finished
  -- Without arguments the name comes last.
  exact (Cursor.unbroken_of_dottedName named).clause
    (fun _ _ _ read => unbroken_of_readArguments read) listed

theorem unbroken_of_passFrom {origin c : Cursor} {within : c.size ≤ origin.size}
    {r : Reached origin Unit} (plain : c.Unbroken) (returned : passFrom origin c within = .ok r) :
    r.cursor.Unbroken := by
  induction c, within using passFrom.induct origin with
  | case1 c within next ih =>
    rw [passFrom, if_pos next] at returned
    obtain ⟨⟨marked, c₁, h₁⟩, found, returned⟩ := bind_eq_ok returned
    exact ih c₁ h₁ (unbroken_of_read found) returned
  | case2 c within none =>
    rw [passFrom, if_neg none] at returned
    cases returned
    exact plain

theorem unbroken_of_pass {c : Cursor} {r : Reached c Unit} (plain : c.Unbroken)
    (returned : pass c = .ok r) : r.cursor.Unbroken :=
  unbroken_of_passFrom plain returned

end Annotation

/-! ### Types -/

theorem TypeRef.Dimensioned.unbroken {c d : Cursor} {k : Nat} (pairs : Dimensioned c k d)
    (plain : c.Unbroken) : d.Unbroken := by
  induction pairs with
  | ended annotated _ => exact Annotation.unbroken_of_pass plain annotated
  | pair _ found _ ih => exact ih (Cursor.unbroken_of_acceptPair? found rfl)

theorem TypeArgument.unbroken_of_readAll {c : Cursor} {r : Consumed c (List TypeArgument)}
    (returned : readAll c = .ok r) : r.cursor.Unbroken := by
  obtain ⟨arguments, d, h⟩ := r
  cases readAll_eq_ok_iff.mp ⟨h, returned⟩ with
  | empty _ found => exact Cursor.unbroken_of_accept? found rfl
  | listed _ _ _ closed => exact Cursor.unbroken_of_expect closed rfl

namespace TypeRef

theorem Parts.unbroken {start : Location} {c d : Cursor} {name : String} {enclosing : Option TypeRef}
    {t : TypeRef} (parts : Parts start c name enclosing t d) (plain : c.Unbroken) : d.Unbroken := by
  induction parts with
  | last optional _ =>
    cases optional with
    | absent => exact plain
    | listed _ read => exact TypeArgument.unbroken_of_readAll read
  -- A name goes on behind a dot in both cases, whether the part before it encloses it or not.
  | longer _ found _ ih | member _ _ found _ ih => exact ih (Cursor.unbroken_of_acceptPair? found rfl)

theorem Base.unbroken {c d : Cursor} {t : TypeRef} (base : Base c t d) : d.Unbroken := by
  cases base with
  | primitive found =>
    obtain ⟨passes, p, isPrimitive⟩ := primitive?_eq_some found
    exact passes.unbroken (congrArg some isPrimitive) rfl
  | name _ found parts => exact parts.unbroken (Cursor.unbroken_of_accept? found rfl)

theorem unbroken_of_read {c : Cursor} {r : Consumed c TypeRef} (returned : read c = .ok r) :
    r.cursor.Unbroken := by
  obtain ⟨_, _, _, _, _, -, based, pairs, -⟩ := read_eq_ok_iff.mp ⟨r.shorter, returned⟩
  exact pairs.unbroken based.unbroken

end TypeRef

theorem TypeParameter.unbroken_of_read {c : Cursor} {r : Consumed c TypeParameter}
    (returned : TypeParameter.read c = .ok r) : r.cursor.Unbroken := by
  obtain ⟨⟨_, c₁, h₁⟩, annotated, returned⟩ := bind_eq_ok returned
  obtain ⟨⟨name, c₂, h₂⟩, named, returned⟩ := bind_eq_ok returned
  obtain ⟨⟨bounds, c₃, h₃⟩, extended, finished⟩ := bind_eq_ok returned
  cases finished
  exact (Cursor.unbroken_of_identifier named).clause
    (fun _ _ _ read => Cursor.unbroken_of_sepBy
      (fun _ _ _ read => TypeRef.unbroken_of_read read) read) extended

/-! ### Declarations -/

theorem Block.CutsInto.unbroken {c d : Cursor} {statements : List BodyStatement}
    (cuts : CutsInto c statements d) : d.Unbroken := by
  induction cuts with
  | closed passes isBrace => exact passes.unbroken (congrArg some isBrace) rfl
  | empty _ _ _ ih | block _ _ _ _ _ ih | fragment _ _ _ ih => exact ih

theorem Block.unbroken_of_read {c : Cursor} {r : Consumed c Block} (returned : Block.read c = .ok r) :
    r.cursor.Unbroken := by
  obtain ⟨⟨t, c₁, -, -, inner⟩, -⟩ := cuts_of_read returned
  exact inner.unbroken

theorem NominalDecl.unbroken_of_passBody {c : Cursor} {r : Reached c Unit}
    (passed : passBody c = .ok r) : r.cursor.Unbroken :=
  (endsWith_of_passBody passed).unbroken
    (passBody_tells passed).leads rfl

theorem BodyMember.Listed.unbroken {c d : Cursor} {parts : List BodyMember}
    (listed : Listed c parts d) : d.Unbroken := by
  induction listed with
  | closed closing => exact Cursor.unbroken_of_accept? closing rfl
  | semicolon _ _ _ ih | more _ _ _ _ ih => exact ih

theorem BodyMember.unbroken_of_readBody {c d : Cursor} {parts : List BodyMember}
    (read : Returns BodyMember.readBody c parts d) : d.Unbroken := by
  obtain ⟨t, c₁, h₁, opened, listed⟩ := BodyMember.readBody_eq_ok_iff.mp read
  exact listed.unbroken

theorem TypeDecl.unbroken_of_read {c d : Cursor} {decl : TypeDecl}
    (read : Returns TypeDecl.read c decl d) : d.Unbroken := by
  have ends := endsWith_of_read read
  obtain ⟨h, returned⟩ := read
  exact ends.unbroken (read_tells (fun _ word => word) returned).leads rfl

/-! ### Units -/

theorem TypeDecl.Listed.unbroken {c d : Cursor} {types : List TypeDecl} (listed : Listed c types d)
    (plain : c.Unbroken) : d.Unbroken := by
  induction listed with
  | ended => exact plain
  | semicolon found _ ih => exact ih (Cursor.unbroken_of_accept? found rfl)
  | more _ read _ ih => exact ih (TypeDecl.unbroken_of_read ⟨_, read⟩)

theorem PackageDecl.ReadAs.unbroken {c d : Cursor} {v : Option PackageDecl} (readAs : ReadAs c v d)
    (plain : c.Unbroken) : d.Unbroken := by
  cases readAs with
  | missing => exact plain
  | declared _ _ ended => exact Cursor.unbroken_of_expect ended rfl

theorem ImportDecl.ReadAs.unbroken {start : Location} {c d : Cursor} {decl : ImportDecl}
    (readAs : ReadAs start c decl d) : d.Unbroken := by
  obtain ⟨_, _, _, ended⟩ := readAs
  exact Cursor.unbroken_of_expect ended rfl

theorem ImportDecl.Listed.unbroken {c d : Cursor} {decls : List ImportDecl} (listed : Listed c decls d)
    (plain : c.Unbroken) : d.Unbroken := by
  induction listed with
  | ended => exact plain
  | more _ read _ ih => exact ih (ImportDecl.readRest_eq_ok_iff.mp ⟨_, read⟩).unbroken

/-- The tokens of a unit end with no literal, wherever they end. -/
theorem CompilationUnit.ReadAs.unbroken {c d : Cursor} {unit : CompilationUnit}
    (readAs : ReadAs c unit d) (plain : c.Unbroken) : d.Unbroken := by
  obtain ⟨preamble, c₁, h₁, types, preambleRead, listed, -⟩ := readAs
  obtain ⟨c₂, package, imports⟩ := Preamble.read_eq_ok_iff.mp ⟨h₁, preambleRead⟩
  exact listed.unbroken (imports.unbroken (package.unbroken plain))

end TestDouble
