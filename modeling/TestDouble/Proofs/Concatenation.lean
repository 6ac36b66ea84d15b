import TestDouble.Proofs.Bars
import TestDouble.Proofs.BodiesApart
import TestDouble.Proofs.LineBreaks

/-!
# Reading and generating for sources one behind the other

The main result is `CompilationUnit.read_concatenated`. Declarations end with a brace or a semicolon,
so what a source declares is read the same when the tokens of another source follow; and behind that,
types are read as they are where they start a source.
-/

namespace TestDouble

/-- Both cursors are at the same place, and the second has more tokens behind those ahead of the
first. -/
structure Cursor.Extends (more : List Token) (c c' : Cursor) : Prop where
  last : c'.last = c.last
  ahead : c'.ahead = c.ahead ++ more

section

variable {more : List Token} {c c' d : Cursor}

namespace Cursor.Extends

variable (x : Extends more c c')

include x

/-- More tokens are a graft behind the bar that something ends with. -/
theorem graft {kind : Kind} (ends : c.EndsWith kind d) (bars : kind.bars = true) :
    ∃ g : Graft, g.At c c' ∧ d.ahead = g.old ∧ ∀ d', g.Past d d' → Extends more d d' := by
  obtain ⟨e, bar, ⟨taken, passes⟩, ahead, isBar⟩ := ends
  have split : c.ahead = taken ++ bar :: d.ahead := by rw [passes.ahead, ahead]
  have split' : c'.ahead = taken ++ bar :: (d.ahead ++ more) := by
    rw [x.ahead, split, List.append_assoc, List.cons_append]
  exact ⟨⟨bar, d.ahead, d.ahead ++ more, isBar ▸ bars⟩, ⟨x.last, taken, split, split'⟩, rfl,
    fun d' past => ⟨past.last, past.new⟩⟩

theorem accept?_some {kind : Kind} {t : Token} {h : d.size < c.size}
    (found : c.accept? kind = some ⟨t, d, h⟩) :
    ∃ d' h', c'.accept? kind = some ⟨t, d', h'⟩ ∧ Extends more d d' := by
  obtain ⟨last, _ | ⟨u, rest⟩⟩ := c
  · cases found
  obtain ⟨last', ahead'⟩ := c'
  obtain rfl : ahead' = u :: (rest ++ more) := x.ahead
  simp only [Cursor.accept?] at found ⊢
  split at found
  next kindIs =>
    cases found
    rw [if_pos kindIs]
    exact ⟨⟨some t, rest ++ more⟩, Cursor.size_tail_lt .., rfl, rfl, rfl⟩
  next => cases found

theorem accept?_none {kind : Kind} (none : c.accept? kind = none)
    (other : c.ahead = [] → more.head?.map Token.kind ≠ some kind) : c'.accept? kind = .none := by
  apply Cursor.accept?_eq_none
  have next := Cursor.nextKind_ne_of_accept? none
  rw [Cursor.nextKind] at next ⊢
  rw [x.ahead]
  cases ahead : c.ahead with
  | nil => exact other ahead
  | cons t rest => rwa [ahead] at next

theorem type {decl : TypeDecl} (read : Returns TypeDecl.read c decl d) :
    ∃ d', Returns TypeDecl.read c' decl d' ∧ Extends more d d' := by
  obtain ⟨g, s, ended, onward⟩ := x.graft (TypeDecl.endsWith_of_read read) rfl
  obtain ⟨d', read', past⟩ := TypeDecl.read_past read s ended
  exact ⟨d', read', onward d' past⟩

/-! ### What a unit starts with -/

theorem package {package : Option PackageDecl}
    (fresh : more.head?.map Token.kind ≠ some .packageWord)
    (readAs : PackageDecl.ReadAs c package d) :
    ∃ d', PackageDecl.ReadAs c' package d' ∧ Extends more d d' := by
  cases package with
  | some decl =>
    obtain ⟨g, s, ended, onward⟩ := x.graft readAs.endsWith rfl
    obtain ⟨d', readAs', past⟩ := s.package_past readAs ended
    exact ⟨d', readAs', onward d' past⟩
  | none =>
    cases readAs with
    | missing missing => exact ⟨c', .missing (x.accept?_none missing fun _ => fresh), x⟩

omit x in
theorem imports {c c' d : Cursor} {decls : List ImportDecl} (listed : ImportDecl.Listed c decls d)
    (x : Extends more c c') (fresh : more.head?.map Token.kind ≠ some .importWord) :
    ∃ d', ImportDecl.Listed c' decls d' ∧ Extends more d d' := by
  induction listed generalizing c' with
  | ended missing => exact ⟨c', .ended (x.accept?_none missing fun _ => fresh), x⟩
  | @more c c₁ c₂ d word h₁ h₂ decl decls found declared _ ih =>
    -- The import is read up to its semicolon, and the others behind it.
    have import_ : Returns (ImportDecl.readRest c.location) c₁ decl c₂ := ⟨h₂, declared⟩
    obtain ⟨c₁', h₁', found', x₁⟩ := x.accept?_some found
    obtain ⟨g, s₁, ended, onward⟩ := x₁.graft (ImportDecl.endsWith_of_readRest import_) rfl
    obtain ⟨c₂', ⟨h₂', declared'⟩, past⟩ := s₁.import_past import_ ended
    have location : c'.location = c.location := by
      rw [Cursor.location, Cursor.location, (Cursor.accept?_eq_some found').1.ahead,
        (Cursor.accept?_eq_some found).1.ahead]
      rfl
    obtain ⟨d', listed', x'⟩ := ih (onward c₂' past)
    exact ⟨d', .more found' (location ▸ declared') listed', x'⟩

theorem preamble {preamble : Preamble} {h : d.size ≤ c.size}
    (noPackage : more.head?.map Token.kind ≠ some .packageWord)
    (noImport : more.head?.map Token.kind ≠ some .importWord)
    (returned : Preamble.read c = .ok ⟨preamble, d, h⟩) :
    ∃ d' h', Preamble.read c' = .ok ⟨preamble, d', h'⟩ ∧ Extends more d d' := by
  obtain ⟨c₁, readAs, listed⟩ := Preamble.read_eq_ok_iff.mp ⟨h, returned⟩
  obtain ⟨c₁', readAs', x₁⟩ := x.package noPackage readAs
  obtain ⟨d', listed', x₂⟩ := imports listed x₁ noImport
  obtain ⟨h', returned'⟩ := Preamble.read_eq_ok_iff.mpr ⟨c₁', readAs', listed'⟩
  exact ⟨d', h', returned', x₂⟩

end Cursor.Extends

/-- Behind the types that end the first source, those that are read from its end on follow. -/
theorem TypeDecl.Listed.extend {types : List TypeDecl} {Wanted : List TypeDecl → Prop}
    (listed : Listed c types d) (x : c.Extends more c')
    (follow : ∀ last, ∃ others d', Listed ⟨last, more⟩ others d' ∧ Wanted others) :
    ∃ others d', Listed c' (types ++ others) d' ∧ Wanted others := by
  induction listed generalizing c' with
  | @ended c ended =>
    obtain ⟨last', ahead'⟩ := c'
    have ahead : ahead' = more := by
      have whole := x.ahead
      rwa [List.isEmpty_iff.mp ended] at whole
    rw [ahead]
    exact follow last'
  | semicolon found _ ih =>
    obtain ⟨c₁', h₁', found', x₁⟩ := x.accept?_some found
    obtain ⟨others, d', rest', wanted⟩ := ih x₁
    exact ⟨others, d', .semicolon found' rest', wanted⟩
  | @more c c₁ _ h₁ decl types notEnded read _ ih =>
    obtain ⟨c₁', ⟨h₁', read'⟩, x₁⟩ := x.type ⟨h₁, read⟩
    obtain ⟨others, d', rest', wanted⟩ := ih x₁
    have notEnded' : c'.accept? .semicolon = none := by
      refine x.accept?_none notEnded fun empty => ?_
      rw [Cursor.size, Cursor.size, empty] at h₁
      exact absurd h₁ (Nat.not_lt_zero _)
    exact ⟨others, d', .more notEnded' read' rest', wanted⟩

end

/-! ### Units -/

/-- Where neither a package nor an import was read, none comes next. -/
theorem Preamble.bare_of_read {c d : Cursor} {h : d.size ≤ c.size}
    (returned : Preamble.read c = .ok ⟨⟨none, []⟩, d, h⟩) :
    d = c ∧ c.nextKind ≠ some .packageWord ∧ c.nextKind ≠ some .importWord := by
  obtain ⟨c₁, readAs, listed⟩ := Preamble.read_eq_ok_iff.mp ⟨h, returned⟩
  cases readAs with
  | missing noPackage =>
    cases listed with
    | ended noImport =>
      exact ⟨rfl, Cursor.nextKind_ne_of_accept? noPackage, Cursor.nextKind_ne_of_accept? noImport⟩

namespace CompilationUnit

/-- Types that look the same but for places. -/
def SameTypes (types types' : List TypeDecl) : Prop :=
  types.map (TypeDecl.through (.full id)) = types'.map (TypeDecl.through (.full id))

/-- A unit with the types of another source behind its own. -/
structure Joins (unit unit₁ unit₂ : CompilationUnit) : Prop where
  package : unit.package = unit₁.package
  imports : unit.imports = unit₁.imports
  types : ∃ others, unit.types = unit₁.types ++ others ∧ SameTypes others unit₂.types

theorem ofTokens_append {ts us vs : List Token} {unit₁ unit₂ : CompilationUnit}
    (read₁ : (ofTokens ts).2 = .ok unit₁) (read₂ : (ofTokens us).2 = .ok unit₂)
    (noPackage : unit₂.package = none) (noImports : unit₂.imports = [])
    (same : Token.Matching id us vs) :
    ∃ unit, (ofTokens (ts ++ vs)).2 = .ok unit ∧ unit.Joins unit₁ unit₂ := by
  obtain ⟨d₁, preamble, c₁, h₁, types, preambleRead, listed, rfl⟩ := ofTokens_eq_ok_iff.mp read₁
  obtain ⟨d₂, ⟨package, imports⟩, c₂, h₂, types₂, bareRead, listed₂, rfl⟩ :=
    ofTokens_eq_ok_iff.mp read₂
  obtain rfl : package = none := noPackage
  obtain rfl : imports = [] := noImports
  obtain ⟨rfl, noPackageWord, noImportWord⟩ := Preamble.bare_of_read bareRead
  have kinds : vs.head?.map Token.kind = us.head?.map Token.kind := by
    rw [← List.head?_map, ← List.head?_map, same.kinds]
  rw [Cursor.nextKind, Cursor.start, ← kinds] at noPackageWord noImportWord
  have x : (Cursor.start ts).Extends vs (Cursor.start (ts ++ vs)) := ⟨rfl, rfl⟩
  obtain ⟨c₁', h₁', preambleRead', x₁⟩ := x.preamble noPackageWord noImportWord preambleRead
  -- Behind the first source, the types of the second are read as at its start.
  have follow (last : Option Token) : ∃ others d', TypeDecl.Listed ⟨last, vs⟩ others d' ∧
      SameTypes others types₂ := by
    have start : (Cursor.start us).Matches id ⟨last, vs⟩ := same
    obtain ⟨others, d', listed', -, alike⟩ := listed₂.echo start
    exact ⟨others, d', listed', alike (.full id) (View.full_coarse id) rfl⟩
  obtain ⟨others, d', listed', alike⟩ := listed.extend x₁ follow
  exact ⟨_, ofTokens_eq_ok_iff.mpr ⟨d', preamble, c₁', h₁', _, preambleRead', listed', rfl⟩,
    rfl, rfl, others, rfl, alike⟩

/-- What is generated for a unit with the types of another one behind its own. -/
theorem Joins.generated {unit unit₁ unit₂ : CompilationUnit} (joins : unit.Joins unit₁ unit₂)
    (noPackage₁ : unit₁.package = none) (noPackage₂ : unit₂.package = none)
    (noImports₂ : unit₂.imports = []) {config : Config} {gs₁ gs₂ : List GeneratedUnit}
    (made₁ : unit₁.classes.mapM (GeneratedUnit.ofDecl config .forwarding unit₁.packageName) =
      Except.ok gs₁)
    (made₂ : unit₂.classes.mapM (GeneratedUnit.ofDecl config .forwarding unit₂.packageName) =
      Except.ok gs₂) :
    ∃ gs, unit.classes.mapM (GeneratedUnit.ofDecl config .forwarding unit.packageName) = Except.ok gs ∧
      gs.map GeneratedUnit.written =
        gs₁.map GeneratedUnit.written ++ gs₂.map GeneratedUnit.written := by
  obtain ⟨others, types, alike⟩ := joins.types
  -- The types of the second source, as a unit of their own.
  let rest : CompilationUnit := ⟨none, [], others, .synthetic⟩
  have seen : rest.through (.full id) = unit₂.through (.full id) := by
    rw [through, through, noPackage₂, noImports₂, alike]
  have made := GeneratedUnit.ofDecls_eq_of_through seen config
  rw [made₂] at made
  cases madeRest : rest.classes.mapM (GeneratedUnit.ofDecl config .forwarding rest.packageName) with
  | error e =>
    rw [madeRest] at made
    cases made
  | ok gs =>
    rw [madeRest] at made
    have written : gs.map GeneratedUnit.written = gs₂.map GeneratedUnit.written :=
      Except.ok.inj made
    have classes : unit.classes = unit₁.classes ++ rest.classes := by
      rw [CompilationUnit.classes, types, List.filterMap_append]
      rfl
    have name : unit.packageName = unit₁.packageName := by
      rw [packageName, packageName, joins.package]
    have noName : unit₁.packageName = rest.packageName := by
      rw [packageName, noPackage₁]
      rfl
    refine ⟨gs₁ ++ gs, ?_, by rw [List.map_append, written]⟩
    rw [classes, name, List.mapM_append, made₁, noName, madeRest]
    rfl

/-- Sources can be read one behind the other. When two sources can be read, and the second has neither
package nor imports, then both with a line break between them are read as the first with the types of
the second behind its own. And if the first has no package either, whatever is generated for each of
them is generated for both. -/
theorem read_concatenated {s₁ s₂ : String} {unit₁ unit₂ : CompilationUnit}
    (read₁ : (read s₁).outcome = .ok unit₁) (read₂ : (read s₂).outcome = .ok unit₂)
    (noPackage : unit₂.package = none) (noImports : unit₂.imports = []) :
    ∃ unit, (read (s₁ ++ "\n" ++ s₂)).outcome = .ok unit ∧ unit.Joins unit₁ unit₂ ∧
      ∀ (config : Config) (gs₁ gs₂ : List GeneratedUnit), unit₁.package = none →
        (GeneratedUnit.ofSource config .forwarding s₁).outcome = .ok gs₁ →
        (GeneratedUnit.ofSource config .forwarding s₂).outcome = .ok gs₂ →
        ∃ gs, (GeneratedUnit.ofSource config .forwarding (s₁ ++ "\n" ++ s₂)).outcome = .ok gs ∧
          gs.map GeneratedUnit.written =
            gs₁.map GeneratedUnit.written ++ gs₂.map GeneratedUnit.written := by
  obtain ⟨ts, _, lexed₁, whole₁⟩ := read_eq_ok read₁
  obtain ⟨us, _, lexed₂, whole₂⟩ := read_eq_ok read₂
  obtain ⟨vs, lexed, same⟩ := Token.ofSource_concatenated lexed₁ lexed₂
  obtain ⟨unit, whole, joins⟩ := ofTokens_append (by rw [whole₁]) (by rw [whole₂]) noPackage noImports
    (same id)
  have read : (read (s₁ ++ "\n" ++ s₂)).outcome = .ok unit := by
    rw [outcome_read lexed, whole]
    rfl
  refine ⟨unit, read, joins, fun config gs₁ gs₂ noPackage₁ made₁ made₂ => ?_⟩
  rw [GeneratedUnit.ofSource_outcome, read₁] at made₁
  rw [GeneratedUnit.ofSource_outcome, read₂] at made₂
  rw [GeneratedUnit.ofSource_outcome, read]
  exact joins.generated noPackage₁ noPackage noImports made₁ made₂

/-- The comment at the end of the first source is closed by the line break. -/
private def firstSource : String :=
  "import x.Y; class A \x7b int f() \x7b return 1; \x7d \x7d // no more"

private def secondSource : String := "class B \x7b \x7d"

theorem read_concatenated_behind_comment :
    ∃ unit₁ unit₂ unit gs, (read firstSource).outcome = .ok unit₁ ∧
      (read secondSource).outcome = .ok unit₂ ∧ unit₂.package = none ∧ unit₂.imports = [] ∧
      (read (firstSource ++ "\n" ++ secondSource)).outcome = .ok unit ∧ unit.Joins unit₁ unit₂ ∧
      (GeneratedUnit.ofSource {} .forwarding (firstSource ++ "\n" ++ secondSource)).outcome = .ok gs ∧
      gs.length = 2 := by
  have signs : firstSource.toList = _ := String.toList_ofList
  have computed₁ : (read firstSource).outcome.toOption.map (fun unit => unit.package.isNone) =
      some true := by
    rw [CompilationUnit.read, Token.ofSource, Piece.ofSource, signs]
    decide +kernel
  have computed₂ : (read secondSource).outcome.toOption.map
      (fun unit => unit.package.isNone && unit.imports.isEmpty) = some true := by
    decide +kernel
  have made₁ : (GeneratedUnit.ofSource {} .forwarding firstSource).outcome.toOption.map List.length =
      some 1 := by
    rw [GeneratedUnit.ofSource, CompilationUnit.read, Token.ofSource, Piece.ofSource, signs]
    decide +kernel
  have made₂ : (GeneratedUnit.ofSource {} .forwarding secondSource).outcome.toOption.map List.length =
      some 1 := by
    decide +kernel
  obtain ⟨unit₁, ended₁, noPackage₁⟩ := Option.map_eq_some_iff.mp computed₁
  obtain ⟨unit₂, ended₂, bare⟩ := Option.map_eq_some_iff.mp computed₂
  rw [Bool.and_eq_true, Option.isNone_iff_eq_none, List.isEmpty_iff] at bare
  obtain ⟨gs₁, made₁, length₁⟩ := Option.map_eq_some_iff.mp made₁
  obtain ⟨gs₂, made₂, length₂⟩ := Option.map_eq_some_iff.mp made₂
  have read₁ := toOption_eq_some ended₁
  have read₂ := toOption_eq_some ended₂
  obtain ⟨unit, read, joins, generated⟩ := read_concatenated read₁ read₂ bare.1 bare.2
  obtain ⟨gs, made, written⟩ := generated {} gs₁ gs₂ (Option.isNone_iff_eq_none.mp noPackage₁)
    (toOption_eq_some made₁) (toOption_eq_some made₂)
  have length := congrArg List.length written
  rw [List.length_map, List.length_append, List.length_map, List.length_map, length₁, length₂]
    at length
  exact ⟨unit₁, unit₂, unit, gs, read₁, read₂, bare.1, bare.2, read, joins, made, length⟩

end CompilationUnit

end TestDouble
