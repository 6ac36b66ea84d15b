import TestDouble.Proofs.SpanTrees

/-!
# Where what is read stands

For each reader: the tree of what it returns stands between the cursor it was called with and the
cursor it returns. A declaration is read in pieces, and those that come first, such as its
annotations, are handed on; so the lemmas on the later pieces assume where the earlier ones stand.
-/

namespace TestDouble

open SpanTree (Between AllBetween)

/-- Whether a word is reserved or not is of no concern here. -/
private theorem isWord_imp (w : String) (word : IsWord w) : IsWord w := word

namespace SpanTree.AllBetween

variable {c d : Cursor} {parts : List SpanTree}

theorem node (all : AllBetween c parts d) (shorter : d.size < c.size) (plain : d.Unbroken) :
    Between c (.node false ⟨c.location, d.lastStop⟩ parts) d :=
  .node false (.refl c) all shorter (fun _ => plain) (.refl d)

/-- A field may end with a literal, so nothing is asked of what it ends with. -/
theorem field (all : AllBetween c parts d) (shorter : d.size < c.size) :
    Between c (.node true ⟨c.location, d.lastStop⟩ parts) d :=
  .node true (.refl c) all shorter nofun (.refl d)

theorem leaf (leads : c.Leads d) (shorter : d.size < c.size) (plain : d.Unbroken) :
    Between c (.node false ⟨c.location, d.lastStop⟩ []) d :=
  (AllBetween.nil leads).node shorter plain

end SpanTree.AllBetween

/-! ### Lists and clauses -/

namespace Cursor

theorem sepByTail_between {α : Type} (trees : α → List SpanTree) {origin : Cursor} {separator : Kind}
    {item : (c : Cursor) → c.size ≤ origin.size → Reading α c}
    (each : ∀ c within r, item c within = .ok r → AllBetween c (trees r.value) r.cursor)
    {c : Cursor} {within : c.size ≤ origin.size} {read : List α} {r : Consumed origin (List α)}
    (returned : sepByTail origin separator item c within read = .ok r) :
    ∃ items, r.value = read.reverse ++ items ∧ AllBetween c (items.flatMap trees) r.cursor := by
  induction c, within, read using sepByTail.induct origin with
  | case1 c within read ih =>
    rw [sepByTail] at returned
    obtain ⟨⟨value, c₁, h₁⟩, itemRead, returned⟩ := bind_eq_ok returned
    have first := each c within _ itemRead
    dsimp only at returned
    split at returned
    next token c₂ h₂ found =>
      obtain ⟨items, same, others⟩ := ih value c₁ h₁ c₂ h₂ returned
      have behind := others.lead (accept?_tells found).leads
      refine ⟨value :: items, by simp [same], ?_⟩
      rw [List.flatMap_cons]
      exact first.append behind
    next =>
      cases returned
      refine ⟨[value], by simp, ?_⟩
      rwa [List.flatMap_singleton]

theorem sepBy_between {α : Type} (trees : α → List SpanTree) {c : Cursor} {separator : Kind}
    {item : (c' : Cursor) → c'.size ≤ c.size → Reading α c'}
    (each : ∀ c' within r, item c' within = .ok r → AllBetween c' (trees r.value) r.cursor)
    {r : Consumed c (List α)} (returned : c.sepBy separator item = .ok r) :
    AllBetween c (r.value.flatMap trees) r.cursor := by
  obtain ⟨items, same, all⟩ := sepByTail_between trees each returned
  rw [List.reverse_nil, List.nil_append] at same
  rwa [same]

/-- Items with one tree each. -/
theorem sepBy_betweenEach {α : Type} (tree : α → SpanTree) {c : Cursor} {separator : Kind}
    {item : (c' : Cursor) → c'.size ≤ c.size → Reading α c'}
    (each : ∀ c' within r, item c' within = .ok r → Between c' (tree r.value) r.cursor)
    {r : Consumed c (List α)} (returned : c.sepBy separator item = .ok r) :
    AllBetween c (r.value.map tree) r.cursor := by
  rw [List.map_eq_flatMap]
  exact sepBy_between (fun a => [tree a]) (fun c' within r read => .one (each c' within r read)) returned

theorem clause_between {α : Type} (trees : α → List SpanTree) {c : Cursor} {kind : Kind}
    {item : (c' : Cursor) → c'.size ≤ c.size → Reading α c'}
    (each : ∀ c' within r, item c' within = .ok r → AllBetween c' (trees r.value) r.cursor)
    {r : Reached c (Option α)} (returned : c.clause kind item = .ok r) :
    AllBetween c (r.value.toList.flatMap trees) r.cursor := by
  rw [clause] at returned
  split at returned
  next token c₁ h₁ found =>
    obtain ⟨⟨value, c₂, h₂⟩, itemRead, finished⟩ := bind_eq_ok returned
    cases finished
    have behind := (each c₁ _ _ itemRead).lead (accept?_tells found).leads
    simpa using behind
  next =>
    cases returned
    exact .nil (.refl c)

end Cursor

/-! ### Annotations and fragments -/

theorem Annotation.read_between {c : Cursor} {r : Consumed c Annotation}
    (returned : Annotation.read c = .ok r) : Between c r.value.tree r.cursor := by
  obtain ⟨at_, rest, passes, -⟩ := read_eq_ok returned
  have plain := unbroken_of_read returned
  obtain ⟨⟨sign, c₁, h₁⟩, opened, returned⟩ := bind_eq_ok returned
  obtain ⟨⟨name, c₂, h₂⟩, named, returned⟩ := bind_eq_ok returned
  obtain ⟨⟨arguments, c₃, h₃⟩, listed, finished⟩ := bind_eq_ok returned
  cases finished
  exact AllBetween.leaf ⟨_, passes⟩ (by omega) plain

theorem Qualifiers.readFrom_between {origin c : Cursor} {within : c.size ≤ origin.size}
    {modifiers : ModifierSet} {annotations : List Annotation} {r : Reached origin Qualifiers}
    (returned : readFrom origin c within modifiers annotations = .ok r) :
    ∃ found, r.value.annotations = annotations.reverse ++ found ∧
      AllBetween c (found.map Annotation.tree) r.cursor := by
  induction c, within, modifiers, annotations using readFrom.induct origin with
  | case1 c within modifiers annotations next ih =>
    rw [readFrom, if_pos next] at returned
    obtain ⟨⟨marked, c₁, h₁⟩, annotationRead, returned⟩ := bind_eq_ok returned
    obtain ⟨found, same, all⟩ := ih marked c₁ h₁ returned
    have first := Annotation.read_between annotationRead
    exact ⟨marked :: found, by simp [same], .cons first all⟩
  | case2 c within modifiers annotations none m c₁ h₁ taken ih =>
    rw [readFrom, if_neg none, taken] at returned
    obtain ⟨t, passed⟩ := modifier?_eq_some taken
    obtain ⟨found, same, all⟩ := ih returned
    exact ⟨found, same, all.lead ⟨_, passed⟩⟩
  | case3 c within modifiers annotations none noModifier t c₁ h₁ taken ih =>
    rw [readFrom, if_neg none, noModifier, taken] at returned
    obtain ⟨words, passed⟩ := passSealed?_eq_some taken
    obtain ⟨found, same, all⟩ := ih returned
    exact ⟨found, same, all.lead ⟨_, passed⟩⟩
  | case4 c within modifiers annotations none noModifier notSealed =>
    rw [readFrom, if_neg none, noModifier, notSealed] at returned
    cases returned
    exact ⟨[], by simp, .nil (.refl c)⟩

theorem Qualifiers.read_between {c : Cursor} {r : Reached c Qualifiers}
    (returned : Qualifiers.read c = .ok r) :
    AllBetween c (r.value.annotations.map Annotation.tree) r.cursor := by
  obtain ⟨found, same, all⟩ := readFrom_between returned
  rw [List.reverse_nil, List.nil_append] at same
  rwa [same]

theorem Fragment.readValue_between {c : Cursor} {what : String} {stops : List Token → Bool}
    {r : Consumed c Fragment} (returned : readValue c what stops = .ok r) :
    Between c r.value.tree r.cursor := by
  obtain ⟨first, more, passes, cut, -⟩ := readValue_eq_ok returned
  rw [cut]
  exact .fragment (.refl c) passes (.refl _)

theorem Fragment.readStatement_between {c : Cursor} {r : Consumed c Fragment}
    (returned : readStatement c = .ok r) : Between c r.value.tree r.cursor := by
  obtain ⟨first, more, dropped, ended, passes, cut, -⟩ := readStatement_eq_ok returned
  -- The semicolon that ends a statement is behind what it spans.
  obtain ⟨c₁, kept, left⟩ := passes.split
  rw [cut]
  exact .fragment (.refl c) kept ⟨dropped, left⟩

/-! ### Types -/

theorem TypeRef.Dimensioned.leads {c d : Cursor} {k : Nat} (pairs : Dimensioned c k d) : c.Leads d := by
  obtain ⟨taken, passes, -⟩ := @tells IsWord _ _ _ pairs
  exact ⟨taken, passes⟩

theorem Annotation.pass_leads {c : Cursor} {r : Reached c Unit} (returned : pass c = .ok r) :
    c.Leads r.cursor := by
  obtain ⟨taken, passes, -⟩ := pass_eq_ok returned
  exact ⟨taken, passes⟩

mutual

theorem TypeRef.read_between {c : Cursor} {r : Consumed c TypeRef}
    (returned : TypeRef.read c = .ok r) : Between c r.value.tree r.cursor := by
  have plain := TypeRef.unbroken_of_read returned
  obtain ⟨t, d, h⟩ := r
  obtain ⟨c₁, h₁, base, c₂, k, annotated, based, pairs, rfl⟩ := TypeRef.read_eq_ok_iff.mp ⟨h, returned⟩
  have parts := (TypeRef.Base.between based).extend pairs.leads
  have size₁ := based.size_lt
  have size₂ := pairs.size_le
  rw [TypeRef.tree_eq]
  have before := Annotation.pass_leads annotated
  exact (parts.node (by omega) plain).lead before
termination_by 5 * c.size + 3

theorem TypeRef.Base.between {c d : Cursor} {t : TypeRef} (base : TypeRef.Base c t d) :
    AllBetween c t.parts d := by
  cases base with
  | primitive found => exact .nil ⟨_, (TypeRef.primitive?_eq_some found).1⟩
  | @name _ c₁ _ _ _ _ found parts =>
    have noOuter : AllBetween c ((none : Option TypeRef).toList.map TypeRef.tree) c₁ :=
      .nil (Cursor.accept?_tells found).leads
    exact TypeRef.Parts.between parts noOuter (by omega)
termination_by 5 * c.size + 2

/-- What was read of a type starts at `c₀`; what it is enclosed by stands there. -/
theorem TypeRef.Parts.between {c₀ c d : Cursor} {name : String} {enclosing : Option TypeRef}
    {t : TypeRef} (parts : TypeRef.Parts c₀.location c name enclosing t d)
    (before : AllBetween c₀ (enclosing.toList.map TypeRef.tree) c) (shorter : c.size < c₀.size) :
    AllBetween c₀ t.parts d := by
  cases parts with
  | last optional _ => exact before.append (TypeArgument.Optional.between optional)
  | longer optional found later =>
    have size := optional.size_le
    obtain ⟨dot, passedPair, -⟩ := Cursor.acceptPair?_eq_some found
    have sofar := before.append (TypeArgument.Optional.between optional)
    rw [List.map_nil, List.append_nil] at sofar
    exact TypeRef.Parts.between later (sofar.extend ⟨_, passedPair⟩) (by omega)
  | @member _ c₁ c₂ _ _ _ arguments _ _ _ optional nonempty found later =>
    have size := optional.size_le
    obtain ⟨dot, passedPair, -⟩ := Cursor.acceptPair?_eq_some found
    have plain : c₁.Unbroken := by
      cases optional with
      | absent => exact absurd rfl nonempty
      | listed _ read => exact TypeArgument.unbroken_of_readAll read
    -- What was read so far, up to its arguments, encloses the type that follows.
    let outer : TypeRef := ⟨name, arguments, 0, enclosing, ⟨c₀.location, c₁.lastStop⟩⟩
    have outerBetween : Between c₀ outer.tree c₁ := by
      rw [TypeRef.tree_eq]
      exact (before.append (TypeArgument.Optional.between optional)).node (by omega) plain
    have enclosed : AllBetween c₀ ((some outer).toList.map TypeRef.tree) c₂ :=
      (AllBetween.one outerBetween).extend ⟨_, passedPair⟩
    exact TypeRef.Parts.between later enclosed (by omega)
termination_by 5 * c.size + 2

theorem TypeArgument.Optional.between {c d : Cursor} {arguments : List TypeArgument}
    (optional : TypeArgument.Optional c arguments d) :
    AllBetween c (arguments.map TypeArgument.tree) d := by
  cases optional with
  | absent => exact .nil (.refl c)
  | listed _ read => exact TypeArgument.readAll_between read
termination_by 5 * c.size + 1

theorem TypeArgument.readAll_between {c : Cursor} {r : Consumed c (List TypeArgument)}
    (returned : TypeArgument.readAll c = .ok r) :
    AllBetween c (r.value.map TypeArgument.tree) r.cursor := by
  obtain ⟨arguments, d, h⟩ := r
  cases TypeArgument.readAll_eq_ok_iff.mp ⟨h, returned⟩ with
  | empty opened found =>
    have opening := (Cursor.expect_tells opened).leads
    exact .nil (opening.trans (Cursor.accept?_tells found).leads)
  | listed opened _ listed closed =>
    have inner := Cursor.sepBy_betweenEach TypeArgument.tree
      (fun c' within r read => TypeArgument.read_between read) listed
    exact (inner.extend (Cursor.expect_tells closed).leads).lead (Cursor.expect_tells opened).leads
termination_by 5 * c.size

theorem TypeArgument.read_between {c : Cursor} {r : Consumed c TypeArgument}
    (returned : TypeArgument.read c = .ok r) : Between c r.value.tree r.cursor := by
  obtain ⟨a, d, h⟩ := r
  obtain ⟨c₁, h₁, annotated, form⟩ := TypeArgument.read_eq_ok_iff.mp ⟨h, returned⟩
  have before := Annotation.pass_leads annotated
  refine Between.lead ?_ before
  cases form with
  | @wildcard _ _ h₂ found _ _ =>
    exact AllBetween.leaf (Cursor.accept?_tells found).leads h₂ (Cursor.unbroken_of_accept? found rfl)
  | @bounded _ _ _ bound _ c₃ _ _ _ _ found word read =>
    have way : c₁.Leads c₃ :=
      (Cursor.accept?_tells found).leads.trans (Cursor.accept?_tells word).leads
    have inner : AllBetween c₁ [bound.tree] d :=
      (AllBetween.one (TypeRef.read_between read)).lead way
    exact inner.node (by omega) (TypeRef.unbroken_of_read read)
  | type _ read => exact TypeRef.read_between read
termination_by 5 * c.size + 4

end

theorem TypeRef.readList_between {c : Cursor} {r : Consumed c (List TypeRef)}
    (returned : TypeRef.readList c = .ok r) : AllBetween c (r.value.map TypeRef.tree) r.cursor :=
  Cursor.sepBy_betweenEach TypeRef.tree (fun _ _ _ read => TypeRef.read_between read) returned

theorem TypeRef.readClause_between {c : Cursor} {keyword : Kind} {r : Reached c (List TypeRef)}
    (returned : TypeRef.readClause c keyword = .ok r) :
    AllBetween c (r.value.map TypeRef.tree) r.cursor := by
  obtain ⟨⟨types, c₁, h₁⟩, listed, finished⟩ := bind_eq_ok returned
  cases finished
  have all := Cursor.clause_between (List.map TypeRef.tree)
    (fun _ _ _ read => TypeRef.readList_between read) listed
  cases types with
  | none => exact all
  | some types => simpa using all

theorem TypeParameter.read_between {c : Cursor} {r : Consumed c TypeParameter}
    (returned : TypeParameter.read c = .ok r) : Between c r.value.tree r.cursor := by
  have plain := unbroken_of_read returned
  obtain ⟨⟨_, c₁, h₁⟩, annotated, returned⟩ := bind_eq_ok returned
  obtain ⟨⟨name, c₂, h₂⟩, named, returned⟩ := bind_eq_ok returned
  obtain ⟨⟨bounds, c₃, h₃⟩, extended, finished⟩ := bind_eq_ok returned
  cases finished
  have all := Cursor.clause_between (List.map TypeRef.tree) (fun _ _ _ read =>
    Cursor.sepBy_betweenEach TypeRef.tree (fun _ _ _ read => TypeRef.read_between read) read) extended
  have bounded : AllBetween c₂ ((bounds.getD []).map TypeRef.tree) c₃ := by
    cases bounds with
    | none => exact all
    | some types => simpa using all
  have inner := bounded.lead (Cursor.identifier_tells named).leads
  have skipped := Annotation.pass_leads annotated
  exact (inner.node (by omega) plain).lead skipped

theorem TypeParameter.readAll_between {c : Cursor} {r : Reached c (List TypeParameter)}
    (returned : TypeParameter.readAll c = .ok r) :
    AllBetween c (r.value.map TypeParameter.tree) r.cursor := by
  rw [TypeParameter.readAll] at returned
  split at returned
  next =>
    cases returned
    exact .nil (.refl c)
  next less c₁ h₁ found =>
    obtain ⟨⟨parameters, c₂, h₂⟩, listed, returned⟩ := bind_eq_ok returned
    obtain ⟨⟨greater, c₃, h₃⟩, closed, finished⟩ := bind_eq_ok returned
    cases finished
    have inner := Cursor.sepBy_betweenEach TypeParameter.tree
      (fun _ _ _ read => TypeParameter.read_between read) listed
    exact (inner.extend (Cursor.expect_tells closed).leads).lead (Cursor.accept?_tells found).leads

/-! ### Parameters and fields -/

theorem Parameter.ReadAs.between {c d : Cursor} {v : Option Parameter} (readAs : ReadAs c v d) :
    AllBetween c (v.toList.map Parameter.tree) d := by
  have leads : c.Leads d := (readAs.tells fun _ word => word).leads
  cases readAs with
  | receiver => exact .nil leads
  | @named q type variadic name n c₄ c₅ d h₅ h₆ typed _ named counted =>
    obtain ⟨c₁, c₂, c₃, _, _, _, qualified, typeRead, annotated, mayPass⟩ := typed
    have front : AllBetween c (q.annotations.map Annotation.tree ++ [type.tree]) c₂ :=
      (Qualifiers.read_between qualified).append (.one (TypeRef.read_between typeRead))
    have dimensions : c₅.Leads d := by
      have tells : c₅.Leads c₅.dimensions.cursor := (Cursor.dimensions_tells c₅).leads
      rwa [counted] at tells
    have marked : c₃.Leads c₄ := mayPass.tells.leads
    have markers := Annotation.pass_leads annotated
    have way : c₂.Leads d :=
      markers.trans (marked.trans ((Cursor.identifier_tells named).leads.trans dimensions))
    have shorter := way.size_le
    have plain : d.Unbroken := by
      have plain := (Cursor.unbroken_of_identifier named).dimensions
      rwa [counted] at plain
    have whole := (front.extend way).node (by omega) plain
    rw [Option.toList_some, List.map_singleton, Parameter.tree, TypeRef.tree_addDimensions]
    exact .one whole

theorem Parameter.readAll_between {c : Cursor} {r : Consumed c (List Parameter)}
    (returned : Parameter.readAll c = .ok r) :
    AllBetween c (r.value.map Parameter.tree) r.cursor := by
  obtain ⟨⟨opening, c₁, h₁⟩, opened, returned⟩ := bind_eq_ok returned
  obtain ⟨⟨parameters, c₂, h₂⟩, listed, returned⟩ := bind_eq_ok returned
  obtain ⟨⟨closing, c₃, h₃⟩, closed, finished⟩ := bind_eq_ok returned
  cases finished
  have inner : AllBetween c₁ (parameters.map Parameter.tree) c₂ := by
    split at listed
    next =>
      cases listed
      exact .nil (.refl c₁)
    next =>
      obtain ⟨⟨found, c', h'⟩, separated, finished⟩ := bind_eq_ok listed
      cases finished
      have all := Cursor.sepBy_between (fun p => p.toList.map Parameter.tree)
        (fun _ _ r read => (Parameter.read_eq_ok_iff.mp ⟨r.shorter, read⟩).between) separated
      have same (ps : List (Option Parameter)) : ps.flatMap (fun p => p.toList.map Parameter.tree) =
          (ps.filterMap id).map Parameter.tree := by
        induction ps with
        | nil => rfl
        | cons p ps ih => cases p <;> simp [ih]
      rwa [same] at all
  exact (inner.extend (Cursor.expect_tells closed).leads).lead (Cursor.expect_tells opened).leads

theorem Declarator.readRest_between {name : String} {c : Cursor} {r : Reached c Declarator}
    (returned : Declarator.readRest name c = .ok r) :
    AllBetween c (r.value.initializer.toList.map Fragment.tree) r.cursor ∧
      r.value.stop = r.cursor.lastStop := by
  obtain ⟨⟨initializer, c₂, h₂⟩, assigned, finished⟩ := bind_eq_ok returned
  cases finished
  have all := Cursor.clause_between (fun f => [Fragment.tree f])
    (fun _ _ _ read => .one (Fragment.readValue_between read)) assigned
  rw [← List.map_eq_flatMap] at all
  exact ⟨all.lead (Cursor.dimensions_tells c).leads, rfl⟩

/-- The fields of a declaration start where it does, and the trees of its annotations and its type
are part of each of them. -/
theorem Declarator.readAll_between {c₀ : Cursor} {front : List SpanTree} {origin c : Cursor}
    {within : c.size ≤ origin.size} {name : String} {read : List Declarator}
    {r : Consumed origin (List Declarator)} (before : AllBetween c₀ front c)
    (shorter : c.size < c₀.size)
    (returned : Declarator.readAll origin c within name read = .ok r) :
    c.Leads r.cursor ∧ ∃ found, r.value = read.reverse ++ found ∧
      ∀ d ∈ found, Between c₀ (.node true ⟨c₀.location, d.stop⟩
        (front ++ d.initializer.toList.map Fragment.tree)) r.cursor := by
  induction c, within, name, read using Declarator.readAll.induct origin with
  | case1 c within name read ih =>
    rw [Declarator.readAll] at returned
    obtain ⟨⟨declarator, c₁, h₁⟩, restRead, returned⟩ := bind_eq_ok returned
    obtain ⟨valued, stop⟩ := Declarator.readRest_between restRead
    have here := before.append valued
    -- The field ends behind its own initializer, and other declarators may follow.
    have field : Between c₀ (.node true ⟨c₀.location, declarator.stop⟩
        (front ++ declarator.initializer.toList.map Fragment.tree)) c₁ := by
      rw [stop]
      exact here.field (Nat.lt_of_le_of_lt h₁ shorter)
    have way : c.Leads c₁ := valued.leads
    dsimp only at returned
    split at returned
    next comma c₂ h₂ accepted =>
      obtain ⟨⟨next, c₃, h₃⟩, named, returned⟩ := bind_eq_ok returned
      have further : c₁.Leads c₃ :=
        (Cursor.accept?_tells accepted).leads.trans (Cursor.identifier_tells named).leads
      obtain ⟨leads, found, same, each⟩ := ih declarator c₁ h₁ c₂ h₂ next c₃ h₃
        (before.extend (way.trans further)) (by omega) returned
      refine ⟨way.trans (further.trans leads), declarator :: found, by simp [same], ?_⟩
      rw [List.forall_mem_cons]
      exact ⟨field.extend (further.trans leads), each⟩
    next =>
      obtain ⟨⟨semicolon, c₂, h₂⟩, closed, finished⟩ := bind_eq_ok returned
      cases finished
      have ended : c₁.Leads c₂ := (Cursor.expect_tells closed).leads
      refine ⟨way.trans ended, [declarator], by simp, ?_⟩
      rw [List.forall_mem_singleton]
      exact field.extend ended

/-! ### Blocks -/

theorem Block.CutsInto.leads {c d : Cursor} {statements : List BodyStatement}
    (cuts : CutsInto c statements d) : c.Leads d := by
  induction cuts with
  | closed passes _ => exact ⟨_, passes⟩
  | empty passes _ _ ih => exact .trans ⟨_, passes⟩ ih
  | block passes _ _ _ ihInner ih => exact .trans ⟨_, passes⟩ (ihInner.trans ih)
  | fragment _ read _ ih => exact (Fragment.readStatement_between read).leads.trans ih

private theorem size_lt_of_passes {c c₁ d : Cursor} {t : Token} (passes : c.Passes [t] c₁)
    (leads : c₁.Leads d) : d.size < c.size := by
  have first := passes.size_eq
  have later := leads.size_le
  rw [List.length_singleton] at first
  omega

theorem Block.CutsInto.between {c d : Cursor} {statements : List BodyStatement}
    (cuts : CutsInto c statements d) : AllBetween c (BodyStatement.trees statements) d := by
  induction cuts with
  | closed passes _ =>
    rw [BodyStatement.trees]
    exact .nil ⟨_, passes⟩
  | empty passes _ _ ih =>
    rw [BodyStatement.trees]
    exact ih.lead ⟨_, passes⟩
  | block passes _ inner _ ihInner ih =>
    rw [BodyStatement.trees, Block.tree]
    have statements := ihInner.lead ⟨_, passes⟩
    exact .cons (statements.node (size_lt_of_passes passes inner.leads) inner.unbroken) ih
  | fragment _ read _ ih =>
    rw [BodyStatement.trees]
    exact .cons (Fragment.readStatement_between read) ih

theorem Block.read_between {c : Cursor} {r : Consumed c Block} (returned : Block.read c = .ok r) :
    Between c r.value.tree r.cursor := by
  obtain ⟨⟨t, c₁, passes, -, inner⟩, span⟩ := cuts_of_read returned
  have statements := inner.between.lead ⟨_, passes⟩
  rw [Block.tree_eq, span]
  exact statements.node (size_lt_of_passes passes inner.leads) inner.unbroken

/-! ### Methods and constructors -/

theorem Method.readRest_between {c₀ c : Cursor} {q : Qualifiers} {ps : List TypeParameter}
    {type : TypeRef} {name : String} {r : Consumed c Method}
    (front : AllBetween c₀ (q.annotations.map Annotation.tree ++
      (ps.map TypeParameter.tree ++ [type.tree])) c) (shorter : c.size < c₀.size)
    (returned : Method.readRest q ps type name c₀.location c = .ok r) :
    Between c₀ r.value.tree r.cursor := by
  obtain ⟨⟨parameters, c₁, h₁⟩, listed, returned⟩ := bind_eq_ok returned
  obtain ⟨⟨exceptions, c₃, h₃⟩, thrown, returned⟩ := bind_eq_ok returned
  obtain ⟨⟨body, c₄, h₄⟩, bodyRead, finished⟩ := bind_eq_ok returned
  cases finished
  obtain ⟨bodyBetween, plain⟩ : AllBetween c₃ (body.toList.map Block.tree) c₄ ∧ c₄.Unbroken := by
    split at bodyRead
    next =>
      obtain ⟨⟨block, c', h'⟩, blockRead, finished⟩ := bind_eq_ok bodyRead
      cases finished
      exact ⟨.one (Block.read_between blockRead), Block.unbroken_of_read blockRead⟩
    next =>
      obtain ⟨⟨semicolon, c', h'⟩, ended, finished⟩ := bind_eq_ok bodyRead
      cases finished
      exact ⟨.nil (Cursor.expect_tells ended).leads, Cursor.unbroken_of_expect ended rfl⟩
  have thrownBetween : AllBetween c₁ (exceptions.map TypeRef.tree) c₃ :=
    (TypeRef.readClause_between thrown).lead (Cursor.dimensions_tells c₁).leads
  have behind : AllBetween c _ c₄ :=
    (Parameter.readAll_between listed).append (thrownBetween.append bodyBetween)
  have whole := (front.append behind).node
    (Nat.lt_of_le_of_lt behind.leads.size_le shorter) plain
  rw [Method.tree, TypeRef.tree_addDimensions]
  simpa only [List.append_assoc, List.singleton_append] using whole

theorem Constructor.readRest_between {c₀ c : Cursor} {q : Qualifiers} {ps : List TypeParameter}
    {r : Consumed c Constructor}
    (front : AllBetween c₀ (q.annotations.map Annotation.tree ++ ps.map TypeParameter.tree) c)
    (returned : Constructor.readRest q ps c₀.location c = .ok r) :
    Between c₀ r.value.tree r.cursor := by
  obtain ⟨⟨name, c₁, h₁⟩, named, returned⟩ := bind_eq_ok returned
  obtain ⟨⟨parameters, c₂, h₂⟩, listed, returned⟩ := bind_eq_ok returned
  obtain ⟨⟨exceptions, c₃, h₃⟩, thrown, returned⟩ := bind_eq_ok returned
  obtain ⟨⟨body, c₄, h₄⟩, bodyRead, finished⟩ := bind_eq_ok returned
  cases finished
  have parts : AllBetween c₁ _ c₄ := (Parameter.readAll_between (mapError_eq_ok listed)).append
    ((TypeRef.readClause_between thrown).append (.one (Block.read_between bodyRead)))
  have behind : AllBetween c _ c₄ := parts.lead (Cursor.identifier_tells named).leads
  have starts := front.leads.size_le
  have whole := (front.append behind).node (by omega) (Block.unbroken_of_read bodyRead)
  rw [Constructor.tree]
  simpa only [List.append_assoc] using whole

theorem NominalDecl.readRest_between {c₀ c : Cursor} {kind : NominalKind} {q : Qualifiers}
    {r : Consumed c NominalDecl} (front : AllBetween c₀ (q.annotations.map Annotation.tree) c)
    (returned : NominalDecl.readRest kind q c₀.location c = .ok r) :
    Between c₀ r.value.tree r.cursor := by
  have leads : c.Leads r.cursor := (NominalDecl.readRest_tells returned).leads
  obtain ⟨⟨name, c₁, h₁⟩, named, returned⟩ := bind_eq_ok returned
  obtain ⟨⟨_, c₂, h₂⟩, passed, finished⟩ := bind_eq_ok returned
  cases finished
  have behind : c.Leads c₂ := leads
  have starts := front.leads.size_le
  exact (front.extend behind).node (by omega) (NominalDecl.unbroken_of_passBody passed)

/-! ### Members and types -/

theorem Cursor.Qualifies.between {c d : Cursor} {q : Qualifiers} (qualifies : c.Qualifies q d) :
    AllBetween c (q.annotations.map Annotation.tree) d := by
  obtain ⟨-, -, h, qualified⟩ := qualifies
  exact Qualifiers.read_between qualified

theorem Cursor.Names.between {c d : Cursor} {q : Qualifiers} {ps : List TypeParameter}
    {type : TypeRef} {name : String} (names : c.Names q ps type name d) :
    AllBetween c (q.annotations.map Annotation.tree ++
      (ps.map TypeParameter.tree ++ [type.tree])) d ∧ d.size < c.size := by
  obtain ⟨c₁, c₂, c₃, h₂, h₃, h₄, qualifies, -, listed, -, typed, named⟩ := names
  have starts := qualifies.leads.size_le
  have typedBetween := (AllBetween.one (TypeRef.read_between typed)).extend
    (Cursor.identifier_tells named).leads
  refine ⟨?_, by omega⟩
  exact qualifies.between.append ((TypeParameter.readAll_between listed).append typedBetween)

/-- The heads of classes and interfaces: type parameters and types, in their order. -/
theorem Cursor.HeadsClass.between {c d : Cursor} {name : String} {ps : List TypeParameter}
    {super : Option TypeRef} {is : List TypeRef} (heads : c.HeadsClass name ps super is d) :
    AllBetween c (ps.map TypeParameter.tree ++ (super.toList.map TypeRef.tree ++
      is.map TypeRef.tree)) d := by
  obtain ⟨t, c₁, c₂, c₃, c₄, c₅, h₁, h₂, h₃, h₄, h₅, h₆, word, named, listed, extended, implemented,
    permitted⟩ := heads
  have opening := (Cursor.accept?_tells word).leads.trans
    (Cursor.identifier_tells named).leads
  have closing := (TypeDecl.passPermits_tells isWord_imp permitted).leads
  have superBetween := Cursor.clause_between (fun t => [TypeRef.tree t])
    (fun _ _ _ read => .one (TypeRef.read_between read)) extended
  rw [← List.map_eq_flatMap] at superBetween
  have types := superBetween.append ((TypeRef.readClause_between implemented).extend closing)
  exact ((TypeParameter.readAll_between listed).append types).lead opening

theorem Cursor.HeadsInterface.between {c d : Cursor} {name : String} {ps : List TypeParameter}
    {is : List TypeRef} (heads : c.HeadsInterface name ps is d) :
    AllBetween c (ps.map TypeParameter.tree ++ is.map TypeRef.tree) d := by
  obtain ⟨t, c₁, c₂, c₃, c₄, h₁, h₂, h₃, h₄, h₅, noClass, word, named, listed, extended,
    permitted⟩ := heads
  have opening := (Cursor.accept?_tells word).leads.trans
    (Cursor.identifier_tells named).leads
  have closing := (TypeDecl.passPermits_tells isWord_imp permitted).leads
  have types := (TypeRef.readClause_between extended).extend closing
  exact ((TypeParameter.readAll_between listed).append types).lead opening

mutual

theorem TypeDecl.readRest_between {c₀ c d : Cursor} {q : Qualifiers} {decl : TypeDecl}
    (front : AllBetween c₀ (q.annotations.map Annotation.tree) c)
    (read : Returns (TypeDecl.readRest q c₀.location) c decl d) : Between c₀ decl.tree d := by
  obtain ⟨h, returned⟩ := read
  have starts := front.leads.size_le
  cases TypeDecl.readAs_of_readRest returned with
  | @classDecl name ps super is body c₆ _ h₇ heads bodyRead =>
    have shorter := heads.size_lt
    have members := BodyMember.readBody_between ⟨h₇, bodyRead⟩
    have plain := BodyMember.unbroken_of_readBody ⟨h₇, bodyRead⟩
    have whole := (front.append (heads.between.append members)).node (by omega) plain
    rw [TypeDecl.tree, BodyMember.trees_eq_map]
    simpa only [List.append_assoc] using whole
  | @interfaceDecl name ps is body c₅ _ h₆ heads bodyRead =>
    have shorter := heads.size_lt
    have members := BodyMember.readBody_between ⟨h₆, bodyRead⟩
    have plain := BodyMember.unbroken_of_readBody ⟨h₆, bodyRead⟩
    have whole := (front.append (heads.between.append members)).node (by omega) plain
    have same : (body.map BodyMember.inInterface).map BodyMember.tree = body.map BodyMember.tree := by
      rw [List.map_map]
      exact List.map_congr_left fun part _ => part.tree_inInterface
    rw [TypeDecl.tree, BodyMember.trees_eq_map, same]
    simpa only [List.append_assoc] using whole
  | nominal _ _ known read =>
    rw [TypeDecl.tree]
    have way := (NominalDecl.kind?_tells known).leads
    exact NominalDecl.readRest_between (front.extend way) read
termination_by 4 * c.size

theorem BodyMember.readBody_between {c d : Cursor} {parts : List BodyMember}
    (read : Returns BodyMember.readBody c parts d) : AllBetween c (parts.map BodyMember.tree) d := by
  obtain ⟨t, c₁, h₁, opened, listed⟩ := BodyMember.readBody_eq_ok_iff.mp read
  exact (BodyMember.Listed.between listed).lead (Cursor.expect_tells opened).leads
termination_by 4 * c.size + 3

theorem BodyMember.Listed.between {c d : Cursor} {parts : List BodyMember}
    (listed : BodyMember.Listed c parts d) : AllBetween c (parts.map BodyMember.tree) d := by
  cases listed with
  | closed closing => exact .nil (Cursor.accept?_tells closing).leads
  | semicolon _ ended rest =>
    exact (BodyMember.Listed.between rest).lead (Cursor.accept?_tells ended).leads
  | @more _ c₁ _ h₁ found parts _ _ read rest =>
    rw [List.map_append]
    exact (BodyMember.read_between ⟨h₁, read⟩).append (BodyMember.Listed.between rest)
termination_by 4 * c.size + 2

theorem BodyMember.read_between {c d : Cursor} {parts : List BodyMember}
    (read : Returns BodyMember.read c parts d) : AllBetween c (parts.map BodyMember.tree) d := by
  obtain ⟨h, returned⟩ := read
  cases BodyMember.readAs_of_read returned with
  | initializer _ read =>
    have body := AllBetween.one (Block.read_between read)
    exact .one (body.node h (Block.unbroken_of_read read))
  | static _ _ expected read =>
    have body := (AllBetween.one (Block.read_between read)).lead (Cursor.expect_tells expected).leads
    exact .one (body.node h (Block.unbroken_of_read read))
  | @type q decl c₁ _ h₂ qualifies _ read =>
    obtain ⟨h₁, -⟩ := qualifies.qualified
    rw [List.map_singleton, BodyMember.tree]
    exact .one (TypeDecl.readRest_between qualifies.between ⟨h₂, read⟩)
  | constructor qualifies _ listed _ read =>
    have front := qualifies.between.append (TypeParameter.readAll_between listed)
    exact .one (Constructor.readRest_between front read)
  | method names _ read =>
    obtain ⟨front, shorter⟩ := names.between
    exact .one (Method.readRest_between front shorter read)
  | @fields q type name ds c₄ _ h₅ names _ read =>
    obtain ⟨front, shorter⟩ := names.between
    rw [List.map_nil, List.nil_append] at front
    obtain ⟨leads, found, same, each⟩ := Declarator.readAll_between front shorter read
    obtain rfl : ds = found := same
    -- The fields of one declaration start at the same place and all stand between the two cursors.
    have starts : ∀ t ∈ (ds.map fun d => .field (d.field q type c.location)).map BodyMember.tree,
        t.isField = true ∧ t.span.start = c.location := by
      intro t member
      obtain ⟨part, listed, rfl⟩ := List.mem_map.mp member
      obtain ⟨declarator, _, rfl⟩ := List.mem_map.mp listed
      exact ⟨rfl, rfl⟩
    have stand : ∀ t ∈ (ds.map fun d => .field (d.field q type c.location)).map BodyMember.tree,
        Between c t d := by
      intro t member
      obtain ⟨part, listed, rfl⟩ := List.mem_map.mp member
      obtain ⟨declarator, declared, rfl⟩ := List.mem_map.mp listed
      have field := each declarator declared
      rw [List.append_assoc, List.singleton_append] at field
      rw [BodyMember.tree, Field.tree, Declarator.field, TypeRef.tree_addDimensions]
      exact field
    have all := AllBetween.fields (front.leads.trans leads) starts stand (.nil (.refl d))
    rwa [List.append_nil] at all
termination_by 4 * c.size + 1

end

/-! ### Units -/

theorem TypeDecl.read_between {c d : Cursor} {h : d.size < c.size} {decl : TypeDecl}
    (returned : TypeDecl.read c = .ok ⟨decl, d, h⟩) : Between c decl.tree d := by
  obtain ⟨⟨q, c₁, h₁⟩, qualified, returned⟩ := bind_eq_ok returned
  obtain ⟨⟨decl, c₂, h₂⟩, read, finished⟩ := bind_eq_ok returned
  cases finished
  exact TypeDecl.readRest_between (Qualifiers.read_between qualified) ⟨h₂, read⟩

theorem TypeDecl.Listed.between {c d : Cursor} {types : List TypeDecl} (listed : Listed c types d) :
    AllBetween c (types.map TypeDecl.tree) d := by
  induction listed with
  | ended => exact .nil (.refl _)
  | semicolon found _ ih => exact ih.lead (Cursor.accept?_tells found).leads
  | more _ read _ ih => exact .cons (TypeDecl.read_between read) ih

theorem PackageDecl.ReadAs.between {c d : Cursor} {v : Option PackageDecl} (readAs : ReadAs c v d) :
    AllBetween c (v.toList.map PackageDecl.tree) d := by
  cases readAs with
  | missing => exact .nil (.refl c)
  | @declared _ _ _ _ _ d _ _ _ found named ended =>
    have way : c.Leads d := (Cursor.accept?_tells found).leads.trans
      ((Cursor.dottedName_tells named).leads.trans (Cursor.expect_tells ended).leads)
    exact .one (AllBetween.leaf way (by omega) (Cursor.unbroken_of_expect ended rfl))

theorem ImportDecl.ReadAs.between {c₀ c d : Cursor} {decl : ImportDecl} (before : c₀.Leads c)
    (readAs : ReadAs c₀.location c decl d) (shorter : d.size < c₀.size) :
    Between c₀ decl.tree d := by
  have passed : c.Leads d := readAs.tells.leads
  obtain ⟨_, _, _, ended⟩ := readAs
  exact AllBetween.leaf (before.trans passed) shorter (Cursor.unbroken_of_expect ended rfl)

theorem ImportDecl.Listed.between {c d : Cursor} {decls : List ImportDecl} (listed : Listed c decls d) :
    AllBetween c (decls.map ImportDecl.tree) d := by
  induction listed with
  | ended => exact .nil (.refl _)
  | more found read _ ih =>
    have readAs := ImportDecl.readRest_eq_ok_iff.mp ⟨_, read⟩
    exact .cons (readAs.between (Cursor.accept?_tells found).leads (by omega)) ih

theorem Preamble.read_between {c : Cursor} {r : Reached c Preamble}
    (returned : Preamble.read c = .ok r) :
    AllBetween c (r.value.package.toList.map PackageDecl.tree ++
      r.value.imports.map ImportDecl.tree) r.cursor := by
  obtain ⟨_, package, imports⟩ := Preamble.read_eq_ok_iff.mp ⟨r.notLonger, returned⟩
  exact package.between.append imports.between

/-- The package, the imports and the types of a unit stand between its first token and its last. -/
theorem CompilationUnit.ReadAs.between {c d : Cursor} {unit : CompilationUnit}
    (readAs : ReadAs c unit d) :
    AllBetween c unit.parts d ∧ unit.span = ⟨c.location, d.lastStop⟩ := by
  obtain ⟨preamble, c₁, h₁, types, preambleRead, listed, rfl⟩ := readAs
  have parts := (Preamble.read_between preambleRead).append listed.between
  rw [List.append_assoc] at parts
  exact ⟨parts, rfl⟩

end TestDouble
