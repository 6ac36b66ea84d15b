import TestDouble.Proofs.Echo
import TestDouble.Proofs.MemberReading

/-!
# Two readings of declarations

On matching tokens the readers of declarations do the same, up to the reader of a whole unit. The
errors that a reading ends with are the same but for their places.
-/

namespace TestDouble

/-! ### Types and type variables in declarations -/

section

variable {view : String → String} {c c' : Cursor}

theorem TypeRef.readList_echo (m : c.Matches view c') :
    Echo (Consumed.Echoes view (List.map withoutSpans)) (readList c) (readList c') :=
  m.sepBy fun _ _ _ _ m => read_echo m

theorem TypeRef.readClause_echo (m : c.Matches view c') (keyword : Kind) :
    Echo (Reached.Echoes view (List.map withoutSpans)) (readClause c keyword)
      (readClause c' keyword) := by
  refine (m.clause fun _ _ _ _ m => readList_echo m).nextReached
    fun types c₁ h₁ types' c₁' h₁' same m₁ => ?_
  refine .ok ⟨?_, m₁⟩
  cases types <;> cases types' <;> simp_all

theorem TypeParameter.read_echo (m : c.Matches view c') :
    Echo (Consumed.Echoes view withoutSpans) (read c) (read c') := by
  have annotated := Annotation.pass_echo m
  refine annotated.nextReached fun _ c₁ h₁ _ c₁' h₁' _ m₁ => ?_
  refine m₁.identifier.next fun name c₂ h₂ name' c₂' h₂' sameName m₂ => ?_
  obtain rfl : name = name' := sameName
  refine (m₂.clause fun _ _ _ _ m => m.sepBy fun _ _ _ _ m => TypeRef.read_echo m).nextReached
    fun bounds c₃ h₃ bounds' c₃' h₃' same m₃ => ?_
  have listed : (bounds.getD []).map TypeRef.withoutSpans =
      (bounds'.getD []).map TypeRef.withoutSpans := by
    cases bounds <;> cases bounds' <;> simp_all
  exact .ok ⟨congrArg (TypeParameter.mk name · .synthetic) listed, m₃⟩

theorem TypeParameter.readAll_echo (m : c.Matches view c') :
    Echo (Reached.Echoes view (List.map withoutSpans)) (readAll c) (readAll c') := by
  rw [readAll, readAll]
  rcases m.accept? .less with ⟨none, none'⟩ | ⟨t, c₁, h₁, t', c₁', h₁', some, some', -, m₁⟩
  · simp only [none, none']
    exact .ok ⟨rfl, m⟩
  · simp only [some, some']
    refine (m₁.sepBy fun _ _ _ _ m => read_echo m).next fun ps c₂ h₂ ps' c₂' h₂' same m₂ => ?_
    refine (m₂.expect .greater _).next fun _ c₃ h₃ _ c₃' h₃' _ m₃ => ?_
    exact .ok ⟨same, m₃⟩

theorem TypeRef.withoutSpans_addDimensions {t t' : TypeRef}
    (same : t.withoutSpans = t'.withoutSpans) (n : Nat) :
    (t.addDimensions n).withoutSpans = (t'.addDimensions n).withoutSpans := by
  cases t
  cases t'
  simp only [addDimensions, withoutSpans_mk, TypeRef.mk.injEq] at same ⊢
  simp [same]

/-! ### Parameters and fields -/

theorem Cursor.Matches.optionally (m : c.Matches view c') (kind : Kind) :
    Reached.Echoes view id (c.optionally kind) (c'.optionally kind) := by
  simp only [Cursor.optionally]
  rcases m.accept? kind with ⟨none, none'⟩ | ⟨t, c₁, h₁, t', c₁', h₁', some, some', -, m₁⟩
  · simp only [none, none']
    exact ⟨rfl, m⟩
  · simp only [some, some']
    exact ⟨rfl, m₁⟩

theorem Parameter.readNamed_echo {origin origin' : Cursor} {q q' : Qualifiers} {type type' : TypeRef}
    {start start' : Location} {variadic variadic' : Bool} (m : c.Matches view c')
    (sameQ : q.through view = q'.through view) (sameType : type.withoutSpans = type'.withoutSpans)
    (sameMark : variadic = variadic') (within : c.size < origin.size)
    (within' : c'.size < origin'.size) :
    Echo (Consumed.Echoes view (Option.map (Parameter.through view)))
      (readNamed origin q type start variadic c within)
      (readNamed origin' q' type' start' variadic' c' within') := by
  rw [readNamed, readNamed]
  subst sameMark
  rcases m.accept? .thisWord with ⟨none, none'⟩ | ⟨t, c₅, h₅, t', c₅', h₅', some, some', -, m₅⟩
  · simp only [none, none']
    refine m.identifier.next fun name c₅ h₅ name' c₅' h₅' sameName m₅ => ?_
    obtain rfl : name = name' := sameName
    have counted := m₅.dimensions
    have sameCount : c₅.dimensions.value = c₅'.dimensions.value := counted.value
    obtain ⟨sameModifiers, sameAnnotations⟩ := Qualifiers.mk.inj sameQ
    refine .ok ⟨?_, counted.cursor⟩
    simp only [Option.map_some, Parameter.through, sameModifiers, sameAnnotations, sameCount,
      TypeRef.withoutSpans_addDimensions sameType]
  · simp only [some, some']
    exact .ok ⟨rfl, m₅⟩

theorem Parameter.read_echo (m : c.Matches view c') :
    Echo (Consumed.Echoes view (Option.map (Parameter.through view))) (read c) (read c') := by
  rw [read_eq, read_eq]
  refine (Qualifiers.read_echo m).nextReached fun q c₁ h₁ q' c₁' h₁' sameQ m₁ => ?_
  refine (TypeRef.read_echo m₁).next fun type c₂ h₂ type' c₂' h₂' sameType m₂ => ?_
  have annotated := Annotation.pass_echo m₂
  refine annotated.nextReached fun _ c₃ h₃ _ c₃' h₃' _ m₃ => ?_
  have marks := m₃.optionally .ellipsis
  exact Parameter.readNamed_echo marks.cursor sameQ sameType marks.value _ _

theorem Parameter.readAll_echo (m : c.Matches view c') :
    Echo (Consumed.Echoes view (List.map (Parameter.through view))) (readAll c) (readAll c') := by
  refine (m.expect .leftParen _).next fun _ c₁ h₁ _ c₁' h₁' _ m₁ => ?_
  have sameKept (ps ps' : List (Option Parameter))
      (same : ps.map (Option.map (Parameter.through view)) =
        ps'.map (Option.map (Parameter.through view))) :
      (ps.filterMap id).map (Parameter.through view) =
        (ps'.filterMap id).map (Parameter.through view) := by
    -- The receiver parameter is left out on both sides.
    have kept := congrArg (List.filterMap id) same
    rw [List.filterMap_map, List.filterMap_map, Function.id_comp] at kept
    rwa [List.map_filterMap, List.map_filterMap]
  have listed := m₁.items [] (List.filterMap id) (fun _ _ _ _ m => read_echo m) sameKept
  refine listed.nextReached fun ps c₂ h₂ ps' c₂' h₂' same m₂ => ?_
  refine (m₂.expect .rightParen _).next fun _ c₃ h₃ _ c₃' h₃' _ m₃ => ?_
  exact .ok ⟨same, m₃⟩

end

namespace Declarator

variable {view : String → String} {c c' : Cursor}

theorem comesNext_eq {ts ts' : List Token} (same : ts.map Token.lexeme = ts'.map Token.lexeme) :
    comesNext ts = comesNext ts' := by
  rcases ts with _ | ⟨t, _ | ⟨u, ts⟩⟩
  · obtain rfl : ts' = [] := List.map_eq_nil_iff.mp same.symm
    rfl
  · obtain ⟨t', us, rfl, -, later⟩ := Fragment.uncons_lexemes same
    obtain rfl : us = [] := List.map_eq_nil_iff.mp later.symm
    rfl
  · obtain ⟨t', us, rfl, first, later⟩ := Fragment.uncons_lexemes same
    obtain ⟨u', us, rfl, second, -⟩ := Fragment.uncons_lexemes later
    simp only [comesNext, Token.kind_eq_of_lexeme first, Token.kind_eq_of_lexeme second]

theorem endsInitializer_eq {ts ts' : List Token} (same : ts.map Token.lexeme = ts'.map Token.lexeme) :
    endsInitializer ts = endsInitializer ts' := by
  cases ts with
  | nil =>
    obtain rfl : ts' = [] := List.map_eq_nil_iff.mp same.symm
    rfl
  | cons t ts =>
    obtain ⟨t', us, rfl, lexeme, later⟩ := Fragment.uncons_lexemes same
    simp only [endsInitializer, Token.kind_eq_of_lexeme lexeme, comesNext_eq later]

theorem readRest_echo (m : c.Matches view c') (name : String) :
    Echo (Reached.Echoes view (Declarator.through view)) (readRest name c) (readRest name c') := by
  have counted := m.dimensions
  have sameCount : c.dimensions.value = c'.dimensions.value := counted.value
  refine (counted.cursor.clause fun _ _ _ _ m =>
    Fragment.readValue_echo m _ endsInitializer_eq).nextReached fun f c₂ h₂ f' c₂' h₂' same m₂ => ?_
  exact .ok ⟨congrArg₂ (Declarator.mk name · · .origin) sameCount same, m₂⟩

theorem readAll_echo {origin origin' c c' : Cursor} {within : c.size ≤ origin.size}
    {within' : c'.size ≤ origin'.size} (m : c.Matches view c') (name : String)
    {read read' : List Declarator}
    (sameRead : read.map (Declarator.through view) = read'.map (Declarator.through view)) :
    Echo (Consumed.Echoes view (List.map (Declarator.through view)))
      (readAll origin c within name read) (readAll origin' c' within' name read') := by
  rw [readAll, readAll]
  refine (readRest_echo m name).nextReached fun d c₁ h₁ d' c₁' h₁' same m₁ => ?_
  have sameNext : (d :: read).map (Declarator.through view) =
      (d' :: read').map (Declarator.through view) := by
    rw [List.map_cons, List.map_cons, sameRead, same]
  rcases m₁.accept? .comma with ⟨none, none'⟩ | ⟨t, c₂, h₂, t', c₂', h₂', some, some', -, m₂⟩
  · simp only [none, none']
    refine (m₁.expect .semicolon _).next fun _ c₂ h₂ _ c₂' h₂' _ m₂ => ?_
    refine .ok ⟨?_, m₂⟩
    rw [List.map_reverse, List.map_reverse, sameNext]
  · simp only [some, some']
    refine m₂.identifier.next fun next c₃ h₃ next' c₃' h₃' sameName m₃ => ?_
    obtain rfl : next = next' := sameName
    exact readAll_echo m₃ next sameNext
termination_by c.size
decreasing_by omega

theorem field_eq {q q' : Qualifiers} {type type' : TypeRef} (start start' : Location)
    (sameQ : q.through view = q'.through view) (sameType : type.withoutSpans = type'.withoutSpans)
    {d d' : Declarator} (same : d.through view = d'.through view) :
    (d.field q type start).through view = (d'.field q' type' start').through view := by
  obtain ⟨sameModifiers, sameAnnotations⟩ := Qualifiers.mk.inj sameQ
  obtain ⟨sameName, sameCount, sameInitializer, -⟩ := Declarator.mk.inj same
  simp only [field, Field.through, sameModifiers, sameAnnotations, sameName, sameCount,
    sameInitializer, TypeRef.withoutSpans_addDimensions sameType]

theorem fields_eq {v : View} {q q' : Qualifiers} {type type' : TypeRef} {start start' : Location}
    (sameQ : q.through v.text = q'.through v.text) (sameType : type.withoutSpans = type'.withoutSpans)
    {ds ds' : List Declarator}
    (same : ds.map (Declarator.through v.text) = ds'.map (Declarator.through v.text)) :
    (ds.map fun d => BodyMember.field (d.field q type start)).map (BodyMember.through v) =
      (ds'.map fun d => BodyMember.field (d.field q' type' start')).map
        (BodyMember.through v) := by
  induction ds generalizing ds' with
  | nil =>
    obtain rfl : ds' = [] := List.map_eq_nil_iff.mp same.symm
    rfl
  | cons d ds ih =>
    obtain ⟨d', rest, rfl, first, later⟩ := List.map_eq_cons_iff.mp same.symm
    simp only [List.map_cons, BodyMember.through, ih later.symm]
    rw [field_eq start start' sameQ sameType first.symm]

end Declarator

/-! ### Members and types -/

section

variable {v : View} (coarse : v.Coarse) {c c' : Cursor} {q q' : Qualifiers}
  {typeParameters typeParameters' : List TypeParameter} {start start' : Location}

include coarse

private theorem Method.readBody_echo (m : c.Matches v.text c') :
    Echo (Consumed.Echoes v.text (Option.map v.body))
      (if c.sees [.leftBrace] then do
          let ⟨block, c₁, h₁⟩ ← Block.read c
          return ⟨some block, c₁, h₁⟩
        else do
          let ⟨_, c₁, h₁⟩ ← c.expect .semicolon "'\x7b' or ';' after method declaration"
          return ⟨none, c₁, h₁⟩ : Reading (Option Block) c)
      (if c'.sees [.leftBrace] then do
          let ⟨block, c₁, h₁⟩ ← Block.read c'
          return ⟨some block, c₁, h₁⟩
        else do
          let ⟨_, c₁, h₁⟩ ← c'.expect .semicolon "'\x7b' or ';' after method declaration"
          return ⟨none, c₁, h₁⟩ : Reading (Option Block) c') := by
  rw [← m.sees_eq]
  split
  next =>
    refine (Block.read_echo m).next fun block c₁ h₁ block' c₁' h₁' same m₁ => ?_
    exact .ok ⟨congrArg some (coarse same), m₁⟩
  next =>
    refine (m.expect .semicolon _).next fun _ c₁ h₁ _ c₁' h₁' _ m₁ => ?_
    exact .ok ⟨rfl, m₁⟩

theorem Method.readRest_echo {returnType returnType' : TypeRef} (m : c.Matches v.text c')
    (sameQ : q.through v.text = q'.through v.text)
    (sameParameters : typeParameters.map TypeParameter.withoutSpans =
      typeParameters'.map TypeParameter.withoutSpans)
    (sameType : returnType.withoutSpans = returnType'.withoutSpans) (name : String) :
    Echo (Consumed.Echoes v.text (Method.through v))
      (readRest q typeParameters returnType name start c)
      (readRest q' typeParameters' returnType' name start' c') := by
  refine (Parameter.readAll_echo m).next fun ps c₁ h₁ ps' c₁' h₁' samePs m₁ => ?_
  have counted := m₁.dimensions
  have sameReturned : (returnType.addDimensions c₁.dimensions.value).withoutSpans =
      (returnType'.addDimensions c₁'.dimensions.value).withoutSpans := by
    rw [show c₁.dimensions.value = c₁'.dimensions.value from counted.value]
    exact TypeRef.withoutSpans_addDimensions sameType _
  refine (TypeRef.readClause_echo counted.cursor .throwsWord).nextReached
    fun es c₃ h₃ es' c₃' h₃' sameEs m₃ => ?_
  refine (Method.readBody_echo coarse m₃).next fun body c₄ h₄ body' c₄' h₄' sameBody m₄ => ?_
  obtain ⟨sameModifiers, sameAnnotations⟩ := Qualifiers.mk.inj sameQ
  refine .ok ⟨?_, m₄⟩
  rw [Cursor.dimensions, Cursor.dimensions] at sameReturned
  simp only [Method.through, sameModifiers, sameAnnotations, sameParameters, samePs, sameEs,
    sameBody, sameReturned]

theorem Constructor.readRest_echo (m : c.Matches v.text c') (sameQ : q.through v.text = q'.through v.text)
    (sameParameters : typeParameters.map TypeParameter.withoutSpans =
      typeParameters'.map TypeParameter.withoutSpans) :
    Echo (Consumed.Echoes v.text (Constructor.through v))
      (readRest q typeParameters start c) (readRest q' typeParameters' start' c') := by
  refine m.identifier.next fun name c₁ h₁ name' c₁' h₁' sameName m₁ => ?_
  obtain rfl : name = name' := sameName
  refine ((Parameter.readAll_echo m₁).mapError _).next fun ps c₂ h₂ ps' c₂' h₂' samePs m₂ => ?_
  refine (TypeRef.readClause_echo m₂ .throwsWord).nextReached fun es c₃ h₃ es' c₃' h₃' sameEs m₃ => ?_
  refine (Block.read_echo m₃).next fun body c₄ h₄ body' c₄' h₄' sameBody m₄ => ?_
  obtain ⟨sameModifiers, sameAnnotations⟩ := Qualifiers.mk.inj sameQ
  refine .ok ⟨?_, m₄⟩
  simp only [Constructor.through, sameModifiers, sameAnnotations, sameParameters, samePs, sameEs,
    coarse sameBody]

end

namespace NominalDecl

variable {view : String → String}

theorem headerLength?_eq {ts ts' : List Token} (same : ts.map Token.lexeme = ts'.map Token.lexeme)
    (depth n : Nat) : headerLength? ts depth n = headerLength? ts' depth n := by
  induction ts generalizing ts' depth n with
  | nil =>
    obtain rfl : ts' = [] := List.map_eq_nil_iff.mp same.symm
    rfl
  | cons t ts ih =>
    obtain ⟨t', us, rfl, lexeme, later⟩ := Fragment.uncons_lexemes same
    simp only [headerLength?, Token.kind_eq_of_lexeme lexeme, ih later]

theorem bodyLength?_eq {ts ts' : List Token} (same : ts.map Token.lexeme = ts'.map Token.lexeme)
    (depth n : Nat) : bodyLength? ts depth n = bodyLength? ts' depth n := by
  induction ts generalizing ts' depth n with
  | nil =>
    obtain rfl : ts' = [] := List.map_eq_nil_iff.mp same.symm
    rfl
  | cons t ts ih =>
    obtain ⟨t', us, rfl, lexeme, later⟩ := Fragment.uncons_lexemes same
    simp only [bodyLength?, Token.kind_eq_of_lexeme lexeme, ih later]

variable {c c' : Cursor}

theorem kind?_echo (m : c.Matches view c') :
    (kind? c = none ∧ kind? c' = none) ∨
    ∃ k d h d' h', kind? c = some ⟨k, d, h⟩ ∧ kind? c' = some ⟨k, d', h'⟩ ∧ d.Matches view d' := by
  rw [kind?, kind?]
  rcases m.accept? .enumWord with ⟨none, none'⟩ | ⟨t, c₁, h₁, t', c₁', h₁', some, some', -, m₁⟩
  · rw [none, none']
    rcases m.acceptPair? .atSign .interfaceWord with ⟨none, none'⟩ |
      ⟨t, c₁, h₁, t', c₁', h₁', some, some', -, m₁⟩
    · rw [none, none']
      rcases m.acceptWord? "record" with ⟨none, none'⟩ |
        ⟨t, c₁, h₁, t', c₁', h₁', some, some', -, m₁⟩
      · rw [none, none']
        exact .inl ⟨rfl, rfl⟩
      · rw [some, some']
        exact .inr ⟨_, c₁, h₁, c₁', h₁', rfl, rfl, m₁⟩
    · rw [some, some']
      exact .inr ⟨_, c₁, h₁, c₁', h₁', rfl, rfl, m₁⟩
  · rw [some, some']
    exact .inr ⟨_, c₁, h₁, c₁', h₁', rfl, rfl, m₁⟩

theorem passBody_echo (m : c.Matches view c') :
    Echo (Reached.Echoes view id) (passBody c) (passBody c') := by
  have sameHeader := (headerLength?_eq m.lexemes 0 0).symm
  rcases header : headerLength? c.ahead 0 0 with _ | n
  · rw [passBody_of_noHeader header, passBody_of_noHeader (sameHeader.trans header)]
    exact .error ⟨rfl, rfl⟩
  have header' := sameHeader.trans header
  have sameBody := (bodyLength?_eq (m.drop (n + 1)).lexemes 0 0).symm
  rcases body : bodyLength? (c.ahead.drop (n + 1)) 0 0 with _ | k
  · rw [passBody_of_noBody header body, passBody_of_noBody header' (sameBody.trans body)]
    exact .error ⟨rfl, rfl⟩
  have body' := sameBody.trans body
  obtain ⟨within, h, passed⟩ := passBody_of_counted header body
  obtain ⟨within', h', passed'⟩ := passBody_of_counted header' body'
  rw [passed, passed']
  exact .ok ⟨rfl, m.skip within within'⟩

theorem readRest_echo {q q' : Qualifiers} {start start' : Location} (m : c.Matches view c')
    (sameQ : q.through view = q'.through view) (kind : NominalKind) :
    Echo (Consumed.Echoes view (NominalDecl.through view)) (readRest kind q start c)
      (readRest kind q' start' c') := by
  refine m.identifier.next fun name c₁ h₁ name' c₁' h₁' sameName m₁ => ?_
  obtain rfl : name = name' := sameName
  refine (passBody_echo m₁).nextReached fun _ c₂ h₂ _ c₂' h₂' _ m₂ => ?_
  obtain ⟨sameModifiers, sameAnnotations⟩ := Qualifiers.mk.inj sameQ
  refine .ok ⟨?_, m₂⟩
  simp only [NominalDecl.through, sameModifiers, sameAnnotations]

end NominalDecl

namespace TypeDecl

variable {view : String → String} {c c' : Cursor}

theorem comesNext_eq (m : c.Matches view c') : comesNext c = comesNext c' := by
  simp only [comesNext, m.sees_eq, m.seesWord_eq]

theorem passPermits_echo (m : c.Matches view c') :
    Echo (Reached.Echoes view id) (passPermits c) (passPermits c') := by
  rw [passPermits, passPermits]
  rcases m.acceptWord? "permits" with ⟨none, none'⟩ | ⟨t, c₁, h₁, t', c₁', h₁', some, some', -, m₁⟩
  · simp only [none, none']
    exact .ok ⟨rfl, m⟩
  · simp only [some, some']
    refine (TypeRef.readList_echo m₁).next fun _ c₂ h₂ _ c₂' h₂' _ m₂ => ?_
    exact .ok ⟨rfl, m₂⟩

end TypeDecl

mutual

theorem TypeDecl.readRest_echo {v : View} (coarse : v.Coarse) {c c' : Cursor} {q q' : Qualifiers}
    {start start' : Location} (m : c.Matches v.text c') (sameQ : q.through v.text = q'.through v.text) :
    Echo (Consumed.Echoes v.text (TypeDecl.through v)) (TypeDecl.readRest q start c)
      (TypeDecl.readRest q' start' c') := by
  obtain ⟨sameModifiers, sameAnnotations⟩ := Qualifiers.mk.inj sameQ
  rw [TypeDecl.readRest, TypeDecl.readRest]
  rcases m.accept? .classWord with ⟨none, none'⟩ | ⟨t, c₁, h₁, t', c₁', h₁', some, some', -, m₁⟩
  · simp only [none, none']
    rcases m.accept? .interfaceWord with ⟨none, none'⟩ |
      ⟨t, c₁, h₁, t', c₁', h₁', some, some', -, m₁⟩
    · simp only [none, none']
      rcases NominalDecl.kind?_echo m with ⟨none, none'⟩ | ⟨k, c₁, h₁, c₁', h₁', some, some', m₁⟩
      · simp only [none, none']
        exact .error (m.expected _)
      · simp only [some, some']
        refine (NominalDecl.readRest_echo m₁ sameQ k).next fun decl c₂ h₂ decl' c₂' h₂' same m₂ => ?_
        refine .ok ⟨?_, m₂⟩
        rw [TypeDecl.through, TypeDecl.through]
        exact congrArg TypeDecl.nominal same
    · simp only [some, some']
      refine m₁.identifier.next fun name c₂ h₂ name' c₂' h₂' sameName m₂ => ?_
      obtain rfl : name = name' := sameName
      refine (TypeParameter.readAll_echo m₂).nextReached fun ps c₃ h₃ ps' c₃' h₃' samePs m₃ => ?_
      refine (TypeRef.readClause_echo m₃ .extendsWord).nextReached
        fun is c₄ h₄ is' c₄' h₄' sameIs m₄ => ?_
      refine (TypeDecl.passPermits_echo m₄).nextReached fun _ c₅ h₅ _ c₅' h₅' _ m₅ => ?_
      refine ((BodyMember.readBody_echo coarse m₅).mapError _).next
        fun body c₆ h₆ body' c₆' h₆' sameBody m₆ => ?_
      refine .ok ⟨?_, m₆⟩
      -- What an interface makes of its members is the same on both sides.
      have sameMembers := congrArg (List.map BodyMember.inInterface) sameBody
      simp only [List.map_map, Function.comp_def, ← BodyMember.through_inInterface] at sameMembers
      simp only [TypeDecl.through, InterfaceDecl.through, BodyMember.allThrough_eq_map,
        List.map_map, Function.comp_def, sameModifiers, sameAnnotations, samePs, sameIs] at sameMembers ⊢
      rw [sameMembers]
  · simp only [some, some']
    refine m₁.identifier.next fun name c₂ h₂ name' c₂' h₂' sameName m₂ => ?_
    obtain rfl : name = name' := sameName
    refine (TypeParameter.readAll_echo m₂).nextReached fun ps c₃ h₃ ps' c₃' h₃' samePs m₃ => ?_
    refine (m₃.clause fun _ _ _ _ m => TypeRef.read_echo m).nextReached
      fun super c₄ h₄ super' c₄' h₄' sameSuper m₄ => ?_
    refine (TypeRef.readClause_echo m₄ .implementsWord).nextReached
      fun is c₅ h₅ is' c₅' h₅' sameIs m₅ => ?_
    refine (TypeDecl.passPermits_echo m₅).nextReached fun _ c₆ h₆ _ c₆' h₆' _ m₆ => ?_
    refine ((BodyMember.readBody_echo coarse m₆).mapError _).next
      fun body c₇ h₇ body' c₇' h₇' sameBody m₇ => ?_
    refine .ok ⟨?_, m₇⟩
    simp only [TypeDecl.through, ClassDecl.through, BodyMember.allThrough_eq_map, sameBody]
    simp only [sameModifiers, sameAnnotations, samePs, sameSuper, sameIs]
termination_by 4 * c.size

theorem BodyMember.readBody_echo {v : View} (coarse : v.Coarse) {c c' : Cursor} (m : c.Matches v.text c') :
    Echo (Consumed.Echoes v.text (List.map (BodyMember.through v))) (BodyMember.readBody c)
      (BodyMember.readBody c') := by
  rw [BodyMember.readBody, BodyMember.readBody]
  refine (m.expect .leftBrace _).next fun _ c₁ h₁ _ c₁' h₁' _ m₁ => ?_
  exact BodyMember.readAll_echo coarse m₁ rfl
termination_by 4 * c.size + 3

theorem BodyMember.readAll_echo {v : View} (coarse : v.Coarse) {origin origin' c c' : Cursor}
    {within : c.size < origin.size} {within' : c'.size < origin'.size} (m : c.Matches v.text c')
    {read read' : List BodyMember}
    (sameRead : read.map (BodyMember.through v) =
      read'.map (BodyMember.through v)) :
    Echo (Consumed.Echoes v.text (List.map (BodyMember.through v)))
      (BodyMember.readAll origin c within read) (BodyMember.readAll origin' c' within' read') := by
  rw [BodyMember.readAll, BodyMember.readAll]
  rcases m.accept? .rightBrace with ⟨none, none'⟩ | ⟨t, c₁, h₁, t', c₁', h₁', some, some', -, m₁⟩
  · simp only [none, none', ← m.isEmpty_eq]
    split
    next => exact .error (m.expected _)
    next =>
      rcases m.accept? .semicolon with ⟨none, none'⟩ | ⟨t, c₁, h₁, t', c₁', h₁', some, some', -, m₁⟩
      · simp only [none, none']
        refine (BodyMember.read_echo coarse m).next fun parts c₁ h₁ parts' c₁' h₁' same m₁ => ?_
        refine BodyMember.readAll_echo coarse m₁ ?_
        rw [List.map_append, List.map_append, List.map_reverse, List.map_reverse, same, sameRead]
      · simp only [some, some']
        exact BodyMember.readAll_echo coarse m₁ sameRead
  · simp only [some, some']
    refine .ok ⟨?_, m₁⟩
    rw [List.map_reverse, List.map_reverse, sameRead]
termination_by 4 * c.size + 2

theorem BodyMember.read_echo {v : View} (coarse : v.Coarse) {c c' : Cursor} (m : c.Matches v.text c') :
    Echo (Consumed.Echoes v.text (List.map (BodyMember.through v))) (BodyMember.read c)
      (BodyMember.read c') := by
  rw [BodyMember.read, BodyMember.read, ← m.sees_eq, ← m.sees_eq]
  split
  next =>
    refine (Block.read_echo m).next fun body c₁ h₁ body' c₁' h₁' same m₁ => ?_
    refine .ok ⟨?_, m₁⟩
    simp only [List.map_cons, List.map_nil, BodyMember.through, Initializer.through, coarse same]
  next =>
    split
    next =>
      refine (m.expect (.modifier .staticMember) _).next fun _ c₁ h₁ _ c₁' h₁' _ m₁ => ?_
      refine (Block.read_echo m₁).next fun body c₂ h₂ body' c₂' h₂' same m₂ => ?_
      refine .ok ⟨?_, m₂⟩
      simp only [List.map_cons, List.map_nil, BodyMember.through, Initializer.through, coarse same]
    next =>
      refine (Qualifiers.read_echo m).nextReached fun q c₁ h₁ q' c₁' h₁' sameQ m₁ => ?_
      simp only [← TypeDecl.comesNext_eq m₁]
      split
      next =>
        refine (TypeDecl.readRest_echo coarse m₁ sameQ).next fun decl c₂ h₂ decl' c₂' h₂' same m₂ => ?_
        refine .ok ⟨?_, m₂⟩
        simp only [List.map_cons, List.map_nil, BodyMember.through, same]
      next =>
        refine (TypeParameter.readAll_echo m₁).nextReached fun ps c₂ h₂ ps' c₂' h₂' samePs m₂ => ?_
        simp only [← m₂.sees_eq]
        split
        next =>
          refine (Constructor.readRest_echo coarse m₂ sameQ samePs).next
            fun decl c₃ h₃ decl' c₃' h₃' same m₃ => ?_
          refine .ok ⟨?_, m₃⟩
          simp only [List.map_cons, List.map_nil, BodyMember.through, same]
        next =>
          refine (TypeRef.read_echo m₂).next fun type c₃ h₃ type' c₃' h₃' sameType m₃ => ?_
          refine m₃.identifier.next fun name c₄ h₄ name' c₄' h₄' sameName m₄ => ?_
          obtain rfl : name = name' := sameName
          have sameEmpty : ps.isEmpty = ps'.isEmpty := by
            have length := congrArg List.length samePs
            simp only [List.length_map] at length
            rw [Bool.eq_iff_iff, List.isEmpty_iff_length_eq_zero, List.isEmpty_iff_length_eq_zero, length]
          simp only [← m₄.sees_eq, ← sameEmpty]
          split
          next =>
            refine ((Method.readRest_echo coarse m₄ sameQ samePs sameType name).mapError _).next
              fun decl c₅ h₅ decl' c₅' h₅' same m₅ => ?_
            refine .ok ⟨?_, m₅⟩
            simp only [List.map_cons, List.map_nil, BodyMember.through, same]
          next =>
            split
            next => exact .error (m₄.expected _)
            next =>
              refine (Declarator.readAll_echo m₄ name rfl).next fun ds c₅ h₅ ds' c₅' h₅' same m₅ => ?_
              exact .ok ⟨Declarator.fields_eq sameQ sameType same, m₅⟩
termination_by 4 * c.size + 1

end

theorem TypeDecl.read_echo {v : View} (coarse : v.Coarse) {c c' : Cursor} (m : c.Matches v.text c') :
    Echo (Consumed.Echoes v.text (TypeDecl.through v)) (TypeDecl.read c)
      (TypeDecl.read c') := by
  refine (Qualifiers.read_echo m).nextReached fun q c₁ h₁ q' c₁' h₁' sameQ m₁ => ?_
  refine (TypeDecl.readRest_echo coarse m₁ sameQ).next fun decl c₂ h₂ decl' c₂' h₂' same m₂ => ?_
  exact .ok ⟨same, m₂⟩

/-! ### Units -/

section

variable {view : String → String} {c c' : Cursor}

theorem PackageDecl.read?_echo (m : c.Matches view c') :
    Echo (Reached.Echoes view (Option.map PackageDecl.withoutSpan)) (read? c) (read? c') := by
  rw [read?, read?]
  rcases m.accept? .packageWord with ⟨none, none'⟩ | ⟨t, c₁, h₁, t', c₁', h₁', some, some', -, m₁⟩
  · simp only [none, none']
    exact .ok ⟨rfl, m⟩
  · simp only [some, some']
    refine m₁.dottedName.next fun name c₂ h₂ name' c₂' h₂' sameName m₂ => ?_
    obtain rfl : name = name' := sameName
    refine (m₂.expect .semicolon _).next fun _ c₃ h₃ _ c₃' h₃' _ m₃ => ?_
    exact .ok ⟨rfl, m₃⟩

theorem ImportDecl.readTarget_echo {origin origin' : Cursor} {start start' : Location}
    {isStatic isStatic' : Bool} (m : c.Matches view c') (sameMark : isStatic = isStatic')
    (within : c.size ≤ origin.size) (within' : c'.size ≤ origin'.size) :
    Echo (Consumed.Echoes view ImportDecl.withoutSpan) (readTarget origin start isStatic c within)
      (readTarget origin' start' isStatic' c' within') := by
  subst sameMark
  refine m.dottedName.next fun name c₂ h₂ name' c₂' h₂' sameName m₂ => ?_
  obtain rfl : name = name' := sameName
  refine (m₂.clause fun _ _ _ _ m => m.expect .star _).nextReached
    fun star c₃ h₃ star' c₃' h₃' same m₃ => ?_
  refine (m₃.expect .semicolon _).next fun _ c₄ h₄ _ c₄' h₄' _ m₄ => ?_
  have sameStar : star.isSome = star'.isSome := by
    simpa only [Option.isSome_map] using congrArg Option.isSome same
  exact .ok ⟨congrArg (ImportDecl.mk name isStatic · .synthetic) sameStar, m₄⟩

theorem ImportDecl.readRest_echo {start start' : Location} (m : c.Matches view c') :
    Echo (Consumed.Echoes view ImportDecl.withoutSpan) (readRest start c) (readRest start' c') := by
  rw [readRest_eq, readRest_eq]
  have marks := m.optionally (.modifier .staticMember)
  exact readTarget_echo marks.cursor marks.value _ _

theorem ImportDecl.readFrom_echo {origin origin' c c' : Cursor} {within : c.size ≤ origin.size}
    {within' : c'.size ≤ origin'.size} (m : c.Matches view c') {read read' : List ImportDecl}
    (sameRead : read.map withoutSpan = read'.map withoutSpan) :
    Echo (Reached.Echoes view (List.map withoutSpan)) (readFrom origin c within read)
      (readFrom origin' c' within' read') := by
  rw [readFrom, readFrom]
  rcases m.accept? .importWord with ⟨none, none'⟩ | ⟨t, c₁, h₁, t', c₁', h₁', some, some', -, m₁⟩
  · simp only [none, none']
    refine .ok ⟨?_, m⟩
    rw [List.map_reverse, List.map_reverse, sameRead]
  · simp only [some, some']
    refine (readRest_echo m₁).next fun decl c₂ h₂ decl' c₂' h₂' same m₂ => ?_
    refine readFrom_echo m₂ ?_
    rw [List.map_cons, List.map_cons, same, sameRead]
termination_by c.size

theorem Preamble.read_echo (m : c.Matches view c') :
    Echo (Reached.Echoes view fun p : Preamble =>
      (p.package.map PackageDecl.withoutSpan, p.imports.map ImportDecl.withoutSpan))
      (read c) (read c') := by
  refine (PackageDecl.read?_echo m).nextReached fun p c₁ h₁ p' c₁' h₁' sameP m₁ => ?_
  refine (ImportDecl.readFrom_echo m₁ rfl).nextReached fun is c₂ h₂ is' c₂' h₂' sameIs m₂ => ?_
  exact .ok ⟨Prod.ext sameP sameIs, m₂⟩

/-- The types of a unit that are read before the end or an error are the same on both sides. -/
theorem TypeDecl.readAll_echo {v : View} (coarse : v.Coarse) {c c' : Cursor} (m : c.Matches v.text c') {read read' : List TypeDecl}
    (sameRead : read.map (TypeDecl.through v) =
      read'.map (TypeDecl.through v)) :
    (readAll c read).1.map (TypeDecl.through v) =
        (readAll c' read').1.map (TypeDecl.through v) ∧
      Echo (Cursor.Matches v.text) (readAll c read).2 (readAll c' read').2 := by
  have sameReversed : read.reverse.map (TypeDecl.through v) =
      read'.reverse.map (TypeDecl.through v) := by
    rw [List.map_reverse, List.map_reverse, sameRead]
  rw [readAll, readAll, ← m.isEmpty_eq]
  split
  next => exact ⟨sameReversed, .ok m⟩
  next notEmpty =>
    rcases m.accept? .semicolon with ⟨none, none'⟩ | ⟨t, c₁, h₁, t', c₁', h₁', some, some', -, m₁⟩
    · simp only [none, none']
      have echo := TypeDecl.read_echo coarse m
      generalize TypeDecl.read c = outcome, TypeDecl.read c' = outcome' at echo
      cases echo with
      | @ok r r' echoes =>
        have shorter := r.shorter
        refine readAll_echo coarse echoes.cursor ?_
        rw [List.map_cons, List.map_cons, echoes.value, sameRead]
      | error alike => exact ⟨sameReversed, .error alike⟩
    · simp only [some, some']
      exact readAll_echo coarse m₁ sameRead
termination_by c.size

end

/-- On matching tokens the reader of units does the same. -/
theorem CompilationUnit.ofTokens_echo {v : View} (coarse : v.Coarse) {ts ts' : List Token}
    (same : Token.Matching v.text ts ts') :
    Echo (fun unit unit' : CompilationUnit => unit.through v = unit'.through v)
      (ofTokens ts).2 (ofTokens ts').2 := by
  have m : (Cursor.start ts).Matches v.text (Cursor.start ts') := same
  have preamble := Preamble.read_echo m
  rw [ofTokens, ofTokens]
  generalize Preamble.read (Cursor.start ts) = outcome,
    Preamble.read (Cursor.start ts') = outcome' at preamble
  cases preamble with
  | error alike => exact .error alike
  | @ok r r' echoes =>
    obtain ⟨⟨package, imports⟩, c₁, h₁⟩ := r
    obtain ⟨⟨package', imports'⟩, c₁', h₁'⟩ := r'
    obtain ⟨samePackage, sameImports⟩ := Prod.mk.inj echoes.value
    obtain ⟨sameTypes, ended⟩ := TypeDecl.readAll_echo coarse echoes.cursor (Eq.refl (List.map _ []))
    dsimp only at sameTypes ended ⊢
    generalize TypeDecl.readAll c₁ [] = found, TypeDecl.readAll c₁' [] = found' at sameTypes ended ⊢
    obtain ⟨types, outcome⟩ := found
    obtain ⟨types', outcome'⟩ := found'
    cases ended with
    | error alike => exact .error alike
    | ok m₂ =>
      refine .ok ?_
      simp only [CompilationUnit.through, samePackage, sameImports, sameTypes]

end TestDouble
