import TestDouble.Proofs.SubclassInverse
import TestDouble.Proofs.Synthesis

/-!
# Generated sources are read back

The source of a generated unit is read as the subclass it was rendered from, provided that the names
in the subclass are identifiers. They are, unless a byte order mark made a reserved word of the
original source look like an identifier.
-/

namespace TestDouble

/-! ### Names up to spans -/

theorem exists_mem_of_map_eq {α β : Type} {f : α → β} {as bs : List α} (same : as.map f = bs.map f)
    {b : α} (member : b ∈ bs) : ∃ a ∈ as, f a = f b := by
  have image : f b ∈ as.map f := same ▸ List.mem_map_of_mem member
  exact List.mem_map.mp image

theorem TypeRef.parts_of_withoutSpans {t u : TypeRef} (same : t.withoutSpans = u.withoutSpans) :
    t.name = u.name ∧
      t.arguments.map TypeArgument.withoutSpans = u.arguments.map TypeArgument.withoutSpans ∧
      t.dimensions = u.dimensions ∧
      t.enclosing.map withoutSpans = u.enclosing.map withoutSpans := by
  obtain ⟨name, arguments, dimensions, enclosing, span⟩ := t
  obtain ⟨name', arguments', dimensions', enclosing', span'⟩ := u
  rw [withoutSpans_mk, withoutSpans_mk] at same
  injection same with sameName sameArguments sameDimensions sameEnclosing
  exact ⟨sameName, sameArguments, sameDimensions, sameEnclosing⟩

mutual

/-- Whether the names of a type are as given does not depend on its spans. -/
theorem TypeRef.Named.of_withoutSpans {Name : String → Prop} {t u : TypeRef}
    (same : t.withoutSpans = u.withoutSpans) : t.Named Name → u.Named Name
  | .primitive p dimensions span => by
    obtain ⟨name, _, _, _, span'⟩ := u
    obtain ⟨rfl, arguments, rfl, enclosing⟩ := TypeRef.parts_of_withoutSpans same
    obtain rfl := List.map_eq_nil_iff.mp arguments.symm
    obtain rfl := Option.map_eq_none_iff.mp enclosing.symm
    exact .primitive p _ _
  | .simple dimensions span isName each => by
    obtain ⟨name, _, _, _, span'⟩ := u
    obtain ⟨rfl, arguments, rfl, enclosing⟩ := TypeRef.parts_of_withoutSpans same
    obtain rfl := Option.map_eq_none_iff.mp enclosing.symm
    refine .simple _ _ isName fun b member => ?_
    obtain ⟨a, listed, sameArgument⟩ := exists_mem_of_map_eq arguments member
    exact (each a listed).of_withoutSpans sameArgument
  | .member dimensions span outerNamed nonempty flat isName each => by
    obtain ⟨name, _, _, _, span'⟩ := u
    obtain ⟨rfl, arguments, rfl, enclosing⟩ := TypeRef.parts_of_withoutSpans same
    obtain ⟨outer, rfl, sameOuter⟩ := Option.map_eq_some_iff.mp enclosing.symm
    obtain ⟨_, outerArguments, outerDimensions, _⟩ := TypeRef.parts_of_withoutSpans sameOuter
    refine .member _ _ (outerNamed.of_withoutSpans sameOuter.symm) ?_
      (outerDimensions.trans flat) isName fun b member => ?_
    · intro none
      rw [none, List.map_nil] at outerArguments
      exact nonempty (List.map_eq_nil_iff.mp outerArguments.symm)
    · obtain ⟨a, listed, sameArgument⟩ := exists_mem_of_map_eq arguments member
      exact (each a listed).of_withoutSpans sameArgument

theorem TypeArgument.Named.of_withoutSpans {Name : String → Prop} {a b : TypeArgument}
    (same : a.withoutSpans = b.withoutSpans) : a.Named Name → b.Named Name
  | .type named => by
    cases b with
    | type u => exact .type (named.of_withoutSpans (TypeArgument.type.inj same))
    | wildcard span => cases same
    | bounded kind bound span => cases same
  | .wildcard span => by
    cases b with
    | type u => cases same
    | wildcard span => exact .wildcard span
    | bounded kind bound span => cases same
  | .bounded kind span named => by
    cases b with
    | type u => cases same
    | wildcard span => cases same
    | bounded kind' bound' span' =>
      obtain ⟨rfl, sameBound, _⟩ := TypeArgument.bounded.inj same
      exact .bounded _ span' (named.of_withoutSpans sameBound)

end

theorem TypeRef.firstWord_of_withoutSpans {t u : TypeRef}
    (same : t.withoutSpans = u.withoutSpans) : t.firstWord = u.firstWord := by
  rw [firstWord, firstWord, ← t.rawName_withoutSpans, same, u.rawName_withoutSpans]

section

variable {Word : String → Prop}

theorem TypeRef.named_of_map {ts us : List TypeRef}
    (same : ts.map withoutSpans = us.map withoutSpans) (named : ∀ t ∈ ts, t.Named (Dotted Word)) :
    ∀ u ∈ us, u.Named (Dotted Word) := by
  intro u member
  obtain ⟨t, listed, sameType⟩ := exists_mem_of_map_eq same member
  exact (named t listed).of_withoutSpans sameType

theorem TypeParameter.named_of_map {ps qs : List TypeParameter}
    (same : ps.map withoutSpans = qs.map withoutSpans) (named : ∀ p ∈ ps, p.Named Word) :
    ∀ q ∈ qs, q.Named Word := by
  intro q member
  obtain ⟨p, listed, sameParameter⟩ := exists_mem_of_map_eq same member
  injection sameParameter with sameName sameBounds
  exact ⟨sameName ▸ (named p listed).name, TypeRef.named_of_map sameBounds (named p listed).bounds⟩

theorem Parameter.named_of_map {ps qs : List Parameter}
    (same : ps.map withoutSpans = qs.map withoutSpans) (named : ∀ p ∈ ps, p.Named Word) :
    ∀ q ∈ qs, q.Named Word := by
  intro q member
  obtain ⟨p, listed, sameParameter⟩ := exists_mem_of_map_eq same member
  injection sameParameter with _ _ sameType sameName
  exact ⟨sameName ▸ (named p listed).name, (named p listed).type.of_withoutSpans sameType,
    TypeRef.firstWord_of_withoutSpans sameType ▸ (named p listed).start⟩

theorem Member.named_of_ofBody? {part : BodyMember} {found : Member}
    (isMember : ofBody? part = some found) (named : part.Named Word) : found.Named Word := by
  cases part with
  | method method =>
    cases isMember
    exact named
  | constructor constructor =>
    cases isMember
    exact named
  | field => cases isMember
  | initializer => cases isMember
  | type => cases isMember

/-- A counterpart has the names of the member it is read as. -/
theorem Counterpart.ReadAs.named {className : String} {m : Counterpart} {found : Member}
    (readAs : m.ReadAs className found) (named : found.Named Word) : m.Named Word where
  method name type called := by
    have method := readAs.isConstructor
    have sameName := readAs.name
    have sameType := readAs.returnType
    cases found with
    | constructor k => simp [Member.isConstructor, Counterpart.isConstructor, called] at method
    | method found =>
      simp only [Member.ownName, Counterpart.ownName, called] at sameName
      simp only [Member.returnType?, Counterpart.returnType?, called, Option.map_some,
        Option.some.injEq] at sameType
      exact ⟨sameName ▸ named.name, named.returnType.of_withoutSpans sameType⟩
  typeParameters := by
    refine TypeParameter.named_of_map readAs.typeParameters ?_
    cases found <;> exact named.typeParameters
  parameters := by
    refine Parameter.named_of_map readAs.parameters ?_
    cases found <;> exact named.parameters
  exceptions := by
    refine TypeRef.named_of_map readAs.exceptions ?_
    cases found <;> exact named.exceptions

/-- A subclass has the names of the unit it is read back from. -/
theorem Subclass.ReadBack.named {s : Subclass} {unit : CompilationUnit} (back : s.ReadBack unit)
    (named : unit.Named Word) : s.Named Word := by
  obtain ⟨decl, types, readAs⟩ := back.types
  have declNamed : decl.Named Word := named.classes decl (by simp [CompilationUnit.classes, types])
  refine ⟨fun some => ?_, readAs.name ▸ declNamed.name,
    TypeParameter.named_of_map readAs.typeParameters declNamed.typeParameters, ?_, fun m member => ?_⟩
  · have samePackage := back.package
    rw [if_neg some] at samePackage
    obtain ⟨p, declared, same⟩ := Option.map_eq_some_iff.mp samePackage
    exact same ▸ named.package p declared
  · obtain ⟨t, extended, same⟩ := Option.map_eq_some_iff.mp readAs.superclass
    exact (declNamed.superclass t extended).of_withoutSpans same
  · obtain ⟨part, listed, found, isMember, sameMember⟩ :=
      exists_mem_of_forall₂ readAs.body.flip member
    exact sameMember.named (Member.named_of_ofBody? isMember (declNamed.body part listed))

end

/-! ### Counterparts of named members -/

section

variable {Word : String → Prop} {config : Config}

theorem Parameter.Named.bare {p : Parameter} (named : p.Named Word) :
    (Counterpart.bare p).Named Word :=
  ⟨named.name, named.type, named.start⟩

theorem Counterpart.named_ofMember (exception : Dotted Word config.permissiveException)
    (statements : List Statement) {member : Member} (named : member.Named Word) :
    (ofMember config statements member).Named Word := by
  cases member with
  | constructor k =>
    refine ⟨nofun, named.typeParameters, fun p listed => ?_, nofun⟩
    obtain ⟨original, inSource, rfl⟩ := List.mem_map.mp listed
    exact (named.parameters original inSource).bare
  | method m =>
    refine ⟨?_, named.typeParameters, fun p listed => ?_, ?_⟩
    · rintro name type ⟨⟩
      exact ⟨named.name, named.returnType⟩
    · obtain ⟨original, inSource, rfl⟩ := List.mem_map.mp listed
      exact (named.parameters original inSource).bare
    · change ∀ t ∈ (if m.isPrivate then [.named config.permissiveException] else m.exceptions), _
      split
      next =>
        rw [List.forall_mem_singleton]
        exact .simple 0 _ exception (by simp)
      next => exact named.exceptions

theorem ClassDecl.named_of_mem {decl : ClassDecl} (named : decl.Named Word) {member : Member}
    (eligible : member ∈ decl.eligibleMembers) : member.Named Word := by
  obtain ⟨part, listed, isMember⟩ := List.mem_filterMap.mp (List.mem_filter.mp eligible).1
  exact Member.named_of_ofBody? isMember (named.body part listed)

theorem ClassDecl.Named.asType {decl : ClassDecl} (named : decl.Named Word) :
    decl.asType.Named (Dotted Word) := by
  refine .simple 0 _ (.one named.name) fun a listed => ?_
  obtain ⟨p, declared, rfl⟩ := List.mem_map.mp listed
  exact .type (.simple 0 _ (.one (named.typeParameters p declared).name) (by simp))

theorem ClassDecl.named_subclass (exception : Dotted Word config.permissiveException)
    (provider : Provider) {decl : ClassDecl} (named : decl.Named Word) {package name : String}
    (packageNamed : package ≠ "" → Dotted Word package) (isName : Word name) :
    (decl.subclass config provider package name).Named Word := by
  refine ⟨packageNamed, isName, named.typeParameters, named.asType, fun m listed => ?_⟩
  obtain ⟨member, eligible, rfl⟩ := List.mem_map.mp listed
  exact Counterpart.named_ofMember exception _ (named_of_mem named eligible)

theorem Counterpart.opened_ofMember (statements : List Statement) (member : Member) :
    (ofMember config statements member).modifiers.contains .publicAccess = true := by
  cases member with
  | constructor k =>
    change (ModifierSet.ofList [.publicAccess]).contains .publicAccess = true
    decide
  | method m =>
    change m.modifiers.opened.contains .publicAccess = true
    simp [ModifierSet.opened]

theorem Counterpart.bare_ofMember (statements : List Statement) (member : Member) :
    ∀ p ∈ (ofMember config statements member).parameters, bare p = p := by
  intro p listed
  cases member with
  | constructor k =>
    obtain ⟨original, _, rfl⟩ := List.mem_map.mp listed
    rfl
  | method m =>
    obtain ⟨original, _, rfl⟩ := List.mem_map.mp listed
    rfl

/-- A counterpart is built from statements that are read as the lines of its body. -/
theorem Counterpart.built_of_stated (member : Member) {statements : List Statement} {body : List Line}
    (stated : List.Forall₂ Statement.SetAs statements body) (few : body.length < Block.limit) :
    (ofMember config statements member).Built body := by
  refine ⟨opened_ofMember _ member, bare_ofMember _ member, ?_, few⟩
  rwa [statements_ofMember]

/-- The counterparts that forward the members of a class are built from phrases. -/
theorem Counterpart.built_ofMember {decl : ClassDecl} (declNamed : decl.Named IsWord)
    {member : Member} (named : member.Named IsWord) :
    let m := ofMember config (Forwarding.forward (some decl) member).statements member
    ∃ body, List.Forall₂ Statement.SpokenAs m.statements body ∧ m.Built body := by
  obtain ⟨speaks, few⟩ := Forwarding.forward_speaks declNamed named
  have lines : ∀ s ∈ (Forwarding.forward (some decl) member).statements,
      ∃ line, s.SpokenAs line := by
    intro s listed
    obtain ⟨text, ls, expanded, phrase⟩ := speaks s listed
    exact ⟨⟨text, ls⟩, expanded, phrase⟩
  obtain ⟨body, spoken⟩ := exists_forall₂ lines
  have bound : body.length < Block.limit := by
    rw [← spoken.length_eq, Block.limit]
    omega
  refine ⟨body, ?_, built_of_stated member (spoken.imp fun _ _ said => said.setAs) bound⟩
  rwa [statements_ofMember]

end

/-! ### Names of sources -/

theorem Lines.kept {lines : List Line} {ms : List Mark} (spelled : Lines lines ms) :
    ∀ m ∈ ms, m.lexeme.Kept := by
  induction spelled with
  | nil => simp
  | cons lexemes _ kept _ ih =>
    rw [List.forall_mem_append]
    exact ⟨fun m member => kept _ (lexemes ▸ List.mem_map_of_mem member), ih⟩

namespace CompilationUnit

variable {source : String} {unit : CompilationUnit}

theorem named_of_read (returned : (read source).outcome = .ok unit) : unit.Named IsWord := by
  obtain ⟨tokens, types, lexed, whole⟩ := read_eq_ok returned
  exact named_of_ofTokens (fun _ word => word) (Vouched.ofSource lexed) whole

/-- Where identifiers are never reserved words, the names of a unit are identifiers. -/
theorem named_of_free {tokens : List Token} (lexed : Token.ofSource source = .ok tokens)
    (free : ∀ t ∈ tokens, t.kind = .identifier → Kind.ofWord t.text = .identifier)
    (returned : (read source).outcome = .ok unit) : unit.Named IsIdentifier := by
  obtain ⟨found, types, lexedAgain, whole⟩ := read_eq_ok returned
  obtain rfl := Except.ok.inj (lexed.symm.trans lexedAgain)
  have genuine := Vouched.ofSource lexed
  refine named_of_ofTokens (fun _ isIdentifier => isIdentifier.word) ⟨?_, genuine.fixed⟩ whole
  exact fun t member identifier => ⟨genuine.word t member identifier, free t member identifier⟩

theorem named_of_unmarked (noMark : '\uFEFF' ∉ source.toList)
    (returned : (read source).outcome = .ok unit) : unit.Named IsIdentifier := by
  obtain ⟨tokens, _, lexed, _⟩ := read_eq_ok returned
  exact named_of_free lexed (fun _ => Token.free_of_ofSource lexed noMark) returned

theorem named_of_laid {lines : List Line} (laid : Laid source lines)
    (returned : (read source).outcome = .ok unit) : unit.Named IsIdentifier := by
  obtain ⟨tokens, lexed, spelled⟩ := laid.ofSource
  refine named_of_free lexed (fun t member => ?_) returned
  exact (spelled.kept t.mark (List.mem_map_of_mem member)).honest

theorem Named.packageName {Word : String → Prop} (named : unit.Named Word)
    (declared : unit.packageName ≠ "") : Dotted Word unit.packageName := by
  unfold CompilationUnit.packageName at declared ⊢
  split
  next p found => exact named.package p found
  next none => simp [none] at declared

end CompilationUnit

/-! ### Units -/

/-- The configuration leaves the sources that are generated for a unit legible: they are indented
with blanks and tabs, the permissive exception is a name, and so is each class name with the suffix.
-/
structure Config.Legible (config : Config) (unit : CompilationUnit) : Prop where
  indent : ∀ c ∈ config.indent.toList, c = ' ' ∨ c = '\t'
  permissiveException : LexesAsName config.permissiveException
  classNames : ∀ decl ∈ unit.classes, LexesAsWord (decl.name ++ config.classSuffix) ∧
    decl.name ++ config.classSuffix ≠ "sealed"

theorem Config.blank_default : ∀ c ∈ ({} : Config).indent.toList, c = ' ' ∨ c = '\t' := by
  have blanks : ({} : Config).indent.toList = [' ', ' ', ' ', ' '] := rfl
  simp [blanks]

theorem Config.exception_default : LexesAsName ({} : Config).permissiveException := by
  have kinds : (Piece.ofSource ({} : Config).permissiveException).map Piece.kind =
      [some .identifier] := by
    decide +kernel
  rw [LexesAsName, kinds]
  exact .one

/-- No method of a class has a type that starts with a word that may start a declaration. -/
def ClassDecl.Plain (decl : ClassDecl) : Prop :=
  ∀ m ∈ decl.methods, m.returnType.firstWord ≠ "record" ∧ m.returnType.firstWord ≠ "sealed"

instance (decl : ClassDecl) : Decidable decl.Plain :=
  inferInstanceAs (Decidable (∀ m ∈ decl.methods, _))

/-- The source of the unit is read as its subclass. -/
def GeneratedUnit.ReadsBack (generated : GeneratedUnit) : Prop :=
  ∃ unit, (CompilationUnit.read generated.source).outcome = .ok unit ∧
    generated.subclass.ReadBack unit

namespace ClassDecl

variable {config : Config} {decl : ClassDecl} {package : String}

theorem Plain.ofMember (plain : decl.Plain) {member : Member}
    (eligible : member ∈ decl.eligibleMembers) (statements : List Statement) {name : String}
    {t : TypeRef} (called : (Counterpart.ofMember config statements member).kind = .method name t) :
    t.firstWord ≠ "record" ∧ t.firstWord ≠ "sealed" := by
  obtain ⟨part, listed, isMember⟩ := List.mem_filterMap.mp (List.mem_filter.mp eligible).1
  cases member with
  | constructor k => cases called
  | method m =>
    obtain ⟨rfl, rfl⟩ := CounterpartKind.method.inj called
    have declared : part = .method m := by
      cases part <;> simp_all [Member.ofBody?]
    exact plain m (List.mem_filterMap.mpr ⟨part, listed, by rw [declared]⟩)

/-- Every counterpart of a class has a body. -/
theorem built_subclass (config : Config) (named : decl.Named IsWord) (package name : String) :
    ∃ bodies, List.Forall₂ (fun m body => List.Forall₂ Statement.SpokenAs m.statements body ∧
      m.Built body) (decl.subclass config .forwarding package name).members bodies := by
  have each (member : Member) (eligible : member ∈ decl.eligibleMembers) :=
    @Counterpart.built_ofMember config decl named member (named_of_mem named eligible)
  obtain ⟨bodies, built⟩ := exists_forall₂ each
  exact ⟨bodies, List.forall₂_map_left_iff.mpr built⟩

section

variable {provider : Provider} {name : String} {bodies : List (List Line)}

theorem opened_subclass :
    (decl.subclass config provider package name).modifiers.contains .publicAccess = true := by
  change (ModifierSet.ofList [.publicAccess, .finalMember]).contains .publicAccess = true
  decide

/-- A subclass is rendered as its lines where its statements are. -/
theorem render_laid (blank : ∀ c ∈ config.indent.toList, c = ' ' ∨ c = '\t')
    (words : (decl.subclass config provider package name).Named IsWord)
    (laid : List.Forall₂ (fun m body => List.Forall₂ (Statement.LaidAs config) m.statements body)
      (decl.subclass config provider package name).members bodies) :
    ∃ text, (decl.subclass config provider package name).render config = .ok text ∧
      Laid text ((decl.subclass config provider package name).lines bodies) := by
  have modified {set : ModifierSet} (opened : set.contains .publicAccess = true) :
      set.lexemes ≠ [] := by
    obtain ⟨others, listed⟩ := ModifierSet.lexemes_of_contains opened
    simp [listed]
  refine Subclass.render_laid blank words ⟨modified opened_subclass, fun m member => ?_⟩ laid
  obtain ⟨original, _, rfl⟩ := List.mem_map.mp member
  exact modified (Counterpart.opened_ofMember _ original)

/-- A text that consists of the lines of a subclass is read as that subclass. -/
theorem readBack_of_laid
    (identifiers : (decl.subclass config provider package name).Named IsIdentifier)
    (notSealed : ∀ m ∈ (decl.subclass config provider package name).members,
      m.OpensWithClass → name ≠ "sealed") (plain : decl.Plain)
    (built : List.Forall₂ Counterpart.Built (decl.subclass config provider package name).members bodies)
    {text : String} (laid : Laid text ((decl.subclass config provider package name).lines bodies)) :
    ∃ unit, (CompilationUnit.read text).outcome = .ok unit ∧
      (decl.subclass config provider package name).ReadBack unit := by
  have plainMembers : ∀ m ∈ (decl.subclass config provider package name).members,
      ∀ called t, m.kind = .method called t → t.firstWord ≠ "record" ∧ t.firstWord ≠ "sealed" := by
    intro m member called t isMethod
    obtain ⟨original, eligible, rfl⟩ := List.mem_map.mp member
    exact plain.ofMember eligible _ isMethod
  have legible := (List.forall₂_and_left _ _).mpr
    ⟨fun m member => And.intro (identifiers.members m member) (plainMembers m member), built⟩
  exact Subclass.readBack_of_laid identifiers notSealed opened_subclass
    (legible.imp fun m body each => ⟨each.1.1, each.2, each.1.2⟩) laid

end

/-- The unit that is generated for a class is read back exactly when its names, which are words at
least, are identifiers. -/
theorem readsBack_iff_of_words {generated : GeneratedUnit}
    (ofClass : generated.OfClass config .forwarding package decl)
    (blank : ∀ c ∈ config.indent.toList, c = ' ' ∨ c = '\t') (named : decl.Named IsWord)
    (words : generated.subclass.Named IsWord)
    (notSealed : ∀ m ∈ generated.subclass.members,
      m.OpensWithClass → generated.subclass.name ≠ "sealed") (plain : decl.Plain) :
    generated.ReadsBack ↔ generated.subclass.Named IsIdentifier := by
  obtain ⟨s, text⟩ := generated
  obtain ⟨same, rendered⟩ := ofClass
  obtain rfl : s = _ := same
  obtain ⟨bodies, built⟩ :=
    built_subclass config named package (decl.name ++ config.classSuffix)
  have laid : Laid text ((decl.subclass config .forwarding package
      (decl.name ++ config.classSuffix)).lines bodies) := by
    obtain ⟨found, renderedAgain, laid⟩ := render_laid blank words
      (built.imp fun _ _ each => each.1.imp fun _ _ spoken => spoken.laidAs blank)
    obtain rfl := Except.ok.inj (rendered.symm.trans renderedAgain)
    exact laid
  constructor
  · rintro ⟨unit, read, back⟩
    exact back.named (CompilationUnit.named_of_laid laid read)
  · intro identifiers
    exact readBack_of_laid identifiers notSealed plain (built.imp fun _ _ each => each.2) laid

theorem readsBack_iff {generated : GeneratedUnit}
    (ofClass : generated.OfClass config .forwarding package decl)
    (blank : ∀ c ∈ config.indent.toList, c = ' ' ∨ c = '\t')
    (exception : Dotted IsIdentifier config.permissiveException) (named : decl.Named IsWord)
    (packageNamed : package ≠ "" → Dotted IsWord package)
    (isName : IsIdentifier (decl.name ++ config.classSuffix))
    (notSealed : decl.name ++ config.classSuffix ≠ "sealed") (plain : decl.Plain) :
    generated.ReadsBack ↔ generated.subclass.Named IsIdentifier := by
  have words : generated.subclass.Named IsWord := by
    rw [ofClass.subclass]
    exact named_subclass (exception.imp fun _ word => word.word) .forwarding named packageNamed
      isName.word
  refine readsBack_iff_of_words ofClass blank named words (fun _ _ _ => ?_) plain
  rw [ofClass.subclass]
  exact notSealed

end ClassDecl

namespace GeneratedUnit

/-- The source of every unit that is generated is read as the public and final subclass it was
rendered from, exactly when the names of the subclass are identifiers or, as types, primitive. This
is always so when the original source has no byte order mark. -/
theorem source_reads_as_subclass {config : Config} {source : String} {unit : CompilationUnit}
    {units : List GeneratedUnit} (read : (CompilationUnit.read source).outcome = .ok unit)
    (legible : config.Legible unit) (plain : ∀ decl ∈ unit.classes, decl.Plain)
    (returned : (ofSource config .forwarding source).outcome = .ok units) :
    ∀ generated ∈ units,
      generated.subclass.modifiers = .ofList [.publicAccess, .finalMember] ∧
      (generated.ReadsBack ↔ generated.subclass.Named IsIdentifier) ∧
      ('\uFEFF' ∉ source.toList → generated.ReadsBack) := by
  intro generated member
  obtain ⟨found, readAgain, each⟩ := ofSource_eq_ok returned
  obtain rfl := Except.ok.inj (read.symm.trans readAgain)
  obtain ⟨decl, declared, ofClass⟩ := exists_mem_of_forall₂ each member
  obtain ⟨lexes, notSealed⟩ := legible.classNames decl declared
  have exception := legible.permissiveException.dotted
  have words := CompilationUnit.named_of_read read
  have exactly := decl.readsBack_iff ofClass legible.indent exception (words.classes decl declared)
    words.packageName lexes.isIdentifier notSealed (plain decl declared)
  refine ⟨by rw [ofClass.subclass]; rfl, exactly, fun noMark => ?_⟩
  have identifiers := CompilationUnit.named_of_unmarked noMark read
  rw [exactly, ofClass.subclass]
  exact ClassDecl.named_subclass exception .forwarding (identifiers.classes decl declared)
    identifiers.packageName lexes.isIdentifier

/-- What the defaults ask of a source for its subclasses to be legible. -/
private def isLegible (source : String) : Bool :=
  match (CompilationUnit.read source).outcome with
  | .error _ => false
  | .ok unit => decide (∀ decl ∈ unit.classes, (LexesAsWord (decl.name ++ "Testable") ∧
      decl.name ++ "Testable" ≠ "sealed") ∧ decl.Plain)

private theorem legible_of_isLegible {source : String} (checked : isLegible source = true) :
    ∃ unit, (CompilationUnit.read source).outcome = .ok unit ∧ Config.Legible {} unit ∧
      ∀ decl ∈ unit.classes, decl.Plain := by
  unfold isLegible at checked
  split at checked
  next => cases checked
  next unit read =>
    have each := of_decide_eq_true checked
    exact ⟨unit, read, ⟨Config.blank_default, Config.exception_default,
      fun decl declared => (each decl declared).1⟩, fun decl declared => (each decl declared).2⟩

private theorem returned_of_map {β : Type} {run : Traced (List GeneratedUnit)}
    {f : List GeneratedUnit → β} {b : β} (computed : run.outcome.toOption.map f = some b) :
    ∃ units, run.outcome = .ok units ∧ f units = b := by
  obtain ⟨units, ended, same⟩ := Option.map_eq_some_iff.mp computed
  exact ⟨units, toOption_eq_some ended, same⟩

/-- A source with a private method of variable arity in a generic class. -/
private def genericSource : String :=
  "package p; class A<T> \x7b private int f(T... x) \x7b \x7d \x7d"

/-- A source with a return type that is a reserved word before a byte order mark, with arguments. -/
private def markedSource : String := "class A \x7b int\uFEFF<T> m(); \x7d"

/-- The generic class is read back. Of the other source a class is generated too, but it is not read
back, and so not all its names are identifiers. -/
theorem source_reads_as_subclass_of_generic_and_marked :
    (∃ units, (ofSource {} .forwarding genericSource).outcome = .ok units ∧ units.length = 1 ∧
      ∀ generated ∈ units, generated.ReadsBack) ∧
    ∃ units, (ofSource {} .forwarding markedSource).outcome = .ok units ∧ units.length = 1 ∧
      ∀ generated ∈ units, ¬generated.ReadsBack ∧ ¬generated.subclass.Named IsIdentifier := by
  constructor
  · have signs : genericSource.toList = _ := String.toList_ofList
    have checked : isLegible genericSource = true := by
      rw [isLegible, CompilationUnit.read, Token.ofSource, Piece.ofSource, signs]
      decide +kernel
    have counted : (ofSource {} .forwarding genericSource).outcome.toOption.map List.length =
        some 1 := by
      rw [ofSource, CompilationUnit.read, Token.ofSource, Piece.ofSource, signs]
      decide +kernel
    have noMark : '\uFEFF' ∉ genericSource.toList := by
      rw [signs]
      decide
    obtain ⟨unit, read, legible, plain⟩ := legible_of_isLegible checked
    obtain ⟨units, returned, length⟩ := returned_of_map counted
    refine ⟨units, returned, length, fun generated member => ?_⟩
    exact (source_reads_as_subclass read legible plain returned generated member).2.2 noMark
  · have checked : isLegible markedSource = true := by decide +kernel
    have computed : (ofSource {} .forwarding markedSource).outcome.toOption.map (fun units =>
        (units.length, units.all fun generated =>
          (CompilationUnit.read generated.source).outcome.toOption.isNone)) = some (1, true) := by
      decide +kernel
    obtain ⟨unit, read, legible, plain⟩ := legible_of_isLegible checked
    obtain ⟨units, returned, result⟩ := returned_of_map computed
    obtain ⟨length, failing⟩ := Prod.mk.inj result
    refine ⟨units, returned, length, fun generated member => ?_⟩
    -- Where a unit is not read back, its names cannot all be identifiers.
    have exactly := (source_reads_as_subclass read legible plain returned generated member).2.1
    have fails : ¬generated.ReadsBack := by
      rintro ⟨again, readAgain, _⟩
      have none := List.all_eq_true.mp failing generated member
      simp [readAgain, Except.toOption] at none
    exact ⟨fails, fun named => fails (exactly.mpr named)⟩

end GeneratedUnit

end TestDouble
