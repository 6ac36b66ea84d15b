import TestDouble.Proofs.Acceptance
import TestDouble.Proofs.Synthesis
import TestDouble.Proofs.Views

/-!
# What generation looks at

Generation looks at names, modifiers and types, and at no place, raw text or body. So a class and any
view of it give the same rendered subclass or the same error, and two units that look alike in some
view give the same units.
-/

namespace TestDouble

/-! ### Types and parameters -/

namespace TypeRef

theorem dimensions_withoutSpans (t : TypeRef) : t.withoutSpans.dimensions = t.dimensions := by
  cases t
  rw [withoutSpans_mk]

theorem isVoid_withoutSpans (t : TypeRef) : t.withoutSpans.isVoid = t.isVoid := by
  cases t
  simp [withoutSpans_mk, isVoid]

theorem named_withoutSpans (name : String) : (named name).withoutSpans = named name := by
  simp [named, withoutSpans_mk]

end TypeRef

theorem TypeParameter.text_withoutSpans (p : TypeParameter) : p.withoutSpans.text = p.text := by
  obtain ⟨name, bounds, span⟩ := p
  cases bounds with
  | nil => rfl
  | cons bound bounds =>
    simp [text, withoutSpans, TypeRef.text_withoutSpans, Function.comp_def]

theorem TypeParameter.listText_withoutSpans (ps : List TypeParameter) :
    listText (ps.map withoutSpans) = listText ps := by
  simp [listText, text_withoutSpans, Function.comp_def]

namespace Parameter

theorem typeText_withoutSpans (p : Parameter) : p.withoutSpans.typeText = p.typeText := by
  simp only [typeText, withoutSpans, TypeRef.text_withoutSpans]

theorem text_withoutSpans (p : Parameter) : p.withoutSpans.text = p.text := by
  rw [text, text, typeText_withoutSpans]
  rfl

theorem typeText_through (text : String → String) (p : Parameter) :
    (p.through text).typeText = p.typeText := by
  simp only [typeText, through, TypeRef.text_withoutSpans]

end Parameter

theorem signatureOf_through (text : String → String) (name : String) (ps : List Parameter) :
    signatureOf name (ps.map (Parameter.through text)) = signatureOf name ps := by
  simp [signatureOf, Parameter.typeText_through, Function.comp_def]

/-! ### Forwarding bodies -/

theorem resolveName_withoutSpans (scope : List TypeParameter) (name : String) (steps : Nat) :
    resolveName (scope.map TypeParameter.withoutSpans) name steps = resolveName scope name steps := by
  induction steps generalizing name with
  | zero => rfl
  | succ steps ih =>
    have named : ((fun p : TypeParameter => p.name == name) ∘ TypeParameter.withoutSpans) =
        fun p => p.name == name := rfl
    rw [resolveName, resolveName, List.find?_map, named]
    cases scope.find? (·.name == name) with
    | none => rfl
    | some found =>
      obtain ⟨_, bounds, span⟩ := found
      cases bounds with
      | nil => exact ih "Object"
      | cons bound bounds =>
        simp only [Option.map_some, TypeParameter.withoutSpans, List.map_cons,
          TypeRef.rawName_withoutSpans]
        exact ih bound.rawName

theorem TypeRef.erasedIn_withoutSpans (t : TypeRef) (scope : List TypeParameter) :
    t.withoutSpans.erasedIn (scope.map TypeParameter.withoutSpans) = t.erasedIn scope := by
  rw [erasedIn, erasedIn, List.length_map, resolveName_withoutSpans, rawName_withoutSpans,
    dimensions_withoutSpans]

theorem passedOn_through (text : String → String) (ps : List Parameter) :
    passedOn (ps.map (Parameter.through text)) = passedOn ps := by
  simp [passedOn, Parameter.through, Function.comp_def]

namespace Forwarding

theorem classLiterals_through (text : String → String) (scope : List TypeParameter)
    (ps : List Parameter) :
    classLiterals (scope.map TypeParameter.withoutSpans) (ps.map (Parameter.through text)) =
      classLiterals scope ps := by
  have erased (p : Parameter) : (p.through text).type.erasedIn (scope.map TypeParameter.withoutSpans) =
      p.type.erasedIn scope := p.type.erasedIn_withoutSpans scope
  rw [classLiterals, classLiterals, List.map_map]
  refine congrArg String.join (List.map_congr_left fun p _ => ?_)
  simp only [Function.comp_apply, erased]
  rfl

theorem invocationArguments_through (text : String → String) (ps : List Parameter) :
    invocationArguments (ps.map (Parameter.through text)) = invocationArguments ps := by
  simp [invocationArguments, Parameter.through, Function.comp_def]

end Forwarding

namespace ClassDecl

variable (v : View) (decl : ClassDecl)

theorem name_through : (decl.through v).name = decl.name := by
  cases decl
  rw [through]

theorem typeParameters_through :
    (decl.through v).typeParameters = decl.typeParameters.map TypeParameter.withoutSpans := by
  cases decl
  rw [through]

theorem body_through : (decl.through v).body = decl.body.map (BodyMember.through v) := by
  cases decl
  rw [through, BodyMember.allThrough_eq_map]

end ClassDecl

/-- A member without places, its texts and body seen through a view. -/
def Member.through (v : View) : Member → Member
  | .constructor c => .constructor (c.through v)
  | .method m => .method (m.through v)

theorem Forwarding.forward_through (v : View) (decl : ClassDecl) (member : Member) :
    forward (some (decl.through v)) (member.through v) = forward (some decl) member := by
  cases member with
  | constructor c => simp only [Member.through, forward, Constructor.through, passedOn_through]
  | method m =>
    have isPrivate : (m.through v).isPrivate = m.isPrivate := rfl
    have isStatic : (m.through v).isStatic = m.isStatic := rfl
    have scope : (m.through v).typeParameters ++ (decl.through v).typeParameters =
        (m.typeParameters ++ decl.typeParameters).map TypeParameter.withoutSpans := by
      rw [ClassDecl.typeParameters_through, List.map_append]
      rfl
    have isVoid : (m.through v).returnType.isVoid = m.returnType.isVoid :=
      m.returnType.isVoid_withoutSpans
    have text : (m.through v).returnType.text = m.returnType.text := m.returnType.text_withoutSpans
    have parameters : (m.through v).parameters = m.parameters.map (Parameter.through v.text) := rfl
    have name : (m.through v).name = m.name := rfl
    simp only [Member.through, forward, isPrivate, reflective, direct, lookup, isStatic, isVoid, text,
      parameters, name, passedOn_through, invocationArguments_through, ClassDecl.name_through,
      Option.map_some, Option.getD_some, scope, classLiterals_through]

/-! ### Synthesis -/

namespace Member

variable (v : View)

theorem ofBody?_through (part : BodyMember) :
    ofBody? (part.through v) = (ofBody? part).map (through v) := by
  cases part <;> simp [BodyMember.through, ofBody?, through]

theorem isEligible_through (member : Member) : (member.through v).isEligible = member.isEligible := by
  cases member <;> rfl

theorem violation?_through (decl : ClassDecl) (member : Member) :
    (member.through v).violation? (decl.through v) = member.violation? decl := by
  cases member with
  | constructor c =>
    simp only [through, violation?, Constructor.through, ClassDecl.name_through]
  | method m =>
    have signature : (m.through v).signature = m.signature := signatureOf_through ..
    have name : (m.through v).name = m.name := rfl
    simp only [through, violation?, signature, name, ClassDecl.name_through]

end Member

theorem ClassDecl.eligibleMembers_through (v : View) (decl : ClassDecl) :
    (decl.through v).eligibleMembers = decl.eligibleMembers.map (Member.through v) := by
  have found : Member.ofBody? ∘ BodyMember.through v =
      fun part => (Member.ofBody? part).map (Member.through v) :=
    funext (Member.ofBody?_through v)
  have eligible : Member.isEligible ∘ Member.through v = Member.isEligible :=
    funext (Member.isEligible_through v)
  rw [eligibleMembers, eligibleMembers, members, members, body_through, List.filterMap_map, found,
    ← List.map_filterMap, List.filter_map, eligible]

def CounterpartKind.withoutSpans : CounterpartKind → CounterpartKind
  | .constructor => .constructor
  | .method name returnType => .method name returnType.withoutSpans

/-- A member of a subclass without places. -/
def Counterpart.withoutSpans (m : Counterpart) : Counterpart :=
  ⟨m.kind.withoutSpans, m.modifiers, m.isOverride, m.typeParameters.map TypeParameter.withoutSpans,
    m.parameters.map Parameter.withoutSpans, m.exceptions.map TypeRef.withoutSpans, m.statements⟩

/-- A subclass without places. -/
def Subclass.withoutSpans (s : Subclass) : Subclass :=
  ⟨s.package, s.name, s.modifiers, s.typeParameters.map TypeParameter.withoutSpans,
    s.superclass.withoutSpans, s.members.map Counterpart.withoutSpans⟩

theorem Counterpart.ofMember_through (v : View) (config : Config) (statements : List Statement)
    (member : Member) :
    ofMember config statements (member.through v) =
      (ofMember config statements member).withoutSpans := by
  have bared (ps : List Parameter) : (ps.map (Parameter.through v.text)).map bare =
      (ps.map bare).map Parameter.withoutSpans := by
    rw [List.map_map, List.map_map]
    rfl
  cases member with
  | constructor c =>
    simp only [Member.through, ofMember, ofConstructor, withoutSpans, Constructor.through, bared]
    rfl
  | method m =>
    have isPrivate : (m.through v).isPrivate = m.isPrivate := rfl
    simp only [Member.through, ofMember, ofMethod, withoutSpans, isPrivate]
    cases m.isPrivate with
    | true =>
      simp only [Method.through, bared, if_true, List.map_cons, List.map_nil,
        TypeRef.named_withoutSpans]
      rfl
    | false =>
      simp only [Method.through, bared]
      rfl

theorem ClassDecl.asType_through (v : View) (decl : ClassDecl) :
    (decl.through v).asType = decl.asType.withoutSpans := by
  obtain ⟨_, _, name, typeParameters, _, _, _, _⟩ := decl
  have named (p : TypeParameter) : (TypeArgument.type (.named p.name)).withoutSpans =
      .type (.named p.name) := by
    rw [TypeArgument.withoutSpans, TypeRef.named_withoutSpans]
  have arguments : (typeParameters.map TypeParameter.withoutSpans).map
        (fun p => TypeArgument.type (.named p.name)) =
      (typeParameters.map fun p => .type (.named p.name)).map TypeArgument.withoutSpans := by
    rw [List.map_map, List.map_map]
    exact List.map_congr_left fun p _ => (named p).symm
  rw [asType, asType, TypeRef.withoutSpans_mk, through, arguments]
  rfl

namespace Traced

variable {α β : Type}

theorem outcome_bind (first : Traced α) (next : α → Traced β) :
    (first >>= next).outcome = first.outcome >>= fun value => (next value).outcome := by
  change (andThen first next).outcome = _
  unfold andThen
  cases first.outcome <;> rfl

private theorem outcome_mapFrom (f : α → Traced β) (items : List α) (events : List Event)
    (values : List β) :
    (mapFrom f items events values).outcome =
      (items.mapM fun item => (f item).outcome).map (values.reverse ++ ·) := by
  induction items generalizing events values with
  | nil => simp [mapFrom, Except.map, pure, Except.pure]
  | cons item items ih =>
    rw [mapFrom, List.mapM_cons]
    cases (f item).outcome with
    | error e => rfl
    | ok value =>
      simp only [ih, ok_bind]
      cases items.mapM fun item => (f item).outcome with
      | error e => rfl
      | ok others => simp [Except.map, bind, Except.bind, pure, Except.pure]

/-- A run for each item ends as the runs do, up to the first failure. -/
theorem outcome_mapAll (f : α → Traced β) (items : List α) :
    (mapAll f items).outcome = items.mapM fun item => (f item).outcome := by
  rw [mapAll, outcome_mapFrom]
  cases items.mapM fun item => (f item).outcome <;> simp [Except.map]

end Traced

/-- How a synthesis ends: with the first member that cannot be rebuilt, or with the subclass that the
class determines. -/
theorem ClassDecl.synthesize_outcome (config : Config) (provider : Provider) (decl : ClassDecl)
    (package name : String) :
    (decl.synthesize config provider package name).outcome =
      match decl.eligibleMembers.findSome? (Member.violation? decl) with
      | some error => .error error
      | none => .ok (decl.subclass config provider package name) := by
  have collected : decl.collectEligible.outcome = .ok decl.eligibleMembers := rfl
  rw [synthesize, Traced.outcome_bind, collected, ok_bind]
  cases decl.eligibleMembers.findSome? (Member.violation? decl) with
  | some error => rfl
  | none =>
    -- Rebuilding a member never fails, whatever is noted on the way.
    have rebuilt (members : List Member) :
        (members.mapM fun member => (rebuild config provider decl name member).outcome) =
          .ok (members.map fun member =>
            Counterpart.ofMember config (provider decl name member).statements member) := by
      induction members with
      | nil => rfl
      | cons member members ih =>
        rw [List.mapM_cons, ih]
        rfl
    simp only [Traced.outcome_bind, Traced.outcome_mapAll, rebuilt, ok_bind]
    rfl

theorem ClassDecl.subclass_through (v : View) (config : Config) (decl : ClassDecl)
    (package name : String) :
    (decl.through v).subclass config .forwarding package name =
      (decl.subclass config .forwarding package name).withoutSpans := by
  have members : (decl.eligibleMembers.map (Member.through v)).map
        (fun member => Counterpart.ofMember config
          (Provider.forwarding (decl.through v) name member).statements member) =
      (decl.eligibleMembers.map fun member => Counterpart.ofMember config
        (Provider.forwarding decl name member).statements member).map Counterpart.withoutSpans := by
    rw [List.map_map, List.map_map]
    refine List.map_congr_left fun member _ => ?_
    rw [Function.comp_apply, Function.comp_apply, Counterpart.ofMember_through, Provider.forwarding,
      Forwarding.forward_through]
    rfl
  rw [subclass, subclass, eligibleMembers_through, members, typeParameters_through, asType_through]
  rfl

/-- A class and any view of it are rebuilt alike. -/
theorem ClassDecl.synthesize_through (v : View) (config : Config) (decl : ClassDecl)
    (package name : String) :
    ((decl.through v).synthesize config .forwarding package name).outcome =
      (decl.synthesize config .forwarding package name).outcome.map Subclass.withoutSpans := by
  have violations : Member.violation? (decl.through v) ∘ Member.through v = Member.violation? decl :=
    funext (Member.violation?_through v decl)
  rw [synthesize_outcome, synthesize_outcome, eligibleMembers_through, List.findSome?_map, violations]
  cases decl.eligibleMembers.findSome? (Member.violation? decl) with
  | some error => rfl
  | none => exact congrArg Except.ok (subclass_through v config decl package name)

/-! ### Rendering -/

theorem Counterpart.render_withoutSpans (config : Config) (className : String) (m : Counterpart) :
    m.withoutSpans.render config className = m.render config className := by
  have types (ts : List TypeRef) : (ts.map TypeRef.withoutSpans).map TypeRef.text =
      ts.map TypeRef.text := by
    simp [TypeRef.text_withoutSpans, Function.comp_def]
  have parameters (ps : List Parameter) : (ps.map Parameter.withoutSpans).map Parameter.text =
      ps.map Parameter.text := by
    simp [Parameter.text_withoutSpans, Function.comp_def]
  have header : m.withoutSpans.header className = m.header className := by
    obtain ⟨kind, modifiers, isOverride, typeParameters, ps, exceptions, statements⟩ := m
    cases kind <;>
      simp [Counterpart.header, withoutSpans, CounterpartKind.withoutSpans, types, parameters,
        TypeParameter.listText_withoutSpans, TypeRef.text_withoutSpans]
  simp only [render, header]
  rfl

theorem Subclass.render_withoutSpans (config : Config) (s : Subclass) :
    s.withoutSpans.render config = s.render config := by
  have members : s.withoutSpans.members.mapM (Counterpart.render config s.name) =
      s.members.mapM (Counterpart.render config s.name) := by
    have rendered : Counterpart.render config s.name ∘ Counterpart.withoutSpans =
        Counterpart.render config s.name := funext (Counterpart.render_withoutSpans config s.name)
    rw [withoutSpans, List.mapM_map, rendered]
  have header : s.withoutSpans.header = s.header := by
    simp only [Subclass.header, withoutSpans, TypeParameter.listText_withoutSpans,
      TypeRef.text_withoutSpans]
  simp only [render, header]
  exact congrArg (· >>= _) members

/-! ### Units -/

namespace GeneratedUnit

/-- What is written of a generated unit: its source, and where. -/
def written (g : GeneratedUnit) : String × String := (g.source, g.subclass.relativePath)

/-- The unit that is generated for a class. -/
def ofDecl (config : Config) (provider : Provider) (package : String) (decl : ClassDecl) :
    Except Error GeneratedUnit := do
  let s ← (decl.synthesize config provider package (decl.name ++ config.classSuffix)).outcome
  return ⟨s, ← s.render config⟩

theorem ofSource_outcome (config : Config) (provider : Provider) (source : String) :
    (ofSource config provider source).outcome =
      (CompilationUnit.read source).outcome >>= fun unit =>
        unit.classes.mapM (ofDecl config provider unit.packageName) := by
  rw [ofSource, Traced.outcome_bind]
  simp only [Traced.outcome_mapAll, Traced.outcome_bind]
  rfl

theorem ofDecl_through (v : View) (config : Config) (package : String) (decl : ClassDecl) :
    (ofDecl config .forwarding package (decl.through v)).map written =
      (ofDecl config .forwarding package decl).map written := by
  rw [ofDecl, ofDecl, ClassDecl.synthesize_through, ClassDecl.name_through]
  cases (decl.synthesize config .forwarding package (decl.name ++ config.classSuffix)).outcome with
  | error e => rfl
  | ok s =>
    change (s.withoutSpans.render config >>= _).map written = (s.render config >>= _).map written
    rw [Subclass.render_withoutSpans]
    cases s.render config <;> rfl

end GeneratedUnit

theorem CompilationUnit.classes_through (v : View) (unit : CompilationUnit) :
    (unit.through v).classes = unit.classes.map (ClassDecl.through v) := by
  rw [classes, classes, through, List.filterMap_map, List.map_filterMap]
  refine List.filterMap_congr fun decl _ => ?_
  cases decl <;> simp [TypeDecl.through]

theorem CompilationUnit.packageName_through (v : View) (unit : CompilationUnit) :
    (unit.through v).packageName = unit.packageName := by
  obtain ⟨package, imports, types, span⟩ := unit
  cases package <;> rfl

/-- Two traversals that show the same of every item show the same of all. -/
private theorem mapM_map_eq {ε α β γ : Type} {f g : α → Except ε β} {seen : α → α} {shown : β → γ}
    (each : ∀ a, (f (seen a)).map shown = (g a).map shown) (as : List α) :
    ((as.map seen).mapM f).map (List.map shown) = (as.mapM g).map (List.map shown) := by
  induction as with
  | nil => rfl
  | cons a as ih =>
    have here := each a
    rw [List.map_cons, List.mapM_cons, List.mapM_cons]
    cases first : f (seen a) with
    | error e =>
      cases second : g a with
      | error e' =>
        rw [first, second] at here
        exact congrArg Except.error (Except.error.inj here)
      | ok b =>
        rw [first, second] at here
        cases here
    | ok b =>
      cases second : g a with
      | error e =>
        rw [first, second] at here
        cases here
      | ok b' =>
        rw [first, second] at here
        have sameShown : shown b = shown b' := Except.ok.inj here
        rw [ok_bind, ok_bind]
        cases firsts : (as.map seen).mapM f <;> cases seconds : as.mapM g <;>
          rw [firsts, seconds] at ih
        · exact congrArg Except.error (Except.error.inj ih)
        · cases ih
        · cases ih
        · have sameRest := Except.ok.inj ih
          simp only [ok_bind]
          change Except.ok _ = Except.ok _
          rw [List.map_cons, List.map_cons, sameShown, sameRest]

/-- Of a unit and of any view of it the same is generated. -/
theorem GeneratedUnit.ofDecls_through (v : View) (config : Config) (unit : CompilationUnit) :
    ((unit.through v).classes.mapM (ofDecl config .forwarding (unit.through v).packageName)).map
        (List.map written) =
      (unit.classes.mapM (ofDecl config .forwarding unit.packageName)).map (List.map written) := by
  rw [CompilationUnit.classes_through, CompilationUnit.packageName_through]
  exact mapM_map_eq (ofDecl_through v config unit.packageName) unit.classes

end TestDouble
