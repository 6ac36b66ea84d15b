import TestDouble.Proofs.Counterparts

/-!
# When a synthesis fails

A synthesis checks all members that get a counterpart, then asks for their bodies. It fails exactly
when some part of the class offends against the naming of members, with the offence of the first
such part, and no body has been asked for then. Otherwise each body is asked for once, in the order
of the members, and the counterparts are made of the answers.
-/

namespace TestDouble

namespace Traced

variable {α β : Type}

theorem andThen_of_ok {first : Traced α} {value : α} (ended : first.outcome = .ok value)
    (next : α → Traced β) :
    first >>= next = ⟨first.events ++ (next value).events, (next value).outcome⟩ := by
  change andThen first next = _
  simp only [andThen, ended]

theorem requests_of_ok {first : Traced α} {value : α} (ended : first.outcome = .ok value)
    (next : α → Traced β) :
    (first >>= next).requests = first.requests ++ (next value).requests := by
  simp only [requests, andThen_of_ok ended, List.filterMap_append]

@[simp]
theorem requests_logAll (level : Level) (messages : List String) :
    (logAll level messages).requests = [] := by
  simp [requests, logAll, Event.request?]

@[simp]
theorem requests_log (level : Level) (message : String) : (log level message).requests = [] := rfl

private theorem mapFrom_of_ok {f : α → Traced β} {value : α → β}
    (ended : ∀ item, (f item).outcome = .ok (value item)) (items : List α) (events : List Event)
    (values : List β) :
    mapFrom f items events values =
      ⟨events.reverse ++ items.flatMap fun item => (f item).events,
        .ok (values.reverse ++ items.map value)⟩ := by
  induction items generalizing events values with
  | nil => simp [mapFrom]
  | cons item items ih => simp [mapFrom, ended, ih]

/-- When no item fails, every item has its run. -/
theorem mapAll_of_ok {f : α → Traced β} (value : α → β)
    (ended : ∀ item, (f item).outcome = .ok (value item)) (items : List α) :
    mapAll f items = ⟨items.flatMap fun item => (f item).events, .ok (items.map value)⟩ := by
  simp [mapAll, mapFrom_of_ok ended]

end Traced

namespace ClassDecl

/-- How a part of the body of a class offends: a constructor that is not abstract is not named like
the class, or a method that is not abstract has the name that is reserved for constructors. The
error names the class with the constructor, or with the signature of the method. -/
inductive Offends (decl : ClassDecl) : BodyMember → Error → Prop where
  | constructor {c : Constructor} : c.modifiers.contains .abstractMember = false →
      c.name ≠ decl.name →
      Offends decl (.constructor c) (.malformed (decl.name ++ "." ++ c.name) .constructorName)
  | method {m : Method} : m.modifiers.contains .abstractMember = false → m.name = "<init>" →
      Offends decl (.method m) (.malformed (decl.name ++ "." ++ m.signature) .reservedName)

/-- The offence of a part of the body, as the check of the members that it stands for finds it. -/
def offence? (decl : ClassDecl) (part : BodyMember) : Option Error :=
  match Member.ofBody? part with
  | none => none
  | some member => if member.isEligible then member.violation? decl else none

/-- Only what gets a counterpart is checked, and it is checked for the two offences. -/
theorem offence?_eq_some_iff {decl : ClassDecl} {part : BodyMember} {e : Error} :
    decl.offence? part = some e ↔ decl.Offends part e := by
  constructor
  · intro found
    cases part with
    | field f => cases found
    | initializer i => cases found
    | type nested => cases found
    | method m =>
      have eligible : (Member.method m).isEligible = !m.modifiers.contains .abstractMember := rfl
      cases abstract : m.modifiers.contains .abstractMember
      all_goals simp [offence?, Member.ofBody?, eligible, abstract, Member.violation?] at found
      obtain ⟨reserved, rfl⟩ := found
      exact .method abstract reserved
    | constructor c =>
      have eligible : (Member.constructor c).isEligible =
        !c.modifiers.contains .abstractMember := rfl
      cases abstract : c.modifiers.contains .abstractMember
      all_goals simp [offence?, Member.ofBody?, eligible, abstract, Member.violation?] at found
      obtain ⟨differs, rfl⟩ := found
      exact .constructor abstract differs
  · intro offends
    cases offends with
    | constructor abstract differs =>
      simp [offence?, Member.ofBody?, Member.isEligible, Member.isAbstract, Member.modifiers,
        abstract, Member.violation?, differs]
    | method abstract reserved =>
      simp [offence?, Member.ofBody?, Member.isEligible, Member.isAbstract, Member.modifiers,
        abstract, Member.violation?, constructorName, reserved]

/-- Filtering the members before the check comes to the same as checking part after part. -/
theorem findSome?_violation (decl : ClassDecl) (parts : List BodyMember) :
    ((parts.filterMap Member.ofBody?).filter Member.isEligible).findSome?
      (Member.violation? decl) = parts.findSome? decl.offence? := by
  induction parts with
  | nil => rfl
  | cons part parts ih =>
    rw [List.filterMap_cons, List.findSome?_cons]
    cases found : Member.ofBody? part with
    | none => simp [offence?, found, ih]
    | some member =>
      by_cases eligible : member.isEligible = true
      · simp [offence?, found, eligible, List.findSome?_cons, ih]
      · simp [offence?, found, eligible, ih]

variable (config : Config) (provider : Provider) {decl : ClassDecl} (package name : String)

theorem outcome_collectEligible (decl : ClassDecl) :
    decl.collectEligible.outcome = .ok decl.eligibleMembers := rfl

theorem requests_collectEligible (decl : ClassDecl) : decl.collectEligible.requests = [] := by
  have collected : decl.collect.outcome = .ok decl.members := rfl
  have logged : decl.collect.requests = [] := rfl
  rw [collectEligible, Traced.requests_of_ok collected, logged, Traced.requests_of_ok rfl]
  simp only [Traced.requests_logAll, List.nil_append]
  rfl

/-- A run that finds an offence ends there, and its trace is that of collecting the members. -/
theorem synthesize_of_offence {e : Error} (found : decl.body.findSome? decl.offence? = some e) :
    decl.synthesize config provider package name = ⟨decl.collectEligible.events, .error e⟩ := by
  rw [← findSome?_violation] at found
  rw [synthesize, Traced.andThen_of_ok decl.outcome_collectEligible, eligibleMembers, members,
    found]
  simp [Traced.failed]

/-- Rebuilding a member asks for its body once. -/
theorem requests_rebuild (config : Config) (provider : Provider) (decl : ClassDecl) (name : String)
    (member : Member) : (rebuild config provider decl name member).requests = [(name, member)] := by
  have answered : (provider.ask decl name member).outcome = .ok (provider decl name member) := rfl
  have asked : (provider.ask decl name member).requests = [(name, member)] := by
    simp [Provider.ask, Traced.requests, Event.request?]
  rw [rebuild, Traced.requests_of_ok answered, asked, Traced.requests_of_ok rfl,
    Traced.requests_logAll]
  rfl

/-- A run that finds no offence asks for each body and ends with the subclass. -/
theorem synthesize_of_sound (sound : decl.body.findSome? decl.offence? = none) :
    (decl.synthesize config provider package name).outcome =
        .ok (decl.subclass config provider package name) ∧
      (decl.synthesize config provider package name).requests =
        decl.eligibleMembers.map fun member => (name, member) := by
  rw [← findSome?_violation] at sound
  have rebuilt := Traced.mapAll_of_ok (f := rebuild config provider decl name)
    (fun member => Counterpart.ofMember config (provider decl name member).statements member)
    (fun _ => rfl) decl.eligibleMembers
  have asked : (Traced.mapAll (rebuild config provider decl name) decl.eligibleMembers).requests =
      decl.eligibleMembers.map fun member => (name, member) := by
    have each := requests_rebuild config provider decl name
    simp only [Traced.requests] at each
    rw [rebuilt, Traced.requests, List.filterMap_flatMap, List.flatMap_congr fun m _ => each m,
      ← List.map_eq_flatMap]
  have checked : decl.eligibleMembers.findSome? (Member.violation? decl) = none := sound
  constructor
  · rw [synthesize, Traced.andThen_of_ok decl.outcome_collectEligible, checked]
    dsimp only
    rw [Traced.andThen_of_ok (congrArg Traced.outcome rebuilt)]
    rfl
  · -- Collecting and checking ask for nothing, rebuilding asks once for each member.
    rw [synthesize, Traced.requests_of_ok decl.outcome_collectEligible, requests_collectEligible,
      checked]
    simp only [List.nil_append]
    rw [Traced.requests_of_ok (congrArg Traced.outcome rebuilt), asked, Traced.requests_of_ok rfl,
      Traced.requests_log]
    exact List.append_nil _

/-- The counterparts are made of the answers for their members. -/
theorem statements_subclass (config : Config) (provider : Provider) (decl : ClassDecl)
    (package name : String) :
    (decl.subclass config provider package name).members.map Counterpart.statements =
      decl.eligibleMembers.map fun member => (provider decl name member).statements := by
  rw [subclass, List.map_map]
  refine List.map_congr_left fun member _ => ?_
  cases member <;> rfl

/-- A synthesis fails exactly when a constructor that is not abstract is not named like its class,
or a method that is not abstract has the name of constructors. The error is that of the first part
that offends; nothing has been asked of the provider then, and no other provider changes the run.
A synthesis that succeeds asks for the body of each member that gets a counterpart, once and in the
order of the members, for the class of the given name; the statements of the counterparts are the
answers, in the same order. -/
theorem synthesis_fails_on_violations (config : Config) (provider : Provider) (decl : ClassDecl)
    (package name : String) :
    ((∃ e, (decl.synthesize config provider package name).outcome = .error e) ↔
      (∃ c, .constructor c ∈ decl.body ∧ c.modifiers.contains .abstractMember = false ∧
        c.name ≠ decl.name) ∨
      ∃ m, .method m ∈ decl.body ∧ m.modifiers.contains .abstractMember = false ∧
        m.name = "<init>") ∧
    (∀ e, (decl.synthesize config provider package name).outcome = .error e →
      (∃ before part after, decl.body = before ++ part :: after ∧ decl.Offends part e ∧
        ∀ earlier ∈ before, ∀ e', ¬ decl.Offends earlier e') ∧
      (decl.synthesize config provider package name).requests = [] ∧
      ∀ other : Provider, decl.synthesize config other package name =
        decl.synthesize config provider package name) ∧
    ∀ s, (decl.synthesize config provider package name).outcome = .ok s →
      ((decl.synthesize config provider package name).requests =
        decl.eligibleMembers.map fun member => (name, member)) ∧
      s.members.map Counterpart.statements =
        (decl.synthesize config provider package name).requests.map fun asked =>
          (provider decl asked.1 asked.2).statements := by
  -- One search over the body decides both how the run ends and what it asks for.
  cases found : decl.body.findSome? decl.offence? with
  | none =>
    obtain ⟨returned, asked⟩ := synthesize_of_sound config provider package name found
    have sound : ∀ part ∈ decl.body, ∀ e, ¬ decl.Offends part e := by
      intro part listed e offends
      have none := List.findSome?_eq_none_iff.mp found part listed
      rw [offence?_eq_some_iff.mpr offends] at none
      cases none
    refine ⟨⟨?_, ?_⟩, ?_, ?_⟩
    · rintro ⟨e, failed⟩
      rw [returned] at failed
      cases failed
    · rintro (⟨c, listed, abstract, differs⟩ | ⟨m, listed, abstract, reserved⟩)
      · exact absurd (.constructor abstract differs) (sound _ listed _)
      · exact absurd (.method abstract reserved) (sound _ listed _)
    · intro e failed
      rw [returned] at failed
      cases failed
    · intro s built
      rw [returned] at built
      obtain rfl := Except.ok.inj built
      -- The requests name the members, and each counterpart is made of what was asked for it.
      refine ⟨asked, ?_⟩
      rw [asked, List.map_map]
      exact decl.statements_subclass config provider package name
  | some e =>
    have run := fun other : Provider => synthesize_of_offence config other package name found
    obtain ⟨before, part, after, split, offends, earlier⟩ := List.findSome?_eq_some_iff.mp found
    have first := offence?_eq_some_iff.mp offends
    refine ⟨⟨fun _ => ?_, fun _ => ⟨e, by rw [run]⟩⟩, ?_, ?_⟩
    · have listed : part ∈ decl.body := by simp [split]
      cases first with
      | constructor abstract differs => exact .inl ⟨_, listed, abstract, differs⟩
      | method abstract reserved => exact .inr ⟨_, listed, abstract, reserved⟩
    · intro e' failed
      rw [run] at failed
      obtain rfl := Except.error.inj failed
      refine ⟨⟨before, part, after, split, first, fun other listed e' offends => ?_⟩, ?_,
        fun other => by rw [run, run]⟩
      · have none := earlier other listed
        rw [offence?_eq_some_iff.mpr offends] at none
        cases none
      · rw [run]
        exact decl.requests_collectEligible
    · intro s returned
      rw [run] at returned
      cases returned

/-- A class that offends twice, behind an abstract method that is not checked. -/
def offendingTwice : ClassDecl :=
  let method (modifiers : List Modifier) (name : String) : BodyMember :=
    .method ⟨.ofList modifiers, [], [], .named "void", name, [], [], some default, .synthetic⟩
  let constructor (name : String) : BodyMember :=
    .constructor ⟨.empty, [], [], name, [], [], default, .synthetic⟩
  ⟨.empty, [], "Shop", [], none, [],
    [method [.abstractMember] "<init>", constructor "Shop", constructor "Shelf", method [] "<init>"],
    .synthetic⟩

theorem synthesis_of_offendingTwice :
    (offendingTwice.synthesize {} .forwarding "shop" "ShopTestable").outcome =
        .error (.malformed "Shop.Shelf" .constructorName) ∧
      (offendingTwice.synthesize {} .forwarding "shop" "ShopTestable").requests = [] ∧
      ((Subclass.sampleBase.synthesize {} .replay "shop" "StoreTestable").requests.map
        fun asked => (asked.1, asked.2.name)) =
        [("StoreTestable", "<init>"), ("StoreTestable", "load"), ("StoreTestable", "hide")] := by
  have failed : (offendingTwice.synthesize {} .forwarding "shop" "ShopTestable").outcome =
      .error (.malformed "Shop.Shelf" .constructorName) := rfl
  have returned : (Subclass.sampleBase.synthesize {} .replay "shop" "StoreTestable").outcome =
      .ok (Subclass.sampleBase.subclass {} .replay "shop" "StoreTestable") := rfl
  obtain ⟨-, errors, -⟩ := synthesis_fails_on_violations {} .forwarding offendingTwice "shop"
    "ShopTestable"
  obtain ⟨-, -, asks⟩ := synthesis_fails_on_violations {} .replay Subclass.sampleBase "shop"
    "StoreTestable"
  refine ⟨failed, (errors _ failed).2.1, ?_⟩
  rw [(asks _ returned).1]
  rfl

end ClassDecl

end TestDouble
