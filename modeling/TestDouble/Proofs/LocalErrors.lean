import TestDouble.Proofs.LocalReading
import TestDouble.Proofs.TokensDecide

/-!
# Errors are local

Every reader looks ahead by two tokens at most, up to the reader of a whole unit. So the error that
something else was expected is decided by the tokens up to the one that was found, and by two more.
-/

namespace TestDouble

/-! ### Parameters and fields -/

namespace Parameter

variable {ι : Type} {b : ι → Nat} {c : Cursor} {c' : ι → Cursor} (s : c.Shares b c')

include s

private theorem readNamed_local {q : Qualifiers} {q' : ι → Qualifiers} {type : TypeRef}
    {type' : ι → TypeRef} {start : Location} {start' : ι → Location} {variadic : Bool}
    {variadic' : ι → Bool} {origin : Cursor} {origin' : ι → Cursor} {within : c.size < origin.size}
    {within' : ∀ i, (c' i).size < (origin' i).size} :
    Local Any c b (readNamed origin q type start variadic c within)
      (fun i => readNamed (origin' i) (q' i) (type' i) (start' i) (variadic' i) (c' i) (within' i)) := by
  unfold readNamed
  rcases s.accept? .thisWord with ⟨none, none'⟩ |
    ⟨t, c₁, h₁, some, leads, t', c₁', h₁', some', -, near⟩
  · simp only [none, none']
    refine s.identifier.next fun name c₁ h₁ _ k name' c₁' h₁' _ s₁ => ?_
    obtain ⟨leads, near⟩ := s₁.dimensions
    exact .here leads (fun _ => trivial) near
  · simp only [some, some']
    exact .here leads (fun _ => trivial) near

theorem read_local : Local Any c b (read c) (fun i => read (c' i)) := by
  simp only [read_eq]
  refine (Qualifiers.read_local s).nextReached fun q c₁ h₁ _ k q' c₁' h₁' _ s₁ => ?_
  refine (TypeRef.read_local s₁).next fun type c₂ h₂ _ k₂ type' c₂' h₂' _ s₂ => ?_
  have annotated := Annotation.pass_local s₂
  refine annotated.nextReached fun _ c₃ h₃ _ k₃ _ c₃' h₃' _ s₃ => ?_
  obtain ⟨leads, near⟩ := s₃.optionally .ellipsis
  refine .behind leads near fun k₄ s₄ => ?_
  exact readNamed_local s₄

theorem readAll_local : Local Any c b (readAll c) (fun i => readAll (c' i)) := by
  refine (s.expect .leftParen _).next fun _ c₁ h₁ _ k _ c₁' h₁' _ s₁ => ?_
  have listed := s₁.items [] (List.filterMap id) (fun d _ => read d) (fun _ d _ => read d)
    fun _ _ _ _ _ s => read_local s
  refine listed.nextReached fun _ c₂ h₂ _ k₂ _ c₂' h₂' _ s₂ => ?_
  refine (s₂.expect .rightParen _).next fun _ c₃ h₃ _ k₃ _ c₃' h₃' _ s₃ => ?_
  exact .done s₃ rfl fun _ => rfl

end Parameter

namespace Declarator

theorem comesNext_eq_of_lexemes {us us' : List Token}
    (same : (us.take 2).map Token.lexeme = (us'.take 2).map Token.lexeme) :
    comesNext us = comesNext us' := by
  rcases us with _ | ⟨t, _ | ⟨u, us⟩⟩ <;> rcases us' with _ | ⟨t', _ | ⟨u', us'⟩⟩ <;>
    simp only [List.take_succ_cons, List.take_zero, List.take_nil, List.map_cons, List.map_nil,
      List.cons.injEq, reduceCtorEq, and_false] at same
  · rfl
  · rfl
  · simp only [comesNext, Token.kind_eq_of_lexeme same.1, Token.kind_eq_of_lexeme same.2.1]

/-- A comma and the next two tokens tell whether another declarator follows. -/
theorem endsInitializer_short : Token.Short endsInitializer :=
  .of_cons fun same behind => by
    simp only [endsInitializer, Token.kind_eq_of_lexeme same, comesNext_eq_of_lexemes behind]

theorem readRest_local {ι : Type} {b : ι → Nat} {c : Cursor} {c' : ι → Cursor} (s : c.Shares b c')
    (name : String) (name' : ι → String) :
    Local Any c b (readRest name c) (fun i => readRest (name' i) (c' i)) := by
  obtain ⟨leads, near⟩ := s.dimensions
  refine .behind leads near fun k s₁ => ?_
  refine (s₁.clause fun _ _ _ _ _ s =>
    Fragment.readValue_local s _ endsInitializer_short).nextReached fun _ c₂ h₂ _ k₂ _ c₂' h₂' _ s₂ => ?_
  exact .done s₂ rfl fun _ => rfl

theorem readAll_local {ι : Type} {b : ι → Nat} {origin c : Cursor} {origin' c' : ι → Cursor}
    {within : c.size ≤ origin.size} {within' : ∀ i, (c' i).size ≤ (origin' i).size}
    (s : c.Shares b c') (name : String) (name' : ι → String) (read : List Declarator)
    (read' : ι → List Declarator) :
    Local Any c b (readAll origin c within name read)
      (fun i => readAll (origin' i) (c' i) (within' i) (name' i) (read' i)) := by
  unfold readAll
  refine (readRest_local s name name').nextReached fun d c₁ h₁ _ k d' c₁' h₁' _ s₁ => ?_
  dsimp only
  rcases s₁.accept? .comma with ⟨none, none'⟩ |
    ⟨t, c₂, h₂, some, leads, t', c₂', h₂', some', -, near⟩
  · simp only [none, none']
    refine (s₁.expect .semicolon _).next fun _ c₂ h₂ _ k₂ _ c₂' h₂' _ s₂ => ?_
    exact .done s₂ rfl fun _ => rfl
  · simp only [some, some']
    refine .behind leads near fun k₂ s₂ => ?_
    refine s₂.identifier.next fun next c₃ h₃ _ k₃ next' c₃' h₃' _ s₃ => ?_
    exact readAll_local s₃ _ _ _ _
termination_by c.size
decreasing_by omega

end Declarator

/-! ### Types known by name only -/

namespace NominalDecl

theorem headerLength?_shared {b : Nat} {ts ts' : List Token} (s : Token.Shared b ts ts')
    {depth n m : Nat} (found : headerLength? ts depth n = some m) (within : b + m < n + ts.length) :
    headerLength? ts' depth n = some m := by
  induction ts generalizing ts' depth n with
  | nil => cases s
  | cons t ts ih =>
    obtain ⟨_, _, t', rest', ahead, rfl, same, -, near⟩ := s.uncons
    obtain ⟨rfl, rfl⟩ := List.cons.inj ahead
    simp only [List.length_cons] at within
    have later {depth : Nat} (found : headerLength? ts depth (n + 1) = some m) :
        headerLength? rest' depth (n + 1) = some m := by
      have counted := headerLength?_ge found
      exact ih (near (by omega)) found (by omega)
    simp only [headerLength?, ← Token.kind_eq_of_lexeme same] at found ⊢
    split at found
    · split_ifs at found ⊢
      · exact found
      · exact later found
    · exact later found
    · exact later found
    · exact later found
    · exact later found
    · exact later found

theorem bodyLength?_shared {b : Nat} {ts ts' : List Token} (s : Token.Shared b ts ts')
    {depth n m : Nat} (found : bodyLength? ts depth n = some m) (within : b + m < n + ts.length) :
    bodyLength? ts' depth n = some m := by
  induction ts generalizing ts' depth n with
  | nil => cases s
  | cons t ts ih =>
    obtain ⟨_, _, t', rest', ahead, rfl, same, -, near⟩ := s.uncons
    obtain ⟨rfl, rfl⟩ := List.cons.inj ahead
    simp only [List.length_cons] at within
    have later {depth : Nat} (found : bodyLength? ts depth (n + 1) = some m) :
        bodyLength? rest' depth (n + 1) = some m := by
      have counted := bodyLength?_gt found
      exact ih (near (by omega)) found (by omega)
    simp only [bodyLength?, ← Token.kind_eq_of_lexeme same] at found ⊢
    split at found
    · exact later found
    · split_ifs at found ⊢
      · exact found
      · exact later found
    · exact later found

variable {ι : Type} {b : ι → Nat} {c : Cursor} {c' : ι → Cursor} (s : c.Shares b c')

include s

theorem kind?_decided : Decided Any b (kind? c) (fun i => kind? (c' i)) := by
  simp only [kind?]
  rcases s.accept? .enumWord with ⟨none, none'⟩ |
    ⟨t, c₁, h₁, some, leads, t', c₁', h₁', some', -, near⟩
  swap
  · simp only [some, some']
    exact .inr ⟨_, c₁, h₁, rfl, leads, _, c₁', h₁', fun _ => rfl, fun _ => trivial, near⟩
  simp only [none, none']
  rcases s.acceptPair? .atSign .interfaceWord with ⟨none, none'⟩ |
    ⟨t, c₁, h₁, some, leads, t', c₁', h₁', some', -, near⟩
  swap
  · simp only [some, some']
    exact .inr ⟨_, c₁, h₁, rfl, leads, _, c₁', h₁', fun _ => rfl, fun _ => trivial, near⟩
  simp only [none, none']
  rcases s.acceptWord? "record" with ⟨none, none'⟩ |
    ⟨t, c₁, h₁, some, leads, t', c₁', h₁', some', -, near⟩
  · simp only [none, none']
    exact .inl ⟨rfl, fun _ => rfl⟩
  · simp only [some, some']
    exact .inr ⟨_, c₁, h₁, rfl, leads, _, c₁', h₁', fun _ => rfl, fun _ => trivial, near⟩

theorem passBody_local : Local Any c b (passBody c) (fun i => passBody (c' i)) := by
  rcases header : headerLength? c.ahead 0 0 with _ | n
  · rw [passBody_of_noHeader header]
    exact .missing
  rcases body : bodyLength? (c.ahead.drop (n + 1)) 0 0 with _ | m
  · rw [passBody_of_noBody header body]
    exact .missing
  have skips {d : Cursor} (header : headerLength? d.ahead 0 0 = some n)
      (body : bodyLength? (d.ahead.drop (n + 1)) 0 0 = some m) :
      ∃ within r, passBody d = .ok r ∧ r.cursor = d.skip (n + 1 + m) within := by
    obtain ⟨within, h, passed⟩ := passBody_of_counted header body
    exact ⟨within, _, passed, rfl⟩
  -- The header and the body end before the place, so both are found where they were.
  refine .skip s (skips header body) fun i within => ?_
  rw [Cursor.size] at within
  have rest := (s i).drop (n + 1) (by rw [List.length_drop]; omega)
  exact skips (headerLength?_shared (s i) header (by omega))
    (bodyLength?_shared rest body (by rw [List.length_drop]; omega))

theorem readRest_local (kind : NominalKind) (kind' : ι → NominalKind) (q : Qualifiers)
    (q' : ι → Qualifiers) (start : Location) (start' : ι → Location) :
    Local Any c b (readRest kind q start c)
      (fun i => readRest (kind' i) (q' i) (start' i) (c' i)) := by
  refine s.identifier.next fun _ c₁ h₁ _ k _ c₁' h₁' _ s₁ => ?_
  refine (passBody_local s₁).nextReached fun _ c₂ h₂ _ k₂ _ c₂' h₂' _ s₂ => ?_
  exact .done s₂ rfl fun _ => rfl

end NominalDecl

/-! ### Members and types -/

section

variable {ι : Type} {b : ι → Nat} {c : Cursor} {c' : ι → Cursor} (s : c.Shares b c')

include s

private theorem Method.readBody_local :
    Local Any c b
      (if c.sees [.leftBrace] then do
          let ⟨block, c₁, h₁⟩ ← Block.read c
          return ⟨some block, c₁, h₁⟩
        else do
          let ⟨_, c₁, h₁⟩ ← c.expect .semicolon "'\x7b' or ';' after method declaration"
          return ⟨none, c₁, h₁⟩ : Reading (Option Block) c)
      (fun i => (if (c' i).sees [.leftBrace] then do
          let ⟨block, c₁, h₁⟩ ← Block.read (c' i)
          return ⟨some block, c₁, h₁⟩
        else do
          let ⟨_, c₁, h₁⟩ ← (c' i).expect .semicolon "'\x7b' or ';' after method declaration"
          return ⟨none, c₁, h₁⟩ : Reading (Option Block) (c' i))) := by
  simp only [s.sees_one]
  by_cases block : c.sees [.leftBrace] = true
  · simp only [if_pos block]
    refine (Block.read_local s).next fun _ c₁ h₁ _ k _ c₁' h₁' _ s₁ => ?_
    exact .done s₁ rfl fun _ => rfl
  · simp only [if_neg block]
    refine (s.expect .semicolon _).next fun _ c₁ h₁ _ k _ c₁' h₁' _ s₁ => ?_
    exact .done s₁ rfl fun _ => rfl

theorem Method.readRest_local (q : Qualifiers) (q' : ι → Qualifiers)
    (typeParameters : List TypeParameter) (typeParameters' : ι → List TypeParameter)
    (returnType : TypeRef) (returnType' : ι → TypeRef) (name : String) (name' : ι → String)
    (start : Location) (start' : ι → Location) :
    Local Any c b (readRest q typeParameters returnType name start c)
      (fun i => readRest (q' i) (typeParameters' i) (returnType' i) (name' i) (start' i) (c' i)) := by
  refine (Parameter.readAll_local s).next fun _ c₁ h₁ _ k _ c₁' h₁' _ s₁ => ?_
  obtain ⟨leads, near⟩ := s₁.dimensions
  refine .behind leads near fun k₂ s₂ => ?_
  refine (TypeRef.readClause_local s₂ .throwsWord).nextReached fun _ c₃ h₃ _ k₃ _ c₃' h₃' _ s₃ => ?_
  refine (Method.readBody_local s₃).next fun _ c₄ h₄ _ k₄ _ c₄' h₄' _ s₄ => ?_
  exact .done s₄ rfl fun _ => rfl

theorem Constructor.readRest_local (q : Qualifiers) (q' : ι → Qualifiers)
    (typeParameters : List TypeParameter) (typeParameters' : ι → List TypeParameter)
    (start : Location) (start' : ι → Location) :
    Local Any c b (readRest q typeParameters start c)
      (fun i => readRest (q' i) (typeParameters' i) (start' i) (c' i)) := by
  refine s.identifier.next fun _ c₁ h₁ _ k _ c₁' h₁' _ s₁ => ?_
  refine ((Parameter.readAll_local s₁).mapError _).next fun _ c₂ h₂ _ k₂ _ c₂' h₂' _ s₂ => ?_
  refine (TypeRef.readClause_local s₂ .throwsWord).nextReached fun _ c₃ h₃ _ k₃ _ c₃' h₃' _ s₃ => ?_
  refine (Block.read_local s₃).next fun _ c₄ h₄ _ k₄ _ c₄' h₄' _ s₄ => ?_
  exact .done s₄ rfl fun _ => rfl

theorem TypeDecl.comesNext_eq_of_shares (i : ι) : comesNext (c' i) = comesNext c := by
  simp only [comesNext, s.sees_one, s.sees_two, s.seesWord_eq]

theorem TypeDecl.passPermits_local :
    Local Any c b (passPermits c) (fun i => passPermits (c' i)) := by
  simp only [passPermits]
  rcases s.acceptWord? "permits" with ⟨none, none'⟩ |
    ⟨t, c₁, h₁, some, leads, t', c₁', h₁', some', -, near⟩
  · simp only [none, none']
    exact .done s rfl fun _ => rfl
  · simp only [some, some']
    refine .behind leads near fun k s₁ => ?_
    refine (TypeRef.readList_local s₁).next fun _ c₂ h₂ _ k₂ _ c₂' h₂' _ s₂ => ?_
    exact .done s₂ rfl fun _ => rfl

end

mutual

theorem TypeDecl.readRest_local {ι : Type} {b : ι → Nat} {c : Cursor} {c' : ι → Cursor}
    (s : c.Shares b c') (q : Qualifiers) (q' : ι → Qualifiers) (start : Location)
    (start' : ι → Location) :
    Local Any c b (TypeDecl.readRest q start c)
      (fun i => TypeDecl.readRest (q' i) (start' i) (c' i)) := by
  unfold TypeDecl.readRest
  rcases s.accept? .classWord with ⟨none, none'⟩ |
    ⟨t, c₁, h₁, some, leads, t', c₁', h₁', some', -, near⟩
  swap
  · simp only [some, some']
    refine .behind leads near fun k₁ s₁ => ?_
    refine s₁.identifier.next fun name c₂ h₂ _ k₂ name' c₂' h₂' same s₂ => ?_
    -- The name is told in the errors that are met in the body.
    obtain rfl : name' = fun _ => name := funext fun j => (same j).symm
    refine (TypeParameter.readAll_local s₂).nextReached fun _ c₃ h₃ _ k₃ _ c₃' h₃' _ s₃ => ?_
    refine (s₃.clause fun _ _ _ _ _ s => TypeRef.read_local s).nextReached
      fun _ c₄ h₄ _ k₄ _ c₄' h₄' _ s₄ => ?_
    refine (TypeRef.readClause_local s₄ .implementsWord).nextReached
      fun _ c₅ h₅ _ k₅ _ c₅' h₅' _ s₅ => ?_
    refine (TypeDecl.passPermits_local s₅).nextReached fun _ c₆ h₆ _ k₆ _ c₆' h₆' _ s₆ => ?_
    refine ((BodyMember.readBody_local s₆).mapError _).next fun _ c₇ h₇ _ k₇ _ c₇' h₇' _ s₇ => ?_
    exact .done s₇ rfl fun _ => rfl
  simp only [none, none']
  rcases s.accept? .interfaceWord with ⟨none, none'⟩ |
    ⟨t, c₁, h₁, some, leads, t', c₁', h₁', some', -, near⟩
  swap
  · simp only [some, some']
    refine .behind leads near fun k₁ s₁ => ?_
    refine s₁.identifier.next fun name c₂ h₂ _ k₂ name' c₂' h₂' same s₂ => ?_
    obtain rfl : name' = fun _ => name := funext fun j => (same j).symm
    refine (TypeParameter.readAll_local s₂).nextReached fun _ c₃ h₃ _ k₃ _ c₃' h₃' _ s₃ => ?_
    refine (TypeRef.readClause_local s₃ .extendsWord).nextReached
      fun _ c₄ h₄ _ k₄ _ c₄' h₄' _ s₄ => ?_
    refine (TypeDecl.passPermits_local s₄).nextReached fun _ c₅ h₅ _ k₅ _ c₅' h₅' _ s₅ => ?_
    refine ((BodyMember.readBody_local s₅).mapError _).next fun _ c₆ h₆ _ k₆ _ c₆' h₆' _ s₆ => ?_
    exact .done s₆ rfl fun _ => rfl
  simp only [none, none']
  rcases NominalDecl.kind?_decided s with ⟨none, none'⟩ |
    ⟨kind, c₁, h₁, some, leads, kind', c₁', h₁', some', -, near⟩
  · simp only [none, none']
    exact .expected s _
  · simp only [some, some']
    refine .behind leads near fun k₁ s₁ => ?_
    refine (NominalDecl.readRest_local s₁ _ _ _ _ _ _).next fun _ c₂ h₂ _ k₂ _ c₂' h₂' _ s₂ => ?_
    exact .done s₂ rfl fun _ => rfl
termination_by 4 * c.size
decreasing_by all_goals omega

theorem BodyMember.readBody_local {ι : Type} {b : ι → Nat} {c : Cursor} {c' : ι → Cursor}
    (s : c.Shares b c') :
    Local Any c b (BodyMember.readBody c) (fun i => BodyMember.readBody (c' i)) := by
  unfold BodyMember.readBody
  refine (s.expect .leftBrace _).next fun _ c₁ h₁ _ k _ c₁' h₁' _ s₁ => ?_
  exact BodyMember.readAll_local s₁ _ _
termination_by 4 * c.size + 3

theorem BodyMember.readAll_local {ι : Type} {b : ι → Nat} {origin c : Cursor}
    {origin' c' : ι → Cursor} {within : c.size < origin.size}
    {within' : ∀ i, (c' i).size < (origin' i).size} (s : c.Shares b c') (read : List BodyMember)
    (read' : ι → List BodyMember) :
    Local Any c b (BodyMember.readAll origin c within read)
      (fun i => BodyMember.readAll (origin' i) (c' i) (within' i) (read' i)) := by
  unfold BodyMember.readAll
  rcases s.accept? .rightBrace with ⟨none, none'⟩ |
    ⟨t, c₁, h₁, some, leads, t', c₁', h₁', some', -, near⟩
  swap
  · simp only [some, some']
    exact .here leads (fun _ => trivial) near
  simp only [none, none', s.isEmpty_eq]
  by_cases atEnd : c.ahead.isEmpty = true
  · simp only [if_pos atEnd]
    exact .expected s _
  simp only [if_neg atEnd]
  rcases s.accept? .semicolon with ⟨none, none'⟩ |
    ⟨t, c₁, h₁, some, leads, t', c₁', h₁', some', -, near⟩
  · simp only [none, none']
    refine (BodyMember.read_local s).next fun _ c₁ h₁ _ k _ c₁' h₁' _ s₁ => ?_
    exact BodyMember.readAll_local s₁ _ _
  · simp only [some, some']
    refine .behind leads near fun k s₁ => ?_
    exact BodyMember.readAll_local s₁ _ _
termination_by 4 * c.size + 2

theorem BodyMember.read_local {ι : Type} {b : ι → Nat} {c : Cursor} {c' : ι → Cursor}
    (s : c.Shares b c') : Local Any c b (BodyMember.read c) (fun i => BodyMember.read (c' i)) := by
  unfold BodyMember.read
  simp only [s.sees_one, s.sees_two]
  by_cases initializer : c.sees [.leftBrace] = true
  · simp only [if_pos initializer]
    refine (Block.read_local s).next fun _ c₁ h₁ _ k _ c₁' h₁' _ s₁ => ?_
    exact .done s₁ rfl fun _ => rfl
  simp only [if_neg initializer]
  by_cases static : c.sees [.modifier .staticMember, .leftBrace] = true
  · simp only [if_pos static]
    refine (s.expect (.modifier .staticMember) _).next fun _ c₁ h₁ _ k _ c₁' h₁' _ s₁ => ?_
    refine (Block.read_local s₁).next fun _ c₂ h₂ _ k₂ _ c₂' h₂' _ s₂ => ?_
    exact .done s₂ rfl fun _ => rfl
  simp only [if_neg static]
  refine (Qualifiers.read_local s).nextReached fun q c₁ h₁ _ k q' c₁' h₁' _ s₁ => ?_
  simp only [TypeDecl.comesNext_eq_of_shares s₁]
  by_cases type : TypeDecl.comesNext c₁ = true
  · simp only [if_pos type]
    refine (TypeDecl.readRest_local s₁ _ _ _ _).next fun _ c₂ h₂ _ k₂ _ c₂' h₂' _ s₂ => ?_
    exact .done s₂ rfl fun _ => rfl
  simp only [if_neg type]
  refine (TypeParameter.readAll_local s₁).nextReached fun ps c₂ h₂ _ k₂ ps' c₂' h₂' samePs s₂ => ?_
  -- Behind type parameters, only a method or a constructor may come.
  have sameEmpty (j) : (ps' j).isEmpty = ps.isEmpty := (samePs j).symm
  simp only [s₂.sees_two]
  by_cases constructor : c₂.sees [.identifier, .leftParen] = true
  · simp only [if_pos constructor]
    refine (Constructor.readRest_local s₂ _ _ _ _ _ _).next fun _ c₃ h₃ _ k₃ _ c₃' h₃' _ s₃ => ?_
    exact .done s₃ rfl fun _ => rfl
  simp only [if_neg constructor]
  refine (TypeRef.read_local s₂).next fun type c₃ h₃ _ k₃ type' c₃' h₃' _ s₃ => ?_
  refine s₃.identifier.next fun name c₄ h₄ _ k₄ name' c₄' h₄' _ s₄ => ?_
  simp only [s₄.sees_one, sameEmpty]
  by_cases method : c₄.sees [.leftParen] = true
  · simp only [if_pos method]
    refine ((Method.readRest_local s₄ _ _ _ _ _ _ _ _ _ _).mapError _).next
      fun _ c₅ h₅ _ k₅ _ c₅' h₅' _ s₅ => ?_
    exact .done s₅ rfl fun _ => rfl
  simp only [if_neg method]
  by_cases generic : (!ps.isEmpty) = true
  · simp only [if_pos generic]
    exact .expected s₄ _
  · simp only [if_neg generic]
    refine (Declarator.readAll_local s₄ _ _ _ _).next fun _ c₅ h₅ _ k₅ _ c₅' h₅' _ s₅ => ?_
    exact .done s₅ rfl fun _ => rfl
termination_by 4 * c.size + 1
decreasing_by all_goals omega

end

/-! ### Units -/

section

variable {ι : Type} {b : ι → Nat} {c : Cursor} {c' : ι → Cursor} (s : c.Shares b c')

include s

theorem TypeDecl.read_local : Local Any c b (read c) (fun i => read (c' i)) := by
  refine (Qualifiers.read_local s).nextReached fun _ c₁ h₁ _ k _ c₁' h₁' _ s₁ => ?_
  refine (TypeDecl.readRest_local s₁ _ _ _ _).next fun _ c₂ h₂ _ k₂ _ c₂' h₂' _ s₂ => ?_
  exact .done s₂ rfl fun _ => rfl

theorem PackageDecl.read?_local : Local Any c b (read? c) (fun i => read? (c' i)) := by
  simp only [read?]
  rcases s.accept? .packageWord with ⟨none, none'⟩ |
    ⟨t, c₁, h₁, some, leads, t', c₁', h₁', some', -, near⟩
  · simp only [none, none']
    exact .done s rfl fun _ => rfl
  · simp only [some, some']
    refine .behind leads near fun k s₁ => ?_
    refine s₁.dottedName.next fun _ c₂ h₂ _ k₂ _ c₂' h₂' _ s₂ => ?_
    refine (s₂.expect .semicolon _).next fun _ c₃ h₃ _ k₃ _ c₃' h₃' _ s₃ => ?_
    exact .done s₃ rfl fun _ => rfl

end

namespace ImportDecl

variable {ι : Type} {b : ι → Nat}

private theorem readTarget_local {c origin : Cursor} {c' origin' : ι → Cursor} (s : c.Shares b c')
    {isStatic : Bool} {isStatic' : ι → Bool} {start : Location} {start' : ι → Location}
    {within : c.size ≤ origin.size} {within' : ∀ i, (c' i).size ≤ (origin' i).size} :
    Local Any c b (readTarget origin start isStatic c within)
      (fun i => readTarget (origin' i) (start' i) (isStatic' i) (c' i) (within' i)) := by
  refine s.dottedName.next fun _ c₂ h₂ _ k₂ _ c₂' h₂' _ s₂ => ?_
  refine (s₂.clause fun _ _ _ _ _ s => s.expect .star _).nextReached
    fun _ c₃ h₃ _ k₃ _ c₃' h₃' _ s₃ => ?_
  refine (s₃.expect .semicolon _).next fun _ c₄ h₄ _ k₄ _ c₄' h₄' _ s₄ => ?_
  exact .done s₄ rfl fun _ => rfl

theorem readRest_local {c : Cursor} {c' : ι → Cursor} (s : c.Shares b c') (start : Location)
    (start' : ι → Location) :
    Local Any c b (readRest start c) (fun i => readRest (start' i) (c' i)) := by
  simp only [readRest_eq]
  obtain ⟨leads, near⟩ := s.optionally (.modifier .staticMember)
  refine .behind leads near fun k s₁ => ?_
  exact readTarget_local s₁

theorem readFrom_local {ι : Type} {b : ι → Nat} {origin c : Cursor} {origin' c' : ι → Cursor}
    {within : c.size ≤ origin.size} {within' : ∀ i, (c' i).size ≤ (origin' i).size}
    (s : c.Shares b c') (read : List ImportDecl) (read' : ι → List ImportDecl) :
    Local Any c b (readFrom origin c within read)
      (fun i => readFrom (origin' i) (c' i) (within' i) (read' i)) := by
  unfold readFrom
  rcases s.accept? .importWord with ⟨none, none'⟩ |
    ⟨t, c₁, h₁, some, leads, t', c₁', h₁', some', -, near⟩
  · simp only [none, none']
    exact .done s rfl fun _ => rfl
  · simp only [some, some']
    refine .behind leads near fun k s₁ => ?_
    refine (readRest_local s₁ _ _).next fun _ c₂ h₂ _ k₂ _ c₂' h₂' _ s₂ => ?_
    exact readFrom_local s₂ _ _
termination_by c.size

end ImportDecl

theorem Preamble.read_local {ι : Type} {b : ι → Nat} {c : Cursor} {c' : ι → Cursor}
    (s : c.Shares b c') : Local Any c b (read c) (fun i => read (c' i)) := by
  refine (PackageDecl.read?_local s).nextReached fun _ c₁ h₁ _ k _ c₁' h₁' _ s₁ => ?_
  refine (ImportDecl.readFrom_local s₁ [] fun _ => []).nextReached
    fun _ c₂ h₂ _ k₂ _ c₂' h₂' _ s₂ => ?_
  exact .done s₂ rfl fun _ => rfl

namespace TypeDecl

/-- How reading types goes on behind one of them. -/
theorem readAll_of_none {c : Cursor} (more : ¬c.ahead.isEmpty = true)
    (none : c.accept? .semicolon = none) (types : List TypeDecl) :
    (readAll c types).2 =
      (read c >>= fun ⟨decl, c₁, _⟩ => (readAll c₁ (decl :: types)).2) := by
  rw [readAll, if_neg more, none]
  cases read c with
  | ok r => rfl
  | error e => rfl

theorem readAll_local {ι : Type} {b : ι → Nat} {c : Cursor} {c' : ι → Cursor} (s : c.Shares b c')
    (types : List TypeDecl) (types' : ι → List TypeDecl) :
    Local Any c b (readAll c types).2 (fun i => (readAll (c' i) (types' i)).2) := by
  have more (i) (more : ¬c.ahead.isEmpty = true) : ¬(c' i).ahead.isEmpty = true := by
    rwa [s.isEmpty_eq]
  by_cases atEnd : c.ahead.isEmpty = true
  · unfold readAll
    simp only [s.isEmpty_eq, if_pos atEnd]
    exact .done s rfl fun _ => rfl
  rcases s.accept? .semicolon with ⟨none, none'⟩ |
    ⟨t, c₁, h₁, some, leads, t', c₁', h₁', some', -, near⟩
  · simp only [readAll_of_none atEnd none, fun i => readAll_of_none (more i atEnd) (none' i)]
    refine (read_local s).next fun _ c₁ h₁ _ k _ c₁' h₁' _ s₁ => ?_
    exact readAll_local s₁ _ _
  · unfold readAll
    simp only [s.isEmpty_eq, if_neg atEnd, some, some']
    refine .behind leads near fun k s₁ => ?_
    exact readAll_local s₁ _ _
termination_by c.size

end TypeDecl

namespace CompilationUnit

/-- Where reading the tokens of a source ends, or the error that it ends with. -/
def readEnd (c : Cursor) : Except ParseError Cursor := do
  let ⟨_, c₁, _⟩ ← Preamble.read c
  (TypeDecl.readAll c₁ []).2

theorem readEnd_local {ι : Type} {b : ι → Nat} {c : Cursor} {c' : ι → Cursor} (s : c.Shares b c') :
    Local Any c b (readEnd c) (fun i => readEnd (c' i)) := by
  refine (Preamble.read_local s).nextReached fun _ c₁ h₁ _ k _ c₁' h₁' _ s₁ => ?_
  exact TypeDecl.readAll_local s₁ [] fun _ => []

/-- A unit is not read where its preamble or one of its types is not. -/
theorem ofTokens_eq_error_iff {tokens : List Token} {e : ParseError} :
    (ofTokens tokens).2 = .error e ↔ readEnd (.start tokens) = .error e := by
  rw [ofTokens, readEnd]
  cases Preamble.read (.start tokens) with
  | error e₀ =>
    constructor
    · intro same
      exact congrArg _ (Except.error.inj same)
    · intro same
      exact congrArg _ (Except.error.inj same)
  | ok r =>
    obtain ⟨preamble, c, h⟩ := r
    change _ ↔ (TypeDecl.readAll c []).2 = .error e
    dsimp only
    rcases TypeDecl.readAll c [] with ⟨types, _ | d⟩
    · simp
    · simp

theorem outcome_read_eq_error_iff {source : String} {e : ParseError} {what found : String}
    (cause : e.cause = .unexpectedToken what found) :
    (read source).outcome = .error (.parse e) ↔
      ∃ tokens, Token.ofSource source = .ok tokens ∧ readEnd (.start tokens) = .error e := by
  cases lexed : Token.ofSource source with
  | error piece =>
    constructor
    · intro failed
      rw [read, lexed] at failed
      obtain rfl : ParseError.located ⟨0, 0, 0⟩ (.lexical piece.complaint) = e :=
        Error.parse.inj (Except.error.inj failed)
      cases cause
    · rintro ⟨tokens, ⟨⟩, -⟩
  | ok tokens =>
    rw [outcome_read lexed]
    constructor
    · intro failed
      rcases ended : (ofTokens tokens).2 with e₀ | unit
      · rw [ended] at failed
        obtain rfl := Error.parse.inj (Except.error.inj failed)
        exact ⟨tokens, rfl, ofTokens_eq_error_iff.mp ended⟩
      · rw [ended] at failed
        cases failed
    · rintro ⟨_, ⟨⟩, ended⟩
      rw [ofTokens_eq_error_iff.mpr ended]
      rfl

end CompilationUnit

/-- Two sources agree on the tokens up to index `i`, but for the texts skipped between them, and on
the kinds and texts of the next two, which may be missing from both. -/
structure Token.AgreeUpTo (i : Nat) (ts ts' : List Token) : Prop where
  upTo : ∀ j ≤ i, ts'[j]?.map (fun t => (t.lexeme, t.location)) = ts[j]?.map fun t => (t.lexeme, t.location)
  behind : ∀ j, i < j → j ≤ i + 2 → ts'[j]?.map lexeme = ts[j]?.map lexeme

namespace Token.AgreeUpTo

theorem uncons {i : Nat} {t : Token} {ts ts' : List Token} (agree : AgreeUpTo i (t :: ts) ts') :
    ∃ t' rest', ts' = t' :: rest' ∧ t.lexeme = t'.lexeme ∧ t.location = t'.location := by
  have first := agree.upTo 0 (Nat.zero_le i)
  cases ts' with
  | nil => simp at first
  | cons t' rest' =>
    simp only [List.getElem?_cons_zero, Option.map_some, Option.some.injEq, Prod.mk.injEq] at first
    exact ⟨t', rest', rfl, first.1.symm, first.2.symm⟩

theorem shared {i : Nat} {ts ts' : List Token} (agree : AgreeUpTo i ts ts') (inside : i < ts.length) :
    Shared (ts.length - (i + 1)) ts ts' := by
  induction i generalizing ts ts' with
  | zero =>
    obtain ⟨t, ts, rfl⟩ := List.exists_cons_of_length_pos inside
    obtain ⟨t', rest', rfl, same, place⟩ := agree.uncons
    refine .last same place rfl ?_
    -- The next two are compared one by one; a missing one is missing on both sides.
    apply List.ext_getElem?
    intro j
    rw [List.map_take, List.map_take]
    by_cases near : j < 2
    · have behind := agree.behind (j + 1) (by omega) (by omega)
      simpa [List.getElem?_take, near] using behind.symm
    · rw [List.getElem?_take, List.getElem?_take, if_neg near, if_neg near]
  | succ i ih =>
    obtain ⟨t, ts, rfl⟩ := List.exists_cons_of_length_pos (Nat.lt_of_le_of_lt (Nat.zero_le _) inside)
    obtain ⟨t', rest', rfl, same, place⟩ := agree.uncons
    have later : AgreeUpTo i ts rest' := by
      constructor
      · intro j early
        simpa using agree.upTo (j + 1) (by omega)
      · intro j late early
        simpa using agree.behind (j + 1) (by omega) (by omega)
    have rest := ih later (by simpa using inside)
    refine .cons same place ?_
    rw [List.length_cons, Nat.add_sub_add_right]
    exact rest

end Token.AgreeUpTo

namespace CompilationUnit

/-- Parse errors are local. Where something else was expected than a token that was found, the error
stands at that token; and every source that agrees on the tokens up to it, and on two more, ends with
the same error. -/
theorem parse_errors_local {source : String} {e : ParseError} {what found : String}
    (failed : (read source).outcome = .error (.parse e))
    (cause : e.cause = .unexpectedToken what found) :
    ∃ tokens i t, Token.ofSource source = .ok tokens ∧ tokens[i]? = some t ∧ t.text = found ∧
      e.location = t.location ∧
      ∀ other tokens', Token.ofSource other = .ok tokens' → Token.AgreeUpTo i tokens tokens' →
        (read other).outcome = .error (.parse e) := by
  obtain ⟨tokens, lexed, ended⟩ := (outcome_read_eq_error_iff cause).mp failed
  -- The others are all that share their tokens up to some place.
  have shares : (Cursor.start tokens).Shares
      (fun p : {p : Nat × List Token // Token.Shared p.1 tokens p.2} => p.1.1)
      (fun p => .start p.1.2) := fun p => p.2
  -- The error stands at a token ahead of `d`, and what was taken before gives its index.
  obtain ⟨d, t, rest, ⟨taken, passes⟩, ahead, text, place, others⟩ :=
    (readEnd_local shares).error e what found ended cause
  have whole : tokens = taken ++ t :: rest := by rw [← ahead]; exact passes.ahead
  refine ⟨tokens, taken.length, t, lexed, by simp [whole], text, place, ?_⟩
  intro other tokens' lexed' agree
  have inside : taken.length < tokens.length := by simp [whole]
  have behind : tokens.length - (taken.length + 1) < d.size := by
    rw [Cursor.size, ahead, whole, List.length_append, List.length_cons]
    omega
  have same := others ⟨(_, tokens'), agree.shared inside⟩ behind
  exact (outcome_read_eq_error_iff cause).mpr ⟨tokens', lexed', same⟩

/-- The cause of a parse error. -/
private def parseCause? : Except Error CompilationUnit → Option ParseError.Cause
  | .error (.parse e) => some e.cause
  | _ => none

private theorem parseCause?_eq_some {outcome : Except Error CompilationUnit}
    {cause : ParseError.Cause} (told : parseCause? outcome = some cause) :
    ∃ e, outcome = .error (.parse e) ∧ e.cause = cause := by
  unfold parseCause? at told
  split at told
  next e => exact ⟨e, rfl, Option.some.inj told⟩
  next => cases told

/-- A field without a name, and tokens behind it that are never looked at. -/
private def namelessSource : String := "class A \x7b int \x7d \x7d void ( class"

theorem parse_errors_local_sample :
    ∃ e tokens i t, (read namelessSource).outcome = .error (.parse e) ∧
      e.cause = .unexpectedToken "identifier" "\x7d" ∧
      Token.ofSource namelessSource = .ok tokens ∧ tokens[i]? = some t ∧ t.text = "\x7d" ∧
      e.location = t.location ∧
      ∀ other tokens', Token.ofSource other = .ok tokens' → Token.AgreeUpTo i tokens tokens' →
        (read other).outcome = .error (.parse e) := by
  have computed : parseCause? (read namelessSource).outcome =
      some (.unexpectedToken "identifier" "\x7d") := by
    decide +kernel
  obtain ⟨e, failed, cause⟩ := parseCause?_eq_some computed
  obtain ⟨tokens, i, t, locally⟩ := parse_errors_local failed cause
  exact ⟨e, tokens, i, t, failed, cause, locally⟩

end CompilationUnit

end TestDouble
