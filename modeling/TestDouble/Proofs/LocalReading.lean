import TestDouble.Proofs.Lookahead

/-!
# Blocks, annotations and types are read locally

The readers of statements, annotations, modifiers and types look ahead by two tokens at most. Each
statement follows the reader it is about; readers that call each other are gone through together.
-/

namespace TestDouble

/-! ### Blocks -/

namespace Block

mutual

theorem read_local {ι : Type} {b : ι → Nat} {c : Cursor} {c' : ι → Cursor} (s : c.Shares b c') :
    Local Any c b (Block.read c) (fun i => Block.read (c' i)) := by
  unfold Block.read
  refine (s.expect .leftBrace _).next fun _ c₁ h₁ _ k _ c₁' h₁' _ s₁ => ?_
  refine (readStatements_local s₁ 0 [] fun _ => []).next fun _ c₂ h₂ _ k₂ _ c₂' h₂' _ s₂ => ?_
  exact .done s₂ rfl fun _ => rfl
termination_by 2 * c.size

theorem readStatements_local {ι : Type} {b : ι → Nat} {origin c : Cursor} {origin' c' : ι → Cursor}
    {start : Location} {start' : ι → Location} {within : c.size < origin.size}
    {within' : ∀ i, (c' i).size < (origin' i).size} (s : c.Shares b c') (count : Nat)
    (read : List BodyStatement) (read' : ι → List BodyStatement) :
    Local Any c b (readStatements origin start c within count read)
      (fun i => readStatements (origin' i) (start' i) (c' i) (within' i) count (read' i)) := by
  unfold readStatements
  -- The rounds are counted alike, so all of them are over the limit or none is.
  by_cases large : limit ≤ count
  · simp only [if_pos large]
    exact .other (by simp [ParseError.located])
  simp only [if_neg large]
  rcases s.accept? .rightBrace with ⟨none, none'⟩ |
    ⟨t, c₁, h₁, some, leads, t', c₁', h₁', some', -, near⟩
  swap
  · simp only [some, some']
    exact .here leads (fun _ => trivial) near
  simp only [none, none']
  rcases s.accept? .semicolon with ⟨none, none'⟩ |
    ⟨t, c₁, h₁, some, leads, t', c₁', h₁', some', -, near⟩
  swap
  · simp only [some, some']
    refine .behind leads near fun k s₁ => ?_
    exact readStatements_local s₁ (count + 1) _ _
  simp only [none, none', s.isEmpty_eq, s.sees_one]
  by_cases atEnd : c.ahead.isEmpty = true
  · simp only [if_pos atEnd]
    exact .expected s _
  by_cases block : c.sees [.leftBrace] = true
  · simp only [if_neg atEnd, if_pos block]
    refine (read_local s).next fun _ c₁ h₁ _ k _ c₁' h₁' _ s₁ => ?_
    exact readStatements_local s₁ (count + 1) _ _
  · simp only [if_neg atEnd, if_neg block]
    refine (Fragment.readStatement_local s).next fun _ c₁ h₁ _ k _ c₁' h₁' _ s₁ => ?_
    exact readStatements_local s₁ (count + 1) _ _
termination_by 2 * c.size + 1

end

end Block

/-! ### Annotations and modifiers -/

namespace Annotation

variable {ι : Type} {b : ι → Nat} {c : Cursor} {c' : ι → Cursor}

theorem atComma_short : Token.Short atComma :=
  .of_cons fun same _ => by simp only [atComma, Token.kind_eq_of_lexeme same]

/-- Whether an argument is a pair of a key and a value is decided by two tokens. -/
theorem readArgument_of_pair {c d : Cursor} {t : Token} {h : d.size < c.size}
    (found : c.acceptPair? .identifier .assign = some ⟨t, d, h⟩) :
    ∃ key, readArgument c = (do
      let ⟨value, c₁, h₁⟩ ← Fragment.readValue d "annotation value" atComma
      return ⟨.named key value.text, c₁, Cursor.lt_of_lt_lt h h₁⟩) := by
  obtain ⟨last, _ | ⟨key, _ | ⟨sign, rest⟩⟩⟩ := c
  · cases found
  · cases found
  · simp only [Cursor.acceptPair?] at found
    split at found
    next kinds =>
      cases found
      refine ⟨key.text, ?_⟩
      simp only [readArgument, if_pos kinds]
    next => cases found

theorem readArgument_of_none (absent : c.acceptPair? .identifier .assign = none) :
    readArgument c = (do
      let ⟨value, c₁, h₁⟩ ← Fragment.readValue c "annotation value" atComma
      return ⟨.value value.text, c₁, h₁⟩) := by
  obtain ⟨last, _ | ⟨key, _ | ⟨sign, rest⟩⟩⟩ := c
  · rfl
  · rfl
  · simp only [Cursor.acceptPair?] at absent
    split at absent
    next => cases absent
    next kinds => simp only [readArgument, if_neg kinds]

theorem readArgument_local (s : c.Shares b c') :
    Local Any c b (readArgument c) (fun i => readArgument (c' i)) := by
  rcases s.acceptPair? .identifier .assign with ⟨none, none'⟩ |
    ⟨t, d, h, some, leads, t', d', h', some', -, near⟩
  · -- Without a sign behind the first word, the value starts with that word.
    simp only [readArgument_of_none none, fun i => readArgument_of_none (none' i)]
    refine (Fragment.readValue_local s _ atComma_short).next fun _ c₁ h₁ _ k _ c₁' h₁' _ s₁ => ?_
    exact .done s₁ rfl fun _ => rfl
  · obtain ⟨key, pair⟩ := readArgument_of_pair some
    choose key' pair' using fun i => readArgument_of_pair (some' i)
    simp only [pair, pair']
    refine .behind leads near fun k s₁ => ?_
    refine (Fragment.readValue_local s₁ _ atComma_short).next fun _ c₁ h₁ _ k _ c₁' h₁' _ s₁ => ?_
    exact .done s₁ rfl fun _ => rfl

theorem readArguments_local (s : c.Shares b c') :
    Local Any c b (readArguments c) (fun i => readArguments (c' i)) := by
  have listed := s.items [] id (fun d _ => readArgument d) (fun _ d _ => readArgument d)
    fun _ _ _ _ _ s => readArgument_local s
  refine listed.nextReached fun _ c₁ h₁ _ k _ c₁' h₁' _ s₁ => ?_
  refine (s₁.expect .rightParen _).next fun _ c₂ h₂ _ k₂ _ c₂' h₂' _ s₂ => ?_
  exact .done s₂ rfl fun _ => rfl

theorem read_local (s : c.Shares b c') : Local Any c b (read c) (fun i => read (c' i)) := by
  refine (s.expect .atSign _).next fun _ c₁ h₁ _ k _ c₁' h₁' _ s₁ => ?_
  refine s₁.dottedName.next fun _ c₂ h₂ _ k₂ _ c₂' h₂' _ s₂ => ?_
  refine (s₂.clause fun _ _ _ _ _ s => readArguments_local s).nextReached
    fun _ c₃ h₃ _ k₃ _ c₃' h₃' _ s₃ => ?_
  exact .done s₃ rfl fun _ => rfl

theorem comesNext_eq_of_shares (s : c.Shares b c') (i : ι) : comesNext (c' i) = comesNext c := by
  rw [comesNext, comesNext, s.sees_one, s.sees_two]

theorem passFrom_local {ι : Type} {b : ι → Nat} {origin c : Cursor} {origin' c' : ι → Cursor}
    {within : c.size ≤ origin.size} {within' : ∀ i, (c' i).size ≤ (origin' i).size}
    (s : c.Shares b c') :
    Local Any c b (passFrom origin c within) (fun i => passFrom (origin' i) (c' i) (within' i)) := by
  unfold passFrom
  simp only [comesNext_eq_of_shares s]
  by_cases comes : comesNext c = true
  · simp only [if_pos comes]
    refine (read_local s).next fun _ c₁ h₁ _ k _ c₁' h₁' _ s₁ => ?_
    exact passFrom_local s₁
  · simp only [if_neg comes]
    exact .done s rfl fun _ => rfl
termination_by c.size

theorem pass_local (s : c.Shares b c') : Local Any c b (pass c) (fun i => pass (c' i)) :=
  passFrom_local s

end Annotation

namespace Qualifiers

theorem afterNonSealed?_shared {b : Nat} {ts ts' : List Token} (s : Token.Shared b ts ts') :
    (afterNonSealed? ts = none ∧ afterNonSealed? ts' = none) ∨
    ∃ t rest t' rest', afterNonSealed? ts = some (t, rest) ∧ afterNonSealed? ts' = some (t', rest') ∧
      t.lexeme = t'.lexeme ∧ (b < rest.length → Token.Shared b rest rest') := by
  have alike := s.lexemes
  have later := s.drop 3
  rcases ts with _ | ⟨t, _ | ⟨u, _ | ⟨w, ts⟩⟩⟩ <;> rcases ts' with _ | ⟨t', _ | ⟨u', _ | ⟨w', ts'⟩⟩⟩ <;>
    simp only [List.take_succ_cons, List.take_zero, List.take_nil, List.map_cons, List.map_nil,
      List.cons.injEq, reduceCtorEq, and_false] at alike
  · exact .inl ⟨rfl, rfl⟩
  · exact .inl ⟨rfl, rfl⟩
  · exact .inl ⟨rfl, rfl⟩
  · obtain ⟨first, second, third, -⟩ := alike
    simp only [afterNonSealed?, ← Token.kind_eq_of_lexeme first, ← Token.text_eq_of_lexeme first,
      ← Token.kind_eq_of_lexeme second, ← Token.kind_eq_of_lexeme third,
      ← Token.text_eq_of_lexeme third]
    split
    next => exact .inr ⟨w, ts, w', ts', rfl, rfl, third, later⟩
    next => exact .inl ⟨rfl, rfl⟩

theorem passSealed?_shared {b : Nat} {c c' : Cursor} (s : Token.Shared b c.ahead c'.ahead) :
    Agreed Any b (passSealed? c) (passSealed? c') := by
  have agreed := s.acceptWord? "sealed"
  rcases word : c.acceptWord? "sealed" with _ | r <;>
    rcases word' : c'.acceptWord? "sealed" with _ | r' <;> rw [word, word'] at agreed
  · rcases afterNonSealed?_shared s with ⟨absent, absent'⟩ |
      ⟨t, rest, t', rest', found, found', -, later⟩
    · rw [passSealed?_of_none word absent, passSealed?_of_none word' absent']
      exact .none
    · obtain ⟨h, passed⟩ := passSealed?_of_some word found
      obtain ⟨h', passed'⟩ := passSealed?_of_some word' found'
      rw [passed, passed']
      exact .some trivial later
  · cases agreed
  · cases agreed
  · simp only [passSealed?, word, word']
    cases agreed with
    | some _ near => exact .some trivial near

theorem modifier?_shared {b : Nat} {c c' : Cursor} (s : Token.Shared b c.ahead c'.ahead) :
    Agreed Any b (modifier? c) (modifier? c') := by
  obtain ⟨last, ahead⟩ := c
  obtain ⟨last', ahead'⟩ := c'
  obtain ⟨t, rest, t', rest', rfl, rfl, same, -, later⟩ := s.uncons
  simp only [modifier?, ← Token.kind_eq_of_lexeme same]
  split
  next => exact .some trivial later
  next => exact .none

theorem readFrom_local {ι : Type} {b : ι → Nat} {origin c : Cursor} {origin' c' : ι → Cursor}
    {within : c.size ≤ origin.size} {within' : ∀ i, (c' i).size ≤ (origin' i).size}
    (s : c.Shares b c') (modifiers : ModifierSet) (modifiers' : ι → ModifierSet)
    (annotations : List Annotation) (annotations' : ι → List Annotation) :
    Local Any c b (readFrom origin c within modifiers annotations)
      (fun i => readFrom (origin' i) (c' i) (within' i) (modifiers' i) (annotations' i)) := by
  unfold readFrom
  have alike := Annotation.comesNext_eq_of_shares s
  simp only [alike]
  by_cases comes : Annotation.comesNext c = true
  · simp only [if_pos comes]
    have annotated := Annotation.read_local s
    refine annotated.next fun _ c₁ h₁ _ k _ c₁' h₁' _ s₁ => ?_
    exact readFrom_local s₁ _ _ _ _
  simp only [if_neg comes]
  have modifier : Decided Any b (modifier? c) fun i => modifier? (c' i) :=
    .of_each (fun _ found => (modifier?_eq_some found).elim fun _ passes => ⟨_, passes⟩)
      fun i => modifier?_shared (s i)
  rcases modifier with ⟨none, none'⟩ | ⟨m, c₁, h₁, some, leads, m', c₁', h₁', some', -, near⟩
  swap
  · simp only [some, some']
    refine .behind leads near fun k s₁ => ?_
    exact readFrom_local s₁ _ _ _ _
  simp only [none, none']
  have word : Decided Any b (passSealed? c) fun i => passSealed? (c' i) :=
    .of_each (fun _ found => passSealed?_eq_some found) fun i => passSealed?_shared (s i)
  rcases word with ⟨none, none'⟩ | ⟨t, c₁, h₁, some, leads, t', c₁', h₁', some', -, near⟩
  · simp only [none, none']
    exact .done s rfl fun _ => rfl
  · simp only [some, some']
    refine .behind leads near fun k s₁ => ?_
    exact readFrom_local s₁ _ _ _ _
termination_by c.size

theorem read_local {ι : Type} {b : ι → Nat} {c : Cursor} {c' : ι → Cursor} (s : c.Shares b c') :
    Local Any c b (read c) (fun i => read (c' i)) :=
  readFrom_local s _ _ _ _

end Qualifiers

/-! ### Types -/

namespace TypeRef

theorem readDimensions_local {ι : Type} {b : ι → Nat} {origin c : Cursor} {origin' c' : ι → Cursor}
    {within : c.size < origin.size} {within' : ∀ i, (c' i).size < (origin' i).size}
    (s : c.Shares b c') (n : Nat) (n' : ι → Nat) :
    Local Any c b (readDimensions origin c within n)
      (fun i => readDimensions (origin' i) (c' i) (within' i) (n' i)) := by
  unfold readDimensions
  have annotated := Annotation.pass_local s
  refine annotated.nextReached fun _ c₁ h₁ _ k _ c₁' h₁' _ s₁ => ?_
  dsimp only
  rcases s₁.acceptPair? .leftBracket .rightBracket with ⟨none, none'⟩ |
    ⟨t, c₂, h₂, some, leads, t', c₂', h₂', some', -, near⟩
  · simp only [none, none']
    exact .done s₁ rfl fun _ => rfl
  · simp only [some, some']
    refine .behind leads near fun k₂ s₂ => ?_
    exact readDimensions_local s₂ _ _
termination_by c.size
decreasing_by omega

theorem primitive?_shared {b : Nat} {c c' : Cursor} (s : Token.Shared b c.ahead c'.ahead) :
    Agreed Any b (primitive? c) (primitive? c') := by
  obtain ⟨last, ahead⟩ := c
  obtain ⟨last', ahead'⟩ := c'
  obtain ⟨t, rest, t', rest', rfl, rfl, same, -, later⟩ := s.uncons
  simp only [primitive?, ← Token.kind_eq_of_lexeme same]
  split
  next => exact .some trivial later
  next => exact .none

end TypeRef

mutual

theorem TypeRef.read_local {ι : Type} {b : ι → Nat} {c : Cursor} {c' : ι → Cursor}
    (s : c.Shares b c') : Local Any c b (TypeRef.read c) (fun i => TypeRef.read (c' i)) := by
  unfold TypeRef.read
  have annotated := Annotation.pass_local s
  refine annotated.nextReached fun _ c₁ h₁ _ k _ c₁' h₁' _ s₁ => ?_
  refine (TypeRef.readBase_local s₁).next fun _ c₂ h₂ _ k₂ _ c₂' h₂' _ s₂ => ?_
  refine (TypeRef.readDimensions_local s₂ 0 fun _ => 0).next fun _ c₃ h₃ _ k₃ _ c₃' h₃' _ s₃ => ?_
  exact .done s₃ rfl fun _ => rfl
termination_by 4 * c.size + 2
decreasing_by omega

theorem TypeRef.readBase_local {ι : Type} {b : ι → Nat} {c : Cursor} {c' : ι → Cursor}
    (s : c.Shares b c') : Local Any c b (TypeRef.readBase c) (fun i => TypeRef.readBase (c' i)) := by
  unfold TypeRef.readBase
  have primitive : Decided Any b (TypeRef.primitive? c) fun i => TypeRef.primitive? (c' i) :=
    .of_each (fun _ found => ⟨_, (TypeRef.primitive?_eq_some found).1⟩)
      fun i => TypeRef.primitive?_shared (s i)
  rcases primitive with ⟨none, none'⟩ | ⟨t, c₁, h₁, some, leads, t', c₁', h₁', some', -, near⟩
  swap
  · simp only [some, some']
    exact .here leads (fun _ => trivial) near
  simp only [none, none']
  rcases s.accept? .identifier with ⟨none, none'⟩ |
    ⟨t, c₁, h₁, some, leads, t', c₁', h₁', some', -, near⟩
  · simp only [none, none']
    exact .expected s _
  · simp only [some, some']
    refine .behind leads near fun k s₁ => ?_
    exact TypeRef.readParts_local s₁ _ _ _ _
termination_by 4 * c.size + 1

theorem TypeRef.readParts_local {ι : Type} {b : ι → Nat} {origin c : Cursor} {origin' c' : ι → Cursor}
    {start : Location} {start' : ι → Location} {within : c.size < origin.size}
    {within' : ∀ i, (c' i).size < (origin' i).size} (s : c.Shares b c') (name : String)
    (name' : ι → String) (enclosing : Option TypeRef) (enclosing' : ι → Option TypeRef) :
    Local Any c b (TypeRef.readParts origin start c within name enclosing)
      (fun i => TypeRef.readParts (origin' i) (start' i) (c' i) (within' i) (name' i)
        (enclosing' i)) := by
  unfold TypeRef.readParts
  have listed : Local SameEmpty c b
      (if c.sees [.less] then do
          let ⟨arguments, c₁, h₁⟩ ← TypeArgument.readAll c
          return ⟨arguments, c₁, by omega⟩
        else return ⟨[], c, c.size_le⟩ : Passing (List TypeArgument) c)
      (fun i => (if (c' i).sees [.less] then do
          let ⟨arguments, c₁, h₁⟩ ← TypeArgument.readAll (c' i)
          return ⟨arguments, c₁, by omega⟩
        else return ⟨[], c' i, (c' i).size_le⟩ : Passing (List TypeArgument) (c' i))) := by
    simp only [s.sees_one]
    by_cases opens : c.sees [.less] = true
    · simp only [if_pos opens]
      refine (TypeArgument.readAll_local s).next fun _ c₁ h₁ _ k _ c₁' h₁' same s₁ => ?_
      exact .here (.refl _) same fun j _ => s₁ j
    · simp only [if_neg opens]
      exact .here (.refl _) (fun _ => rfl) fun i _ => s i
  refine listed.nextReached fun arguments c₁ h₁ _ k arguments' c₁' h₁' same s₁ => ?_
  -- A part with arguments becomes an enclosing type, so this is all that matters of them.
  have sameEmpty (j) : (arguments' j).isEmpty = arguments.isEmpty := (same j).symm
  dsimp only
  rcases s₁.acceptPair? .dot .identifier with ⟨none, none'⟩ |
    ⟨t, c₂, h₂, some, leads, t', c₂', h₂', some', -, near⟩
  · simp only [none, none']
    exact .done s₁ rfl fun _ => rfl
  · simp only [some, some', sameEmpty]
    refine .behind leads near fun k₂ s₂ => ?_
    by_cases plain : arguments.isEmpty = true
    · simp only [if_pos plain]
      exact TypeRef.readParts_local s₂ _ _ _ _
    · simp only [if_neg plain]
      exact TypeRef.readParts_local s₂ _ _ _ _
termination_by 4 * c.size + 1
decreasing_by all_goals omega

theorem TypeArgument.readAll_local {ι : Type} {b : ι → Nat} {c : Cursor} {c' : ι → Cursor}
    (s : c.Shares b c') :
    Local SameEmpty c b (TypeArgument.readAll c) (fun i => TypeArgument.readAll (c' i)) := by
  unfold TypeArgument.readAll
  refine (s.expect .less _).next fun _ c₁ h₁ _ k _ c₁' h₁' _ s₁ => ?_
  dsimp only
  rcases s₁.accept? .greater with ⟨none, none'⟩ |
    ⟨t, c₂, h₂, some, leads, t', c₂', h₂', some', -, near⟩
  · simp only [none, none']
    refine (s₁.sepBy fun _ _ _ _ _ s => TypeArgument.read_local s).next
      fun _ c₂ h₂ _ k₂ _ c₂' h₂' same s₂ => ?_
    refine (s₂.expect .greater _).next fun _ c₃ h₃ _ k₃ _ c₃' h₃' _ s₃ => ?_
    exact .here (.refl _) (fun j => same (k₃ j)) fun j _ => s₃ j
  · simp only [some, some']
    exact .here leads (fun _ => rfl) near
termination_by 4 * c.size
decreasing_by omega

theorem TypeArgument.read_local {ι : Type} {b : ι → Nat} {c : Cursor} {c' : ι → Cursor}
    (s : c.Shares b c') : Local Any c b (TypeArgument.read c) (fun i => TypeArgument.read (c' i)) := by
  unfold TypeArgument.read
  have annotated := Annotation.pass_local s
  refine annotated.nextReached fun _ c₁ h₁ _ k _ c₁' h₁' _ s₁ => ?_
  dsimp only
  rcases s₁.accept? .question with ⟨none, none'⟩ |
    ⟨t, c₂, h₂, some, leads, t', c₂', h₂', some', -, near⟩
  · simp only [none, none']
    refine (TypeRef.read_local s₁).next fun _ c₂ h₂ _ k₂ _ c₂' h₂' _ s₂ => ?_
    exact .done s₂ rfl fun _ => rfl
  simp only [some, some']
  refine .behind leads near fun k₂ s₂ => ?_
  rcases s₂.accept? .extendsWord with ⟨none, none'⟩ |
    ⟨t, c₃, h₃, some, leads, t', c₃', h₃', some', -, near⟩
  swap
  · simp only [some, some']
    refine .behind leads near fun k₃ s₃ => ?_
    refine (TypeRef.read_local s₃).next fun _ c₄ h₄ _ k₄ _ c₄' h₄' _ s₄ => ?_
    exact .done s₄ rfl fun _ => rfl
  simp only [none, none']
  rcases s₂.accept? .superWord with ⟨none, none'⟩ |
    ⟨t, c₃, h₃, some, leads, t', c₃', h₃', some', -, near⟩
  · simp only [none, none']
    exact .done s₂ rfl fun _ => rfl
  · simp only [some, some']
    refine .behind leads near fun k₃ s₃ => ?_
    refine (TypeRef.read_local s₃).next fun _ c₄ h₄ _ k₄ _ c₄' h₄' _ s₄ => ?_
    exact .done s₄ rfl fun _ => rfl
termination_by 4 * c.size + 3
decreasing_by all_goals omega

end

section

variable {ι : Type} {b : ι → Nat} {c : Cursor} {c' : ι → Cursor} (s : c.Shares b c')

include s

theorem TypeRef.readList_local :
    Local SameEmpty c b (readList c) (fun i => readList (c' i)) :=
  s.sepBy fun _ _ _ _ _ s => read_local s

theorem TypeRef.readClause_local (keyword : Kind) :
    Local Any c b (readClause c keyword) (fun i => readClause (c' i) keyword) := by
  refine (s.clause fun _ _ _ _ _ s => readList_local s).nextReached
    fun _ c₁ h₁ _ k _ c₁' h₁' _ s₁ => ?_
  exact .done s₁ rfl fun _ => rfl

theorem TypeParameter.read_local : Local Any c b (read c) (fun i => read (c' i)) := by
  have annotated := Annotation.pass_local s
  refine annotated.nextReached fun _ c₁ h₁ _ k _ c₁' h₁' _ s₁ => ?_
  refine s₁.identifier.next fun _ c₂ h₂ _ k₂ _ c₂' h₂' _ s₂ => ?_
  refine (s₂.clause fun _ _ _ _ _ s => s.sepBy fun _ _ _ _ _ s => TypeRef.read_local s).nextReached
    fun _ c₃ h₃ _ k₃ _ c₃' h₃' _ s₃ => ?_
  exact .done s₃ rfl fun _ => rfl

theorem TypeParameter.readAll_local : Local SameEmpty c b (readAll c) (fun i => readAll (c' i)) := by
  unfold readAll
  rcases s.accept? .less with ⟨none, none'⟩ | ⟨t, c₁, h₁, some, leads, t', c₁', h₁', some', -, near⟩
  · simp only [none, none']
    exact .here (.refl _) (fun _ => rfl) fun i _ => s i
  · simp only [some, some']
    refine .behind leads near fun k s₁ => ?_
    refine (s₁.sepBy fun _ _ _ _ _ s => read_local s).next fun _ c₂ h₂ _ k₂ _ c₂' h₂' same s₂ => ?_
    refine (s₂.expect .greater _).next fun _ c₃ h₃ _ k₃ _ c₃' h₃' _ s₃ => ?_
    exact .here (.refl _) (fun j => same (k₃ j)) fun j _ => s₃ j

end

end TestDouble
