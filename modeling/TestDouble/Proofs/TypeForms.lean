import TestDouble.Proofs.Acceptance
import TestDouble.TypeRef.Reader

/-!
# The forms of types

How the readers of types read, one relation for each of them: a case for each form, with all that the
reader checked before it chose. Each relation holds exactly when its reader succeeds. The readers call
each other, and where they do, the relations speak of the reader that is called.
-/

namespace TestDouble

namespace TypeRef

/-- The bracket pairs behind a type, with annotations before each pair. -/
inductive Dimensioned : Cursor → Nat → Cursor → Prop where
  | ended {c d : Cursor} {h : d.size ≤ c.size} : Annotation.pass c = .ok ⟨(), d, h⟩ →
      d.acceptPair? .leftBracket .rightBracket = none → Dimensioned c 0 d
  | pair {c c₁ c₂ d : Cursor} {h₁ : c₁.size ≤ c.size} {closing : Token} {h₂ : c₂.size < c₁.size}
      {k : Nat} : Annotation.pass c = .ok ⟨(), c₁, h₁⟩ →
      c₁.acceptPair? .leftBracket .rightBracket = some ⟨closing, c₂, h₂⟩ → Dimensioned c₂ k d →
      Dimensioned c (k + 1) d

theorem Dimensioned.size_le {c d : Cursor} {k : Nat} (pairs : Dimensioned c k d) : d.size ≤ c.size := by
  induction pairs with
  | @ended c d h => exact h
  | pair => omega

theorem dimensioned_of_readDimensions {origin c d : Cursor} {within : c.size < origin.size} {n m : Nat}
    {h : d.size < origin.size} (returned : readDimensions origin c within n = .ok ⟨m, d, h⟩) :
    ∃ k, m = n + k ∧ Dimensioned c k d := by
  rw [readDimensions] at returned
  obtain ⟨⟨_, c₁, h₁⟩, annotated, returned⟩ := bind_eq_ok returned
  dsimp only at returned
  split at returned
  next closing c₂ h₂ found =>
    obtain ⟨k, rfl, pairs⟩ := dimensioned_of_readDimensions returned
    exact ⟨k + 1, by omega, .pair annotated found pairs⟩
  next missing =>
    cases returned
    exact ⟨0, rfl, .ended annotated missing⟩
termination_by c.size

theorem Dimensioned.readDimensions {c d : Cursor} {k : Nat} (pairs : Dimensioned c k d)
    {origin : Cursor} (within : c.size < origin.size) (n : Nat) :
    ∃ h, TypeRef.readDimensions origin c within n = .ok ⟨n + k, d, h⟩ := by
  induction pairs generalizing n with
  | @ended c d h annotated missing =>
    rw [TypeRef.readDimensions, annotated, ok_bind]
    simp only [missing]
    exact ⟨by omega, rfl⟩
  | @pair c c₁ c₂ d h₁ closing h₂ k annotated found _ ih =>
    obtain ⟨h, later⟩ := ih (by omega) (n + 1)
    rw [TypeRef.readDimensions, annotated, ok_bind]
    simp only [found]
    rw [Nat.add_assoc, Nat.add_comm 1] at later
    exact ⟨h, later⟩

end TypeRef

/-- The arguments of a part of a name, if it has any. -/
inductive TypeArgument.Optional (c : Cursor) : List TypeArgument → Cursor → Prop where
  | absent : c.sees [.less] = false → Optional c [] c
  | listed {arguments : List TypeArgument} {d : Cursor} {h : d.size < c.size} :
      c.sees [.less] = true → TypeArgument.readAll c = .ok ⟨arguments, d, h⟩ → Optional c arguments d

theorem TypeArgument.Optional.size_le {c d : Cursor} {arguments : List TypeArgument}
    (optional : Optional c arguments d) : d.size ≤ c.size := by
  cases optional with
  | absent => exact Nat.le_refl _
  | @listed _ _ h => exact Nat.le_of_lt h

namespace TypeRef

/-- A type from behind a part of its name on, where it starts at `start`. A part with arguments
encloses what follows it. -/
inductive Parts (start : Location) :
    Cursor → String → Option TypeRef → TypeRef → Cursor → Prop where
  | last {c d : Cursor} {name : String} {enclosing : Option TypeRef} {arguments : List TypeArgument} :
      TypeArgument.Optional c arguments d → d.acceptPair? .dot .identifier = none →
      Parts start c name enclosing ⟨name, arguments, 0, enclosing, ⟨start, d.lastStop⟩⟩ d
  | longer {c c₁ c₂ d : Cursor} {name : String} {enclosing : Option TypeRef} {token : Token}
      {h₂ : c₂.size < c₁.size} {t : TypeRef} : TypeArgument.Optional c [] c₁ →
      c₁.acceptPair? .dot .identifier = some ⟨token, c₂, h₂⟩ →
      Parts start c₂ (name ++ "." ++ token.text) enclosing t d → Parts start c name enclosing t d
  | member {c c₁ c₂ d : Cursor} {name : String} {enclosing : Option TypeRef}
      {arguments : List TypeArgument} {token : Token} {h₂ : c₂.size < c₁.size} {t : TypeRef} :
      TypeArgument.Optional c arguments c₁ → arguments ≠ [] →
      c₁.acceptPair? .dot .identifier = some ⟨token, c₂, h₂⟩ →
      Parts start c₂ token.text (some ⟨name, arguments, 0, enclosing, ⟨start, c₁.lastStop⟩⟩) t d →
      Parts start c name enclosing t d

theorem Parts.size_le {start : Location} {c d : Cursor} {name : String} {enclosing : Option TypeRef}
    {t : TypeRef} (parts : Parts start c name enclosing t d) : d.size ≤ c.size := by
  induction parts with
  | last optional => exact optional.size_le
  | longer optional | member optional =>
    have first := optional.size_le
    omega

theorem parts_of_readParts {origin c d : Cursor} {start : Location} {within : c.size < origin.size}
    {name : String} {enclosing : Option TypeRef} {t : TypeRef} {h : d.size < origin.size}
    (returned : readParts origin start c within name enclosing = .ok ⟨t, d, h⟩) :
    Parts start c name enclosing t d := by
  rw [readParts] at returned
  obtain ⟨⟨arguments, c₁, h₁⟩, listed, returned⟩ := bind_eq_ok returned
  have optional : TypeArgument.Optional c arguments c₁ := by
    split at listed
    next opens =>
      obtain ⟨⟨found, c', h'⟩, read, finished⟩ := bind_eq_ok listed
      cases finished
      exact .listed opens read
    next notOpen =>
      cases listed
      exact .absent (Bool.eq_false_iff.mpr notOpen)
  dsimp only at returned
  split at returned
  next token c₂ h₂ found =>
    split at returned
    next none =>
      obtain rfl : arguments = [] := List.isEmpty_iff.mp none
      exact .longer optional found (parts_of_readParts returned)
    next some =>
      exact .member optional (mt List.isEmpty_iff.mpr some) found (parts_of_readParts returned)
  next missing =>
    cases returned
    exact .last optional missing
termination_by c.size

theorem Parts.readParts {start : Location} {c d : Cursor} {name : String} {enclosing : Option TypeRef}
    {t : TypeRef} (parts : Parts start c name enclosing t d) {origin : Cursor}
    (within : c.size < origin.size) :
    ∃ h, TypeRef.readParts origin start c within name enclosing = .ok ⟨t, d, h⟩ := by
  -- Every part of a name starts with its arguments, there or missing, so this is settled once.
  have read {c c₁ : Cursor} {arguments : List TypeArgument}
      (optional : TypeArgument.Optional c arguments c₁) :
      (if c.sees [.less] then
        TypeArgument.readAll c >>= fun r => pure ⟨r.value, r.cursor, Cursor.le_of_lt r.shorter⟩
      else pure ⟨[], c, c.size_le⟩ : Passing (List TypeArgument) c) =
        .ok ⟨arguments, c₁, optional.size_le⟩ := by
    cases optional with
    | absent notOpen =>
      rw [notOpen]
      rfl
    | listed opens read =>
      rw [if_pos opens, read]
      rfl
  induction parts with
  | last optional missing =>
    have first := optional.size_le
    rw [TypeRef.readParts]
    refine ⟨by omega, bind_of_ok (read optional) ?_⟩
    simp only [missing]
    rfl
  | longer optional found _ ih =>
    have first := optional.size_le
    obtain ⟨h, later⟩ := ih (by omega)
    rw [TypeRef.readParts]
    refine ⟨h, bind_of_ok (read optional) ?_⟩
    simp only [found]
    exact later
  | member optional some found _ ih =>
    have first := optional.size_le
    obtain ⟨h, later⟩ := ih (by omega)
    rw [TypeRef.readParts]
    refine ⟨h, bind_of_ok (read optional) ?_⟩
    simp only [found]
    rw [if_neg (by simpa using some)]
    exact later

/-- A type up to its array dimensions. -/
inductive Base (c : Cursor) : TypeRef → Cursor → Prop where
  | primitive {token : Token} {d : Cursor} {h : d.size < c.size} :
      primitive? c = some ⟨token, d, h⟩ → Base c (.named token.text) d
  | name {token : Token} {c₁ d : Cursor} {h₁ : c₁.size < c.size} {t : TypeRef} :
      primitive? c = none → c.accept? .identifier = some ⟨token, c₁, h₁⟩ →
      Parts c.location c₁ token.text none t d → Base c t d

theorem Base.size_lt {c d : Cursor} {t : TypeRef} (base : Base c t d) : d.size < c.size := by
  cases base with
  | @primitive _ _ h => exact h
  | name _ _ parts =>
    have later := parts.size_le
    omega

theorem readBase_eq_ok_iff {c d : Cursor} {t : TypeRef} :
    (∃ h, readBase c = .ok ⟨t, d, h⟩) ↔ Base c t d := by
  constructor
  · rintro ⟨h, returned⟩
    rw [readBase] at returned
    split at returned
    next token c₁ h₁ found =>
      cases returned
      exact .primitive found
    next notPrimitive =>
      split at returned
      next token c₁ h₁ found => exact .name notPrimitive found (parts_of_readParts returned)
      next => cases returned
  · intro base
    rw [readBase]
    cases base with
    | @primitive token d h found =>
      rw [found]
      exact ⟨h, rfl⟩
    | @name token c₁ d h₁ t notPrimitive found parts =>
      rw [notPrimitive, found]
      exact parts.readParts h₁

/-- Annotations, which are passed, then a type up to its array dimensions and these. -/
theorem read_eq_ok_iff {c d : Cursor} {t : TypeRef} :
    (∃ h, read c = .ok ⟨t, d, h⟩) ↔ ∃ c₁ h₁ base c₂ k, Annotation.pass c = .ok ⟨(), c₁, h₁⟩ ∧
      Base c₁ base c₂ ∧ Dimensioned c₂ k d ∧
      t = { base with dimensions := k, span := ⟨c₁.location, d.lastStop⟩ } := by
  constructor
  · rintro ⟨h, returned⟩
    rw [read] at returned
    obtain ⟨⟨_, c₁, h₁⟩, annotated, returned⟩ := bind_eq_ok returned
    obtain ⟨⟨base, c₂, h₂⟩, based, returned⟩ := bind_eq_ok returned
    obtain ⟨⟨dimensions, c₃, h₃⟩, counted, finished⟩ := bind_eq_ok returned
    cases finished
    obtain ⟨k, same, pairs⟩ := dimensioned_of_readDimensions counted
    obtain rfl : dimensions = k := by rw [same, Nat.zero_add]
    exact ⟨c₁, h₁, base, c₂, dimensions, annotated, readBase_eq_ok_iff.mp ⟨h₂, based⟩, pairs, rfl⟩
  · rintro ⟨c₁, h₁, base, c₂, k, annotated, based, pairs, rfl⟩
    obtain ⟨h₂, based⟩ := readBase_eq_ok_iff.mpr based
    obtain ⟨h, counted⟩ := pairs.readDimensions (Cursor.lt_of_le_lt h₁ h₂) 0
    rw [Nat.zero_add] at counted
    rw [read]
    exact ⟨h, bind_of_ok annotated (bind_of_ok based (bind_of_ok counted rfl))⟩

end TypeRef

namespace TypeArgument

/-- Type arguments between their angle brackets, perhaps none. -/
inductive Bracketed (c : Cursor) : List TypeArgument → Cursor → Prop where
  | empty {less greater : Token} {c₁ d : Cursor} {h₁ : c₁.size < c.size} {h₂ : d.size < c₁.size} :
      c.expect .less "'<' for type arguments" = .ok ⟨less, c₁, h₁⟩ →
      c₁.accept? .greater = some ⟨greater, d, h₂⟩ → Bracketed c [] d
  | listed {less greater : Token} {arguments : List TypeArgument} {c₁ c₂ d : Cursor}
      {h₁ : c₁.size < c.size} {h₂ : c₂.size < c₁.size} {h₃ : d.size < c₂.size} :
      c.expect .less "'<' for type arguments" = .ok ⟨less, c₁, h₁⟩ → c₁.accept? .greater = none →
      (c₁.sepBy .comma fun c' _ => TypeArgument.read c') = .ok ⟨arguments, c₂, h₂⟩ →
      c₂.expect .greater "'>' after type arguments" = .ok ⟨greater, d, h₃⟩ → Bracketed c arguments d

theorem readAll_eq_ok_iff {c d : Cursor} {arguments : List TypeArgument} :
    (∃ h, readAll c = .ok ⟨arguments, d, h⟩) ↔ Bracketed c arguments d := by
  constructor
  · rintro ⟨h, returned⟩
    rw [readAll] at returned
    obtain ⟨⟨less, c₁, h₁⟩, opened, returned⟩ := bind_eq_ok returned
    dsimp only at returned
    split at returned
    next greater c₂ h₂ found =>
      cases returned
      exact .empty opened found
    next notClosed =>
      obtain ⟨⟨arguments, c₂, h₂⟩, listed, returned⟩ := bind_eq_ok returned
      obtain ⟨⟨greater, c₃, h₃⟩, closed, finished⟩ := bind_eq_ok returned
      cases finished
      exact .listed opened notClosed listed closed
  · intro bracketed
    rw [readAll]
    cases bracketed with
    | empty opened found =>
      rw [opened, ok_bind]
      simp only [found]
      exact ⟨by omega, rfl⟩
    | listed opened notClosed listed closed =>
      rw [opened, ok_bind]
      simp only [notClosed]
      exact ⟨by omega, bind_of_ok listed (bind_of_ok closed rfl)⟩

/-- One type argument behind its annotations. The keyword of an upper bound is looked for first. -/
inductive Form (c : Cursor) : TypeArgument → Cursor → Prop where
  | wildcard {question : Token} {d : Cursor} {h : d.size < c.size} :
      c.accept? .question = some ⟨question, d, h⟩ → d.accept? .extendsWord = none →
      d.accept? .superWord = none → Form c (.wildcard ⟨c.location, d.lastStop⟩) d
  | bounded {question keyword : Token} {kind : BoundKind} {bound : TypeRef} {c₂ c₃ d : Cursor}
      {h₂ : c₂.size < c.size} {h₃ : c₃.size < c₂.size} {h : d.size < c₃.size} :
      c.accept? .question = some ⟨question, c₂, h₂⟩ →
      c₂.accept? (.ofWord kind.keyword) = some ⟨keyword, c₃, h₃⟩ →
      TypeRef.read c₃ = .ok ⟨bound, d, h⟩ → Form c (.bounded kind bound ⟨c.location, d.lastStop⟩) d
  | type {type : TypeRef} {d : Cursor} {h : d.size < c.size} : c.accept? .question = none →
      TypeRef.read c = .ok ⟨type, d, h⟩ → Form c (.type type) d

theorem Form.size_lt {c d : Cursor} {a : TypeArgument} (form : Form c a d) : d.size < c.size := by
  cases form with
  | @wildcard _ _ h => exact h
  | bounded => omega
  | @type _ _ h => exact h

theorem read_eq_ok_iff {c d : Cursor} {a : TypeArgument} :
    (∃ h, read c = .ok ⟨a, d, h⟩) ↔
      ∃ c₁ h₁, Annotation.pass c = .ok ⟨(), c₁, h₁⟩ ∧ Form c₁ a d := by
  constructor
  · rintro ⟨h, returned⟩
    rw [read] at returned
    obtain ⟨⟨_, c₁, h₁⟩, annotated, returned⟩ := bind_eq_ok returned
    refine ⟨c₁, h₁, annotated, ?_⟩
    dsimp only at returned
    split at returned
    next question c₂ h₂ found =>
      split at returned
      next keyword c₃ h₃ upper =>
        obtain ⟨⟨bound, c₄, h₄⟩, boundRead, finished⟩ := bind_eq_ok returned
        cases finished
        exact .bounded found upper boundRead
      next notUpper =>
        split at returned
        next keyword c₃ h₃ lower =>
          obtain ⟨⟨bound, c₄, h₄⟩, boundRead, finished⟩ := bind_eq_ok returned
          cases finished
          exact .bounded found lower boundRead
        next notLower =>
          cases returned
          exact .wildcard found notUpper notLower
    next notQuestion =>
      obtain ⟨⟨type, c₂, h₂⟩, typeRead, finished⟩ := bind_eq_ok returned
      cases finished
      exact .type notQuestion typeRead
  · rintro ⟨c₁, h₁, annotated, form⟩
    have size := form.size_lt
    refine ⟨by omega, ?_⟩
    rw [read]
    refine bind_of_ok annotated ?_
    -- The relation has one case for both bounds; the reader tries `extends` before `super`.
    cases form with
    | wildcard found notUpper notLower => simp only [found, notUpper, notLower, pure, Except.pure]
    | @bounded question keyword kind bound c₂ c₃ d h₂ h₃ h found word boundRead =>
      cases kind with
      | upper =>
        have upper : c₂.accept? .extendsWord = some ⟨keyword, c₃, h₃⟩ := word
        simp only [found, upper]
        exact bind_of_ok boundRead rfl
      | lower =>
        have lower : c₂.accept? .superWord = some ⟨keyword, c₃, h₃⟩ := word
        obtain ⟨passes, isSuper⟩ := Cursor.accept?_eq_some lower
        have notUpper : c₂.accept? .extendsWord = none := Cursor.accept?_eq_none (by
          rw [Cursor.nextKind, passes.ahead]
          simpa using by rw [isSuper]; decide)
        simp only [found, notUpper, lower]
        exact bind_of_ok boundRead rfl
    | type notQuestion typeRead =>
      simp only [notQuestion]
      exact bind_of_ok typeRead rfl

end TypeArgument

end TestDouble
