import TestDouble.Annotation.Reader
import TestDouble.Proofs.Progress
import TestDouble.Proofs.TypeSpelling

/-!
# What readers accept

`Spells` says which lexemes come next at a cursor. Where the lexemes that a reader asks for come
next, it accepts them and returns the cursor behind them; for each of the readers that others are
made of there is one statement of this kind.
-/

namespace TestDouble

theorem map_eq_of_forall₂ {α β γ : Type} {f : α → γ} {g : β → γ} {as : List α} {bs : List β}
    (same : List.Forall₂ (fun a b => f a = g b) as bs) : as.map f = bs.map g := by
  induction same with
  | nil => rfl
  | cons first _ ih => rw [List.map_cons, List.map_cons, first, ih]

theorem ok_bind {ε α β : Type} (a : α) (f : α → Except ε β) : (Except.ok a >>= f) = f a := rfl

/-- A step that succeeds leaves what follows it. -/
theorem bind_of_ok {ε α β : Type} {x : Except ε α} {f : α → Except ε β} {a : α} {y : Except ε β}
    (first : x = .ok a) (next : f a = y) : (x >>= f) = y := by
  rw [first]
  exact next

theorem mapError_of_ok {ε δ α : Type} {x : Except ε α} {f : ε → δ} {a : α} (returned : x = .ok a) :
    x.mapError f = .ok a := by
  rw [returned]
  rfl

namespace Cursor

/-- The second cursor stands behind tokens with the given lexemes, which come next at the first. -/
def Spells (c : Cursor) (ls : List Lexeme) (c' : Cursor) : Prop :=
  ∃ taken, c.Passes taken c' ∧ taken.map Token.lexeme = ls

/-- The kind of the token that comes next. -/
def nextKind (c : Cursor) : Option Kind := c.ahead.head?.map Token.kind

namespace Spells

variable {a b c : Cursor} {l k : Lexeme} {ls ks : List Lexeme}

theorem nil_eq (spells : a.Spells [] b) : b = a := by
  obtain ⟨taken, passes, spelled⟩ := spells
  obtain rfl := List.map_eq_nil_iff.mp spelled
  obtain ⟨last, ahead⟩ := b
  obtain ⟨aheadEq, lastEq⟩ := passes
  obtain ⟨aLast, aAhead⟩ := a
  simp_all

theorem refl (c : Cursor) : c.Spells [] c := ⟨[], .refl c, rfl⟩

theorem trans (h₁ : a.Spells ls b) (h₂ : b.Spells ks c) : a.Spells (ls ++ ks) c := by
  obtain ⟨first, passes₁, rfl⟩ := h₁
  obtain ⟨second, passes₂, rfl⟩ := h₂
  exact ⟨first ++ second, passes₁.trans passes₂, by simp⟩

/-- Tokens that spell two texts, one behind the other, are parted between them. -/
theorem split (spells : a.Spells (ls ++ ks) c) : ∃ b, a.Spells ls b ∧ b.Spells ks c := by
  obtain ⟨taken, passes, spelled⟩ := spells
  obtain ⟨first, second, rfl, rfl, rfl⟩ := List.map_eq_append_iff.mp spelled
  obtain ⟨b, passes₁, passes₂⟩ := passes.split
  exact ⟨b, ⟨first, passes₁, rfl⟩, second, passes₂, rfl⟩

theorem nextKind_eq (spells : a.Spells (l :: ls) b) : a.nextKind = some l.kind := by
  obtain ⟨taken, passes, spelled⟩ := spells
  cases taken with
  | nil => cases spelled
  | cons token taken =>
    cases spelled
    rw [nextKind, passes.ahead]
    rfl

/-- The first token of those that come next, and the cursor behind it. -/
theorem uncons (spells : a.Spells (l :: ls) b) :
    ∃ token rest, a = ⟨a.last, token :: rest⟩ ∧ token.lexeme = l ∧
      Spells ⟨some token, rest⟩ ls b := by
  obtain ⟨taken, ⟨ahead, last⟩, spelled⟩ := spells
  cases taken with
  | nil => cases spelled
  | cons token taken =>
    cases spelled
    refine ⟨token, taken ++ b.ahead, ?_, rfl, taken, ⟨rfl, ?_⟩, rfl⟩
    · obtain ⟨before, tokens⟩ := a
      simp_all
    · rw [last, List.getLast?_cons]
      cases taken.getLast? <;> rfl

end Spells

section

variable {c c' : Cursor} {l k : Lexeme} {ls : List Lexeme}

theorem accept?_of_spells (spells : c.Spells (l :: ls) c') :
    ∃ token c₁ h₁, c.accept? l.kind = some ⟨token, c₁, h₁⟩ ∧ token.lexeme = l ∧
      c₁.Spells ls c' := by
  obtain ⟨token, rest, place, lexeme, spelled⟩ := spells.uncons
  obtain ⟨before, tokens⟩ := c
  obtain rfl : tokens = token :: rest := congrArg Cursor.ahead place
  have kind : token.kind = l.kind := congrArg Lexeme.kind lexeme
  exact ⟨token, ⟨some token, rest⟩, size_tail_lt .., by rw [accept?, if_pos kind], lexeme, spelled⟩

theorem accept?_eq_none {kind : Kind} (other : c.nextKind ≠ some kind) : c.accept? kind = none := by
  obtain ⟨before, _ | ⟨token, rest⟩⟩ := c
  · rfl
  · rw [accept?, if_neg]
    rintro rfl
    exact other rfl

theorem nextKind_ne_of_accept? {kind : Kind} (refused : c.accept? kind = none) :
    c.nextKind ≠ some kind := by
  obtain ⟨before, _ | ⟨token, rest⟩⟩ := c
  · simp [nextKind]
  · intro same
    simp [accept?, (Option.some.inj same : token.kind = kind)] at refused

theorem isEmpty_of_nextKind (next : c.nextKind ≠ none) : c.ahead.isEmpty = false := by
  obtain ⟨before, _ | ⟨token, rest⟩⟩ := c
  · exact absurd rfl next
  · rfl

theorem isEmpty_of_size_lt (shorter : c'.size < c.size) : c.ahead.isEmpty = false := by
  obtain ⟨before, _ | ⟨token, rest⟩⟩ := c
  · exact absurd shorter (Nat.not_lt_zero _)
  · rfl

theorem expect_of_spells (what : String) (spells : c.Spells (l :: ls) c') :
    ∃ token c₁ h₁, c.expect l.kind what = .ok ⟨token, c₁, h₁⟩ ∧ token.lexeme = l ∧
      c₁.Spells ls c' := by
  obtain ⟨token, c₁, h₁, found, lexeme, spelled⟩ := accept?_of_spells spells
  exact ⟨token, c₁, h₁, by rw [expect, found], lexeme, spelled⟩

theorem acceptPair?_of_spells (spells : c.Spells (l :: k :: ls) c') :
    ∃ token c₁ h₁, c.acceptPair? l.kind k.kind = some ⟨token, c₁, h₁⟩ ∧ token.lexeme = k ∧
      c₁.Spells ls c' := by
  obtain ⟨t₁, rest, place, first, spelled⟩ := spells.uncons
  obtain ⟨t₂, others, placeRest, second, spelledRest⟩ := spelled.uncons
  obtain ⟨before, tokens⟩ := c
  obtain rfl : tokens = t₁ :: rest := congrArg Cursor.ahead place
  obtain rfl : rest = t₂ :: others := congrArg Cursor.ahead placeRest
  have kinds : t₁.kind = l.kind ∧ t₂.kind = k.kind :=
    ⟨congrArg Lexeme.kind first, congrArg Lexeme.kind second⟩
  exact ⟨t₂, ⟨some t₂, others⟩, by simp only [size, List.length_cons]; omega,
    by rw [acceptPair?, if_pos kinds], second, spelledRest⟩

theorem acceptPair?_eq_none {first second : Kind} (other : c.nextKind ≠ some first) :
    c.acceptPair? first second = none := by
  obtain ⟨before, _ | ⟨t₁, _ | ⟨t₂, rest⟩⟩⟩ := c
  · rfl
  · rfl
  · rw [acceptPair?, if_neg]
    rintro ⟨rfl, _⟩
    exact other rfl

theorem acceptWord?_eq_none {word : String} (other : c.nextKind ≠ some .identifier) :
    c.acceptWord? word = none := by
  obtain ⟨before, _ | ⟨token, rest⟩⟩ := c
  · rfl
  · rw [acceptWord?, if_neg]
    rintro ⟨kind, _⟩
    exact other (congrArg some kind)

theorem sees_one (c : Cursor) (kind : Kind) : c.sees [kind] = decide (c.nextKind = some kind) := by
  obtain ⟨before, _ | ⟨token, rest⟩⟩ := c
  · rfl
  · by_cases same : token.kind = kind
    · simp [sees, nextKind, same]
    · have other : kind ≠ token.kind := Ne.symm same
      simp [sees, nextKind, same, other, List.isPrefixOf]

theorem sees_two (c : Cursor) (first second : Kind) :
    c.sees [first, second] =
      (decide (c.nextKind = some first) &&
        decide ((c.ahead.tail.head?.map Token.kind) = some second)) := by
  obtain ⟨before, _ | ⟨t₁, _ | ⟨t₂, rest⟩⟩⟩ := c
  · rfl
  · simp [sees, List.isPrefixOf]
  · have swapped (a b : Kind) : (a == b) = decide (b = a) := by
      rw [Bool.beq_eq_decide_eq, decide_eq_decide]
      exact eq_comm
    simp [sees, nextKind, List.isPrefixOf, swapped]

theorem sees_two_of_spells (spells : c.Spells (l :: k :: ls) c') (first second : Kind) :
    c.sees [first, second] = (decide (l.kind = first) && decide (k.kind = second)) := by
  have next : c.nextKind = some l.kind := spells.nextKind_eq
  obtain ⟨t₁, others, place, _, later⟩ := spells.uncons
  obtain ⟨t₂, more, placeRest, lexeme, _⟩ := later.uncons
  have kind : t₂.kind = k.kind := congrArg Lexeme.kind lexeme
  have behind : c.ahead.tail.head?.map Token.kind = some k.kind := by
    rw [place, show others = t₂ :: more from congrArg Cursor.ahead placeRest]
    simp [kind]
  rw [sees_two, next, behind]
  simp

theorem identifier_of_spells {w : String} (free : Kind.ofWord w = .identifier)
    (spells : c.Spells (Lexeme.word w :: ls) c') :
    ∃ c₁ h₁, c.identifier = .ok ⟨w, c₁, h₁⟩ ∧ c₁.Spells ls c' := by
  obtain ⟨token, c₁, h₁, expected, lexeme, spelled⟩ := expect_of_spells "identifier" spells
  have kind : (Lexeme.word w).kind = .identifier := free
  rw [kind] at expected
  have text : token.text = w := congrArg Lexeme.text lexeme
  refine ⟨c₁, h₁, ?_, spelled⟩
  rw [identifier, expected, ok_bind]
  simp only [text]
  rfl

end

end Cursor

theorem Annotation.comesNext_eq_false {c : Cursor} (other : c.nextKind ≠ some .atSign) :
    comesNext c = false := by
  rw [comesNext, Cursor.sees_one]
  simp [other]

theorem Annotation.pass_of_nextKind {c : Cursor} (other : c.nextKind ≠ some .atSign) :
    pass c = .ok ⟨(), c, c.size_le⟩ :=
  pass_of_not_comesNext (comesNext_eq_false other)

namespace Cursor

/-- Items that come next with a separator between two of them are accepted one by one. An item may
depend on what follows it: a separator, or what follows the last one. -/
theorem sepByTail_of_spells {α β : Type} {origin : Cursor} {separator : Kind}
    {item : (c : Cursor) → c.size ≤ origin.size → Reading α c} {lexemes : β → List Lexeme}
    {Same : α → β → Prop} {Follows : Cursor → Prop}
    (parted : ∀ c : Cursor, c.nextKind = some separator → Follows c) {items : List β}
    (each : ∀ x ∈ items, ∀ c c' within, c.Spells (lexemes x) c' → Follows c' →
      ∃ value h, item c within = .ok ⟨value, c', h⟩ ∧ Same value x)
    (nonempty : items ≠ []) {c c' : Cursor} {within : c.size ≤ origin.size} {read : List α}
    (spells : c.Spells ([separator.lexeme].intercalate (items.map lexemes)) c')
    (ends : Follows c') (last : c'.nextKind ≠ some separator) :
    ∃ values h, sepByTail origin separator item c within read = .ok ⟨read.reverse ++ values, c', h⟩ ∧
      List.Forall₂ Same values items := by
  -- The items read so far vary along the loop, so the induction is for all of them.
  induction items generalizing c read with
  | nil => exact absurd rfl nonempty
  | cons x items ih =>
    cases items with
    | nil =>
      rw [List.map_cons, List.map_nil, List.intercalate_singleton] at spells
      obtain ⟨value, h₁, itemRead, same⟩ := each x List.mem_cons_self c c' within spells ends
      rw [sepByTail, itemRead, ok_bind]
      simp only [accept?_eq_none last, List.reverse_cons]
      exact ⟨[value], Nat.lt_of_lt_of_le h₁ within, rfl, .cons same .nil⟩
    | cons y items =>
      rw [List.map_cons, List.map_cons, List.intercalate_cons_cons, ← List.map_cons,
        List.append_assoc] at spells
      obtain ⟨c₁, first, others⟩ := spells.split
      have next : c₁.nextKind = some separator := others.nextKind_eq
      obtain ⟨value, h₁, itemRead, same⟩ :=
        each x List.mem_cons_self c c₁ within first (parted c₁ next)
      obtain ⟨token, c₂, h₂, found, _, rest⟩ := accept?_of_spells others
      change c₁.accept? separator = _ at found
      obtain ⟨values, h, tail, all⟩ :=
        @ih (fun z member => each z (.tail x member)) (by simp) c₂ (by omega) (value :: read) rest
      rw [sepByTail, itemRead, ok_bind]
      simp only [found]
      rw [List.reverse_cons, List.append_assoc] at tail
      exact ⟨value :: values, h, tail, .cons same all⟩

theorem sepBy_of_spells {α β : Type} {c c' : Cursor} {separator : Kind}
    (item : (c₁ : Cursor) → c₁.size ≤ c.size → Reading α c₁) {lexemes : β → List Lexeme}
    (Same : α → β → Prop) {Follows : Cursor → Prop}
    (parted : ∀ c : Cursor, c.nextKind = some separator → Follows c) {items : List β}
    (each : ∀ x ∈ items, ∀ c c' within, c.Spells (lexemes x) c' → Follows c' →
      ∃ value h, item c within = .ok ⟨value, c', h⟩ ∧ Same value x)
    (nonempty : items ≠ [])
    (spells : c.Spells ([separator.lexeme].intercalate (items.map lexemes)) c')
    (ends : Follows c') (last : c'.nextKind ≠ some separator) :
    ∃ values h, c.sepBy separator item = .ok ⟨values, c', h⟩ ∧ List.Forall₂ Same values items :=
  sepByTail_of_spells parted each nonempty spells ends last

end Cursor

end TestDouble
