import TestDouble.Proofs.Echo
import TestDouble.Proofs.TypeForms

/-!
# What a reader does not look at

A reader that stops before a brace or a semicolon looks at nothing behind it. So when all tokens
behind such a bar are exchanged for others, every reader that stopped before it returns the same value
and stops at the same place. For each reader there is one such statement.
-/

namespace TestDouble

/-- Braces and semicolons. -/
def Kind.bars : Kind → Bool
  | .leftBrace | .rightBrace | .semicolon => true
  | _ => false

theorem Kind.bars_iff {kind : Kind} :
    kind.bars = true ↔ kind = .leftBrace ∨ kind = .rightBrace ∨ kind = .semicolon := by
  cases kind <;> simp [bars]

/-- A brace or a semicolon, the tokens behind it and tokens to stand there instead. -/
structure Graft where
  bar : Token
  old : List Token
  new : List Token
  bars : bar.kind.bars = true

namespace Graft

/-- Two cursors before the bar, at the same place among the same tokens, the first with the old
tokens behind the bar and the second with the new ones. -/
structure At (g : Graft) (c c' : Cursor) : Prop where
  last : c'.last = c.last
  ahead : ∃ kept, c.ahead = kept ++ g.bar :: g.old ∧ c'.ahead = kept ++ g.bar :: g.new

/-- The number of tokens behind the bar. A cursor stands before the bar if it has more of them
ahead. -/
def behind (g : Graft) : Nat := g.old.length

theorem bar_kind_ne (g : Graft) {kind : Kind} (other : kind.bars = false) : g.bar.kind ≠ kind := by
  rintro rfl
  rw [g.bars] at other
  cases other

private theorem not_behind_lt {g : Graft} {last : Option Token} {rest : List Token}
    (same : rest = g.old) : ¬g.behind < Cursor.size ⟨last, rest⟩ := by
  rw [same]
  exact Nat.lt_irrefl _

end Graft

/-- What is read from the first cursor up to a place before the bar is also read from the second
one. -/
def Graft.Reads {α : Type} (g : Graft) {c c' : Cursor} (x : Reading α c) (y : Reading α c') : Prop :=
  ∀ ⦃v d h⦄, x = .ok ⟨v, d, h⟩ → g.behind < d.size → ∃ d' h', y = .ok ⟨v, d', h'⟩ ∧ g.At d d'

@[inherit_doc Graft.Reads]
def Graft.Passes {α : Type} (g : Graft) {c c' : Cursor} (x : Passing α c) (y : Passing α c') : Prop :=
  ∀ ⦃v d h⦄, x = .ok ⟨v, d, h⟩ → g.behind < d.size → ∃ d' h', y = .ok ⟨v, d', h'⟩ ∧ g.At d d'

namespace Graft.At

variable {g : Graft} {c c' : Cursor} (s : g.At c c')

include s

/-- The next token is the same on both sides; behind it the two still stand before the bar, unless
it is the bar. -/
theorem cases_ahead :
    ∃ t rest rest', c.ahead = t :: rest ∧ c'.ahead = t :: rest' ∧
      (g.At ⟨some t, rest⟩ ⟨some t, rest'⟩ ∨
        (t = g.bar ∧ rest = g.old ∧ rest' = g.new)) := by
  obtain ⟨kept, ahead, ahead'⟩ := s.ahead
  cases kept with
  | nil => exact ⟨g.bar, g.old, g.new, ahead, ahead', .inr ⟨rfl, rfl, rfl⟩⟩
  | cons t kept => exact ⟨t, _, _, ahead, ahead', .inl ⟨rfl, kept, rfl, rfl⟩⟩

theorem lastStop_eq : c'.lastStop = c.lastStop := by
  rw [Cursor.lastStop, Cursor.lastStop, s.last]

theorem location_eq : c'.location = c.location := by
  obtain ⟨t, rest, rest', ahead, ahead', -⟩ := s.cases_ahead
  rw [Cursor.location, Cursor.location, ahead, ahead']

theorem nextKind_eq : c'.nextKind = c.nextKind := by
  obtain ⟨t, rest, rest', ahead, ahead', -⟩ := s.cases_ahead
  rw [Cursor.nextKind, Cursor.nextKind, ahead, ahead']
  rfl

theorem isEmpty_eq : c'.ahead.isEmpty = c.ahead.isEmpty := by
  obtain ⟨t, rest, rest', ahead, ahead', -⟩ := s.cases_ahead
  rw [ahead, ahead']
  rfl

theorem sees_one (kind : Kind) : c'.sees [kind] = c.sees [kind] := by
  rw [Cursor.sees_one, Cursor.sees_one, s.nextKind_eq]

/-- Two tokens are seen alike, since the second one is looked at only if the first is no bar. -/
theorem sees_two (first second : Kind) (noBar : first.bars = false) :
    c'.sees [first, second] = c.sees [first, second] := by
  obtain ⟨t, rest, rest', ahead, ahead', later | ⟨rfl, -, -⟩⟩ := s.cases_ahead
  · rw [Cursor.sees_two, Cursor.sees_two, s.nextKind_eq, ahead, ahead']
    have next := later.nextKind_eq
    simp only [Cursor.nextKind] at next
    rw [List.tail_cons, List.tail_cons, next]
  · have other : c.nextKind ≠ some first := by
      rw [Cursor.nextKind, ahead]
      simpa using g.bar_kind_ne noBar
    rw [Cursor.sees_two, Cursor.sees_two, s.nextKind_eq]
    simp [other]

theorem seesWord_eq (word : String) : c'.seesWord word = c.seesWord word := by
  obtain ⟨t, rest, rest', ahead, ahead', -⟩ := s.cases_ahead
  simp only [Cursor.seesWord, ahead, ahead']

theorem accept? (kind : Kind) :
    (c.accept? kind = none ∧ c'.accept? kind = none) ∨
    ∃ t d h, c.accept? kind = some ⟨t, d, h⟩ ∧ (g.behind < d.size →
      ∃ d' h', c'.accept? kind = some ⟨t, d', h'⟩ ∧ g.At d d') := by
  obtain ⟨last, ahead⟩ := c
  obtain ⟨last', ahead'⟩ := c'
  obtain ⟨t, rest, rest', rfl, rfl, later⟩ := s.cases_ahead
  by_cases kindIs : t.kind = kind
  · right
    simp only [Cursor.accept?, if_pos kindIs]
    refine ⟨t, ⟨some t, rest⟩, Cursor.size_tail_lt .., rfl, fun before => ?_⟩
    rcases later with later | ⟨-, same, -⟩
    · exact ⟨⟨some t, rest'⟩, Cursor.size_tail_lt .., rfl, later⟩
    · exact absurd before (not_behind_lt same)
  · left
    simp only [Cursor.accept?, if_neg kindIs, and_self]

theorem accept?_none {kind : Kind} (none : c.accept? kind = none) : c'.accept? kind = .none := by
  apply Cursor.accept?_eq_none
  rw [s.nextKind_eq]
  exact Cursor.nextKind_ne_of_accept? none

theorem accept?_some {kind : Kind} {t : Token} {d : Cursor} {h : d.size < c.size}
    (found : c.accept? kind = some ⟨t, d, h⟩) (before : g.behind < d.size) :
    ∃ d' h', c'.accept? kind = some ⟨t, d', h'⟩ ∧ g.At d d' := by
  rcases s.accept? kind with ⟨none, -⟩ | ⟨t, d, h, again, later⟩
  · simp [none] at found
  · obtain ⟨rfl, rfl⟩ := Consumed.mk.inj (Option.some.inj (again.symm.trans found))
    exact later before

theorem acceptWord? (word : String) :
    (c.acceptWord? word = none ∧ c'.acceptWord? word = none) ∨
    ∃ t d h, c.acceptWord? word = some ⟨t, d, h⟩ ∧ (g.behind < d.size →
      ∃ d' h', c'.acceptWord? word = some ⟨t, d', h'⟩ ∧ g.At d d') := by
  obtain ⟨last, ahead⟩ := c
  obtain ⟨last', ahead'⟩ := c'
  obtain ⟨t, rest, rest', rfl, rfl, later⟩ := s.cases_ahead
  by_cases wordIs : t.kind = .identifier ∧ t.text = word
  · right
    simp only [Cursor.acceptWord?, if_pos wordIs]
    refine ⟨t, ⟨some t, rest⟩, Cursor.size_tail_lt .., rfl, fun before => ?_⟩
    rcases later with later | ⟨-, same, -⟩
    · exact ⟨⟨some t, rest'⟩, Cursor.size_tail_lt .., rfl, later⟩
    · exact absurd before (not_behind_lt same)
  · left
    simp only [Cursor.acceptWord?, if_neg wordIs, and_self]

theorem acceptPair? (first second : Kind) (noBar : first.bars = false) :
    (c.acceptPair? first second = none ∧ c'.acceptPair? first second = none) ∨
    ∃ t d h, c.acceptPair? first second = some ⟨t, d, h⟩ ∧ (g.behind < d.size →
      ∃ d' h', c'.acceptPair? first second = some ⟨t, d', h'⟩ ∧ g.At d d') := by
  obtain ⟨last, ahead⟩ := c
  obtain ⟨last', ahead'⟩ := c'
  obtain ⟨t, rest, rest', rfl, rfl, later | ⟨rfl, -, -⟩⟩ := s.cases_ahead
  · -- The second token is the same too, since the first is not the bar.
    obtain ⟨u, more, more', rfl, rfl, behind⟩ := later.cases_ahead
    by_cases kindsAre : t.kind = first ∧ u.kind = second
    · right
      simp only [Cursor.acceptPair?, if_pos kindsAre]
      refine ⟨u, ⟨some u, more⟩, by simp only [Cursor.size, List.length_cons]; omega, rfl,
        fun before => ?_⟩
      rcases behind with behind | ⟨-, same, -⟩
      · exact ⟨⟨some u, more'⟩, by simp only [Cursor.size, List.length_cons]; omega, rfl, behind⟩
      · exact absurd before (not_behind_lt same)
    · left
      simp only [Cursor.acceptPair?, if_neg kindsAre, and_self]
  · left
    have other := g.bar_kind_ne noBar
    constructor <;> exact Cursor.acceptPair?_eq_none (by simpa [Cursor.nextKind] using other)

theorem acceptPair?_none {first second : Kind} (noBar : first.bars = false)
    (none : c.acceptPair? first second = none) : c'.acceptPair? first second = .none := by
  rcases s.acceptPair? first second noBar with ⟨-, none'⟩ | ⟨t, d, h, some, -⟩
  · exact none'
  · simp [some] at none

theorem acceptPair?_some {first second : Kind} (noBar : first.bars = false) {t : Token} {d : Cursor}
    {h : d.size < c.size} (found : c.acceptPair? first second = some ⟨t, d, h⟩)
    (before : g.behind < d.size) :
    ∃ d' h', c'.acceptPair? first second = some ⟨t, d', h'⟩ ∧ g.At d d' := by
  rcases s.acceptPair? first second noBar with ⟨none, -⟩ | ⟨t, d, h, again, later⟩
  · simp [none] at found
  · obtain ⟨rfl, rfl⟩ := Consumed.mk.inj (Option.some.inj (again.symm.trans found))
    exact later before

theorem expect (kind : Kind) (what : String) :
    g.Reads (c.expect kind what) (c'.expect kind what) := by
  intro v d h returned before
  simp only [Cursor.expect] at returned ⊢
  rcases s.accept? kind with ⟨none, -⟩ | ⟨t, c₁, h₁, some, later⟩
  · rw [none] at returned
    cases returned
  · rw [some] at returned
    cases returned
    obtain ⟨d', h', some', s'⟩ := later before
    rw [some']
    exact ⟨d', h', rfl, s'⟩

theorem identifier : g.Reads c.identifier c'.identifier := by
  intro v d h returned before
  obtain ⟨⟨t, c₁, h₁⟩, expected, finished⟩ := bind_eq_ok returned
  cases finished
  obtain ⟨c₁', h₁', expected', s₁⟩ := s.expect _ _ expected before
  exact ⟨c₁', h₁', bind_of_ok expected' rfl, s₁⟩

end Graft.At

namespace Cursor

theorem size_nameTail_le (origin c : Cursor) (within : c.size < origin.size) (name : String) :
    (nameTail origin c within name).cursor.size ≤ c.size := by
  fun_induction nameTail origin c within name with
  | case1 c within name token c₁ h₁ found ih => omega
  | case2 => exact Nat.le_refl _

theorem size_bracketPairs_le (origin c : Cursor) (within : c.size ≤ origin.size) (n : Nat) :
    (bracketPairs origin c within n).cursor.size ≤ c.size := by
  fun_induction bracketPairs origin c within n with
  | case1 c within n token c₁ h₁ found ih => omega
  | case2 => exact Nat.le_refl _

theorem size_sepByTail_lt {α : Type} {origin : Cursor} {separator : Kind}
    {item : (c : Cursor) → c.size ≤ origin.size → Reading α c} {c : Cursor}
    {within : c.size ≤ origin.size} {read : List α} {r : Consumed origin (List α)}
    (returned : sepByTail origin separator item c within read = .ok r) : r.cursor.size < c.size := by
  rw [sepByTail] at returned
  obtain ⟨⟨value, c₁, h₁⟩, -, returned⟩ := bind_eq_ok returned
  dsimp only at returned
  split at returned
  next t c₂ h₂ found =>
    have later := size_sepByTail_lt returned
    omega
  next =>
    cases returned
    exact h₁
termination_by c.size

end Cursor

namespace Graft

variable {g : Graft} {c c' : Cursor}

theorem At.nameTail {origin origin' c c' : Cursor} {within : c.size < origin.size}
    (within' : c'.size < origin'.size) (s : g.At c c') {name v : String} {d : Cursor}
    {h : d.size < origin.size} (returned : Cursor.nameTail origin c within name = ⟨v, d, h⟩)
    (before : g.behind < d.size) :
    ∃ d' h', Cursor.nameTail origin' c' within' name = ⟨v, d', h'⟩ ∧ g.At d d' := by
  have size := Cursor.size_nameTail_le origin c within name
  rw [Cursor.nameTail] at returned ⊢
  rcases s.acceptPair? .dot .identifier rfl with ⟨none, none'⟩ | ⟨t, c₁, h₁, some, later⟩
  · rw [none] at returned
    cases returned
    rw [none']
    exact ⟨c', within', rfl, s⟩
  · simp only [some] at returned
    have size := Cursor.size_nameTail_le origin c₁ (by omega) (name ++ "." ++ t.text)
    rw [returned] at size
    obtain ⟨c₁', h₁', some', s₁⟩ := later (Nat.lt_of_lt_of_le before size)
    simp only [some']
    exact s₁.nameTail (by omega) returned before
termination_by c.size

theorem At.dottedName (s : g.At c c') : g.Reads c.dottedName c'.dottedName := by
  intro v d h returned before
  obtain ⟨⟨name, c₁, h₁⟩, named, finished⟩ := bind_eq_ok returned
  have ended : Cursor.nameTail c c₁ h₁ name = ⟨v, d, h⟩ := Except.ok.inj finished
  have size := Cursor.size_nameTail_le c c₁ h₁ name
  rw [ended] at size
  obtain ⟨c₁', h₁', named', s₁⟩ := s.identifier named (Nat.lt_of_lt_of_le before size)
  obtain ⟨d', h', ended', s₂⟩ := s₁.nameTail h₁' ended before
  exact ⟨d', h', bind_of_ok named' (congrArg Except.ok ended'), s₂⟩

theorem At.bracketPairs {origin origin' c c' : Cursor} {within : c.size ≤ origin.size}
    (within' : c'.size ≤ origin'.size) (s : g.At c c') {n v : Nat} {d : Cursor}
    {h : d.size ≤ origin.size} (returned : Cursor.bracketPairs origin c within n = ⟨v, d, h⟩)
    (before : g.behind < d.size) :
    ∃ d' h', Cursor.bracketPairs origin' c' within' n = ⟨v, d', h'⟩ ∧ g.At d d' := by
  rw [Cursor.bracketPairs] at returned ⊢
  rcases s.acceptPair? .leftBracket .rightBracket rfl with ⟨none, none'⟩ | ⟨t, c₁, h₁, some, later⟩
  · rw [none] at returned
    cases returned
    rw [none']
    exact ⟨c', within', rfl, s⟩
  · simp only [some] at returned
    have size := Cursor.size_bracketPairs_le origin c₁ (by omega) (n + 1)
    rw [returned] at size
    obtain ⟨c₁', h₁', some', s₁⟩ := later (Nat.lt_of_lt_of_le before size)
    simp only [some']
    exact s₁.bracketPairs (by omega) returned before
termination_by c.size

theorem At.dimensions (s : g.At c c') {n : Nat} {d : Cursor} {h : d.size ≤ c.size}
    (returned : c.dimensions = ⟨n, d, h⟩) (before : g.behind < d.size) :
    ∃ d' h', c'.dimensions = ⟨n, d', h'⟩ ∧ g.At d d' :=
  s.bracketPairs c'.size_le returned before

section

variable {α : Type}

theorem At.sepByTail {origin origin' c c' : Cursor} {separator : Kind}
    {item : (d : Cursor) → d.size ≤ origin.size → Reading α d}
    {item' : (d : Cursor) → d.size ≤ origin'.size → Reading α d}
    {within : c.size ≤ origin.size} {within' : c'.size ≤ origin'.size}
    (each : ∀ d d' h h', d.size ≤ c.size → g.At d d' → g.Reads (item d h) (item' d' h'))
    (s : g.At c c') (read : List α) :
    g.Reads (Cursor.sepByTail origin separator item c within read)
      (Cursor.sepByTail origin' separator item' c' within' read) := by
  intro v d h returned before
  rw [Cursor.sepByTail] at returned ⊢
  obtain ⟨⟨value, c₁, h₁⟩, itemRead, returned⟩ := bind_eq_ok returned
  dsimp only at returned
  -- The bar is ahead after the list, so it is ahead after its first item.
  have size₁ : d.size ≤ c₁.size := by
    split at returned
    next t c₂ h₂ found =>
      have later := Cursor.size_sepByTail_lt returned
      dsimp only at later
      omega
    next =>
      cases returned
      exact Nat.le_refl _
  obtain ⟨c₁', h₁', itemRead', s₁⟩ :=
    each c c' within within' (Nat.le_refl _) s itemRead (by omega)
  rw [itemRead']
  rcases s₁.accept? separator with ⟨none, none'⟩ | ⟨t, c₂, h₂, some, later⟩
  · simp only [none] at returned
    cases returned
    refine ⟨c₁', by omega, ?_, s₁⟩
    simp only [ok_bind, none']
    rfl
  · simp only [some] at returned
    have size₂ := Cursor.size_sepByTail_lt returned
    dsimp only at size₂
    obtain ⟨c₂', h₂', some', s₂⟩ := later (by omega)
    simp only [ok_bind, some']
    exact s₂.sepByTail (fun d d' h h' shorter => each d d' h h' (by omega)) _ returned before
termination_by c.size
decreasing_by omega

theorem At.sepBy {separator : Kind} {item : (d : Cursor) → d.size ≤ c.size → Reading α d}
    {item' : (d : Cursor) → d.size ≤ c'.size → Reading α d} (s : g.At c c')
    (each : ∀ d d' h h', g.At d d' → g.Reads (item d h) (item' d' h')) :
    g.Reads (c.sepBy separator item) (c'.sepBy separator item') :=
  s.sepByTail (fun d d' h h' _ => each d d' h h') []

/-- The items before a closing bracket, of which there may be none. -/
theorem At.items {β : Type} (empty : β) (finish : List α → β)
    {item : (d : Cursor) → d.size ≤ c.size → Reading α d}
    {item' : (d : Cursor) → d.size ≤ c'.size → Reading α d} (s : g.At c c')
    (each : ∀ d d' h h', g.At d d' → g.Reads (item d h) (item' d' h')) :
    g.Passes
      (if c.sees [.rightParen] then return ⟨empty, c, c.size_le⟩
        else do
          let ⟨found, c₁, h₁⟩ ← c.sepBy .comma item
          return ⟨finish found, c₁, Cursor.le_of_lt h₁⟩ : Passing β c)
      (if c'.sees [.rightParen] then return ⟨empty, c', c'.size_le⟩
        else do
          let ⟨found, c₁, h₁⟩ ← c'.sepBy .comma item'
          return ⟨finish found, c₁, Cursor.le_of_lt h₁⟩ : Passing β c') := by
  intro v d h returned before
  rw [s.sees_one]
  split at returned
  next none_ =>
    cases returned
    rw [if_pos none_]
    exact ⟨c', c'.size_le, rfl, s⟩
  next some_ =>
    rw [if_neg some_]
    obtain ⟨⟨found, c₁, h₁⟩, separated, finished⟩ := bind_eq_ok returned
    cases finished
    obtain ⟨c₁', h₁', separated', s₁⟩ := s.sepBy each separated before
    exact ⟨c₁', Cursor.le_of_lt h₁', bind_of_ok separated' rfl, s₁⟩

theorem At.clause {kind : Kind} {item : (d : Cursor) → d.size ≤ c.size → Reading α d}
    {item' : (d : Cursor) → d.size ≤ c'.size → Reading α d} (s : g.At c c')
    (each : ∀ d d' h h', g.At d d' → g.Reads (item d h) (item' d' h')) :
    g.Passes (c.clause kind item) (c'.clause kind item') := by
  intro v d h returned before
  rw [Cursor.clause] at returned ⊢
  rcases s.accept? kind with ⟨none, none'⟩ | ⟨t, c₁, h₁, some, later⟩
  · simp only [none] at returned
    cases returned
    simp only [none']
    exact ⟨c', c'.size_le, rfl, s⟩
  · simp only [some] at returned
    obtain ⟨⟨value, c₂, h₂⟩, itemRead, finished⟩ := bind_eq_ok returned
    cases finished
    dsimp only at before
    obtain ⟨c₁', h₁', some', s₁⟩ := later (by omega)
    obtain ⟨c₂', h₂', itemRead', s₂⟩ := each c₁ c₁' _ (Cursor.le_of_lt h₁') s₁ itemRead before
    simp only [some']
    exact ⟨c₂', by omega, bind_of_ok itemRead' rfl, s₂⟩

end

/-- The tokens that are skipped by a cursor that stays before the bar stand before it. -/
theorem le_length {kept : List Token} {n : Nat}
    (ahead : c.ahead = kept ++ g.bar :: g.old) (before : g.behind < c.size - n) :
    n ≤ kept.length := by
  simp only [behind, Cursor.size, ahead, List.length_append, List.length_cons] at before
  omega

/-- As long as it stays before the bar, a cursor passes the same tokens on both sides. -/
theorem At.passes (s : g.At c c') {taken : List Token} {d : Cursor} (passes : c.Passes taken d)
    (before : g.behind < d.size) : ∃ d', c'.Passes taken d' ∧ g.At d d' := by
  obtain ⟨kept, ahead, ahead'⟩ := s.ahead
  have size := passes.size_eq
  have within := le_length ahead (by omega : g.behind < c.size - taken.length)
  -- What is passed is the first part of the tokens that both sides have before the bar.
  obtain ⟨left, rfl⟩ : taken <+: kept := by
    have both : kept ++ g.bar :: g.old = taken ++ d.ahead := ahead.symm.trans passes.ahead
    exact List.prefix_of_prefix_length_le ⟨_, both.symm⟩ (List.prefix_append ..) within
  rw [List.append_assoc] at ahead ahead'
  refine ⟨⟨d.last, left ++ g.bar :: g.new⟩, ⟨ahead', ?_⟩, rfl, left, ?_, rfl⟩
  · rw [passes.last, s.last]
  · exact List.append_cancel_left (passes.ahead.symm.trans ahead)

theorem At.skip (s : g.At c c') {n : Nat} (inside : n ≤ c.size) (inside' : n ≤ c'.size)
    (before : g.behind < (c.skip n inside).size) : g.At (c.skip n inside) (c'.skip n inside') := by
  obtain ⟨d', passes, s'⟩ := s.passes (.skip c inside) before
  have length : (c'.ahead.take n).length = (c.ahead.take n).length := by
    rw [List.length_take_of_le inside, List.length_take_of_le inside']
  obtain rfl := (Cursor.Passes.skip c' inside').unique passes length
  exact s'

end Graft

/-! ### Raw texts and bodies -/

namespace Fragment

variable {g : Graft} {c c' : Cursor}

theorem valueLength?_ge {stops : List Token → Bool} {tokens : List Token} {depth n m : Nat}
    (found : valueLength? stops tokens depth n = some m) : n ≤ m := by
  fun_induction valueLength? stops tokens depth n with
  | case1 => simp at found
  | case2 depth n token rest opens ih | case4 depth n token rest _ closes inside ih
  | case6 depth n token rest _ _ going ih =>
    have bound := ih found
    omega
  | case3 n token rest | case5 depth n token rest =>
    cases found
    exact Nat.le_refl _

/-- A value that ends before the bar is found without a look behind it. -/
theorem valueLength?_graft {stops : List Token → Bool}
    (blind : ∀ kept, stops (kept ++ g.bar :: g.new) = stops (kept ++ g.bar :: g.old))
    (kept : List Token) {depth n m : Nat}
    (found : valueLength? stops (kept ++ g.bar :: g.old) depth n = some m)
    (before : m ≤ n + kept.length) :
    valueLength? stops (kept ++ g.bar :: g.new) depth n = some m := by
  induction kept generalizing depth n with
  | nil =>
    have blindHere := blind []
    simp only [List.nil_append, List.length_nil] at found before blindHere
    rw [List.nil_append]
    simp only [valueLength?, blindHere] at found ⊢
    -- The scan stops at the bar, or it would have gone into it.
    split_ifs at found ⊢
    · have counted := valueLength?_ge found
      omega
    · exact found
    · have counted := valueLength?_ge found
      omega
    · exact found
    · have counted := valueLength?_ge found
      omega
  | cons t kept ih =>
    have blindHere := blind (t :: kept)
    simp only [List.cons_append] at found blindHere
    simp only [List.length_cons] at before
    rw [List.cons_append]
    simp only [valueLength?, blindHere] at found ⊢
    have later {depth : Nat} := @ih depth (n + 1)
    split_ifs at found ⊢ with opens closes outside stop
    · exact later found (by omega)
    · exact found
    · exact later found (by omega)
    · exact found
    · exact later found (by omega)

theorem readValue_grafts (s : g.At c c') (what : String) {stops : List Token → Bool}
    (blind : ∀ kept, stops (kept ++ g.bar :: g.new) = stops (kept ++ g.bar :: g.old)) :
    g.Reads (readValue c what stops) (readValue c' what stops) := by
  intro v d h returned before
  obtain ⟨first, more, passes, rfl, counted⟩ := readValue_eq_ok returned
  obtain ⟨d', passes', s'⟩ := s.passes passes before
  obtain ⟨kept, ahead, ahead'⟩ := s.ahead
  have size : c.size = more.length + 1 + d.size := passes.size_eq
  have within := Graft.le_length ahead (by omega : g.behind < c.size - (more.length + 1))
  rw [ahead] at counted
  have counted' := valueLength?_graft blind kept counted (by omega)
  rw [← ahead'] at counted'
  obtain ⟨h', read'⟩ := readValue_of_passes passes' counted' what
  exact ⟨d', h', read', s'⟩

/-- A statement that ends before the bar is found without a look behind it. -/
theorem statementLength?_graft (afterDo : Bool) (kept : List Token) {depth n m : Nat} {ended : Bool}
    (found : statementLength? afterDo (kept ++ g.bar :: g.old) depth n = some (m, ended))
    (before : m ≤ n + kept.length) :
    statementLength? afterDo (kept ++ g.bar :: g.new) depth n = some (m, ended) := by
  induction kept generalizing depth n with
  | nil =>
    -- A statement that goes on behind the bar is longer than allowed.
    have into {depth : Nat} (found : statementLength? afterDo g.old depth (n + 1) = some (m, ended)) :
        False := by
      obtain ⟨k, counted, -⟩ := statementLength?_endsWithin found
      simp at before
      omega
    rcases Kind.bars_iff.mp g.bars with bar | bar | bar
    · simp only [List.nil_append, statementLength?, bar] at found
      exact (into found).elim
    · simp only [List.nil_append, statementLength?, bar] at found ⊢
      split at found
      next outside =>
        rw [if_pos outside]
        exact found
      next =>
        split at found
        · -- The statement would end with the bar.
          simp at found before
          omega
        · exact (into found).elim
    · simp only [List.nil_append, statementLength?, bar] at found ⊢
      split_ifs at found ⊢
      · exact found
      · exact (into found).elim
  | cons t kept ih =>
    have goes : goesOn afterDo (kept ++ g.bar :: g.new) =
        goesOn afterDo (kept ++ g.bar :: g.old) := by
      cases kept <;> rfl
    simp only [List.length_cons] at before
    simp only [List.cons_append, statementLength?, goes] at found ⊢
    have later {depth : Nat} := @ih depth (n + 1)
    split at found
    · exact later found (by omega)
    · exact later found (by omega)
    · exact later found (by omega)
    · exact later found (by omega)
    · exact later found (by omega)
    · split_ifs at found ⊢
      · exact found
      · exact found
      · exact later found (by omega)
    · split_ifs at found ⊢
      · exact found
      · exact later found (by omega)
    · exact later found (by omega)

theorem readStatement_grafts (s : g.At c c') : g.Reads (readStatement c) (readStatement c') := by
  intro v d h returned before
  obtain ⟨first, more, dropped, ended, passes, rfl, counted, ends⟩ := readStatement_eq_ok returned
  obtain ⟨d', passes', s'⟩ := s.passes passes before
  obtain ⟨kept, ahead, ahead'⟩ := s.ahead
  have size : c.size = (first :: more ++ dropped).length + d.size := passes.size_eq
  rw [List.length_append, List.length_cons] at size
  have within := Graft.le_length ahead (by omega : g.behind < c.size - (more.length + 1))
  rw [ahead] at counted
  have counted' := statementLength?_graft (c.seesWord "do") kept counted (by omega)
  rw [← ahead', ← s.seesWord_eq "do"] at counted'
  obtain ⟨h', read'⟩ := readStatement_of_passes passes' counted' ends
  exact ⟨d', h', read', s'⟩

end Fragment

namespace Block

variable {g : Graft}

theorem size_readStatements_lt {origin c : Cursor} {start : Location} {within : c.size < origin.size}
    {count : Nat} {read : List BodyStatement} {r : Consumed origin (List BodyStatement)}
    (returned : readStatements origin start c within count read = .ok r) : r.cursor.size < c.size := by
  rw [readStatements] at returned
  split at returned
  next => cases returned
  next =>
    split at returned
    next t c₁ h₁ found =>
      cases returned
      exact h₁
    next =>
      split at returned
      next t c₁ h₁ found =>
        have later := size_readStatements_lt returned
        omega
      next =>
        split at returned
        next => cases returned
        next =>
          split at returned
          next =>
            obtain ⟨⟨block, c₁, h₁⟩, -, returned⟩ := bind_eq_ok returned
            have later := size_readStatements_lt returned
            omega
          next =>
            obtain ⟨⟨fragment, c₁, h₁⟩, -, returned⟩ := bind_eq_ok returned
            have later := size_readStatements_lt returned
            omega
termination_by c.size

mutual

theorem read_grafts {c c' : Cursor} (s : g.At c c') : g.Reads (Block.read c) (Block.read c') := by
  intro v d h returned before
  rw [Block.read] at returned ⊢
  obtain ⟨⟨brace, c₁, h₁⟩, opened, returned⟩ := bind_eq_ok returned
  obtain ⟨⟨statements, c₂, h₂⟩, closed, finished⟩ := bind_eq_ok returned
  have size := size_readStatements_lt closed
  cases finished
  dsimp only at before size
  obtain ⟨c₁', h₁', opened', s₁⟩ := s.expect _ _ opened (by omega)
  obtain ⟨c₂', h₂', closed', s₂⟩ :=
    readStatements_grafts s₁ c.location h₁ h₁' 0 [] closed before
  refine ⟨c₂', h₂', ?_, s₂⟩
  rw [← s.location_eq] at closed' ⊢
  rw [← s₂.lastStop_eq]
  exact bind_of_ok opened' (bind_of_ok closed' rfl)
termination_by 2 * c.size

theorem readStatements_grafts {origin origin' c c' : Cursor} (s : g.At c c') (start : Location)
    (within : c.size < origin.size) (within' : c'.size < origin'.size) (count : Nat)
    (read : List BodyStatement) :
    g.Reads (readStatements origin start c within count read)
      (readStatements origin' start c' within' count read) := by
  intro v d h returned before
  have size := size_readStatements_lt returned
  rw [readStatements] at returned ⊢
  split at returned
  next => cases returned
  next few =>
    rw [if_neg few]
    rcases s.accept? .rightBrace with ⟨none, none'⟩ | ⟨t, c₁, h₁, some, later⟩
    · simp only [none, none', s.isEmpty_eq, s.sees_one] at returned ⊢
      rcases s.accept? .semicolon with ⟨none, none'⟩ | ⟨t, c₁, h₁, some, later⟩
      · simp only [none, none'] at returned ⊢
        split at returned
        next => cases returned
        next more =>
          rw [if_neg more]
          split at returned
          next nested =>
            rw [if_pos nested]
            obtain ⟨⟨block, c₁, h₁⟩, blockRead, returned⟩ := bind_eq_ok returned
            have size₁ := size_readStatements_lt returned
            dsimp only at size₁
            obtain ⟨c₁', h₁', blockRead', s₁⟩ := read_grafts s blockRead (by omega)
            obtain ⟨d', h', returned', s₂⟩ :=
              readStatements_grafts s₁ start _ (Cursor.lt_of_lt_lt within' h₁') _ _ returned before
            exact ⟨d', h', bind_of_ok blockRead' returned', s₂⟩
          next notNested =>
            rw [if_neg notNested]
            obtain ⟨⟨fragment, c₁, h₁⟩, statement, returned⟩ := bind_eq_ok returned
            have size₁ := size_readStatements_lt returned
            dsimp only at size₁
            obtain ⟨c₁', h₁', statement', s₁⟩ := Fragment.readStatement_grafts s statement (by omega)
            obtain ⟨d', h', returned', s₂⟩ :=
              readStatements_grafts s₁ start _ (Cursor.lt_of_lt_lt within' h₁') _ _ returned before
            exact ⟨d', h', bind_of_ok statement' returned', s₂⟩
      · simp only [some] at returned
        have size₁ := size_readStatements_lt returned
        dsimp only at size₁
        obtain ⟨c₁', h₁', some', s₁⟩ := later (by omega)
        simp only [some']
        exact readStatements_grafts s₁ start _ _ _ _ returned before
    · simp only [some] at returned
      cases returned
      obtain ⟨c₁', h₁', some', s₁⟩ := later before
      simp only [some']
      exact ⟨c₁', by omega, rfl, s₁⟩
termination_by 2 * c.size + 1

end

end Block

/-! ### Annotations and modifiers -/

namespace Annotation

variable {g : Graft} {c c' : Cursor}

private theorem atComma_blind (kept : List Token) :
    atComma (kept ++ g.bar :: g.new) = atComma (kept ++ g.bar :: g.old) := by
  cases kept <;> rfl

private theorem readPlain_grafts (s : g.At c c') :
    g.Reads (do
        let ⟨value, c₁, h₁⟩ ← Fragment.readValue c "annotation value" atComma
        return ⟨.value value.text, c₁, h₁⟩ : Reading AnnotationArgument c)
      (do
        let ⟨value, c₁, h₁⟩ ← Fragment.readValue c' "annotation value" atComma
        return ⟨.value value.text, c₁, h₁⟩ : Reading AnnotationArgument c') := by
  intro v d h returned before
  obtain ⟨⟨value, c₁, h₁⟩, valueRead, finished⟩ := bind_eq_ok returned
  cases finished
  obtain ⟨c₁', h₁', valueRead', s₁⟩ := Fragment.readValue_grafts s _ atComma_blind valueRead before
  exact ⟨c₁', h₁', bind_of_ok valueRead' rfl, s₁⟩

/-- An argument that starts with the bar is not named, whatever follows. -/
private theorem readArgument_opening (last : Option Token) (rest : List Token) :
    readArgument ⟨last, g.bar :: rest⟩ = (do
      let ⟨value, c₁, h₁⟩ ←
        Fragment.readValue ⟨last, g.bar :: rest⟩ "annotation value" atComma
      return ⟨.value value.text, c₁, h₁⟩) := by
  have notNamed (sign : Token) : ¬(g.bar.kind = .identifier ∧ sign.kind = .assign) := by
    simp [g.bar_kind_ne (show Kind.identifier.bars = false from rfl)]
  cases rest with
  | nil => rfl
  | cons sign rest => simp only [readArgument, if_neg (notNamed sign)]

theorem readArgument_grafts (s : g.At c c') : g.Reads (readArgument c) (readArgument c') := by
  intro v d h returned before
  have plain := readPlain_grafts s
  obtain ⟨last, tokens⟩ := c
  obtain ⟨last', tokens'⟩ := c'
  obtain ⟨key, rest, rest', rfl, rfl, later | ⟨rfl, rfl, rfl⟩⟩ := s.cases_ahead
  · obtain ⟨sign, more, more', rfl, rfl, behind⟩ := later.cases_ahead
    simp only [readArgument] at returned ⊢
    split at returned
    next named =>
      rw [if_pos named]
      obtain ⟨⟨value, c₁, h₁⟩, valueRead, finished⟩ := bind_eq_ok returned
      cases finished
      have notBar : sign ≠ g.bar := by
        rintro rfl
        exact g.bar_kind_ne (show Kind.assign.bars = false from rfl) named.2
      obtain behind | ⟨same, -⟩ := behind
      · obtain ⟨c₁', h₁', valueRead', s₁⟩ :=
          Fragment.readValue_grafts behind _ atComma_blind valueRead before
        refine ⟨c₁', by simp only [Cursor.size, List.length_cons] at h₁' ⊢; omega, ?_, s₁⟩
        exact bind_of_ok valueRead' rfl
      · exact absurd same notBar
    next notNamed =>
      rw [if_neg notNamed]
      exact plain returned before
  · rw [readArgument_opening] at returned ⊢
    exact plain returned before

theorem readArguments_grafts (s : g.At c c') : g.Reads (readArguments c) (readArguments c') := by
  intro v d h returned before
  obtain ⟨⟨arguments, c₁, h₁⟩, listed, returned⟩ := bind_eq_ok returned
  obtain ⟨⟨closing, c₂, h₂⟩, closed, finished⟩ := bind_eq_ok returned
  cases finished
  obtain ⟨c₁', h₁', listed', s₁⟩ :=
    s.items [] (fun found => found) (fun _ _ _ _ s => readArgument_grafts s) listed (by omega)
  obtain ⟨c₂', h₂', closed', s₂⟩ := s₁.expect _ _ closed before
  exact ⟨c₂', by omega, bind_of_ok listed' (bind_of_ok closed' rfl), s₂⟩

theorem read_grafts (s : g.At c c') : g.Reads (read c) (read c') := by
  intro v d h returned before
  obtain ⟨⟨sign, c₁, h₁⟩, opened, returned⟩ := bind_eq_ok returned
  obtain ⟨⟨name, c₂, h₂⟩, named, returned⟩ := bind_eq_ok returned
  obtain ⟨⟨arguments, c₃, h₃⟩, listed, finished⟩ := bind_eq_ok returned
  cases finished
  obtain ⟨c₁', h₁', opened', s₁⟩ := s.expect _ _ opened (by omega)
  obtain ⟨c₂', h₂', named', s₂⟩ := s₁.dottedName named (by omega)
  obtain ⟨c₃', h₃', listed', s₃⟩ :=
    s₂.clause (fun _ _ _ _ s => readArguments_grafts s) listed before
  refine ⟨c₃', by omega, ?_, s₃⟩
  rw [← s.location_eq, ← s₃.lastStop_eq]
  exact bind_of_ok opened' (bind_of_ok named' (bind_of_ok listed' rfl))

theorem comesNext_graft (s : g.At c c') : comesNext c' = comesNext c := by
  rw [comesNext, comesNext, s.sees_one, s.sees_two .atSign _ rfl]

theorem size_passFrom_le {origin c : Cursor} {within : c.size ≤ origin.size} {r : Reached origin Unit}
    (returned : passFrom origin c within = .ok r) : r.cursor.size ≤ c.size := by
  obtain ⟨taken, passes, -⟩ := passFrom_eq_ok returned
  have size := passes.size_eq
  omega

theorem passFrom_grafts {origin origin' c c' : Cursor} (s : g.At c c') (within : c.size ≤ origin.size)
    (within' : c'.size ≤ origin'.size) :
    g.Passes (passFrom origin c within) (passFrom origin' c' within') := by
  intro v d h returned before
  rw [passFrom] at returned ⊢
  rw [comesNext_graft s]
  split at returned
  next next_ =>
    obtain ⟨⟨found, c₁, h₁⟩, read, returned⟩ := bind_eq_ok returned
    have size₁ := size_passFrom_le returned
    dsimp only at size₁
    obtain ⟨c₁', h₁', read', s₁⟩ := read_grafts s read (by omega)
    obtain ⟨d', h', returned', s₂⟩ :=
      passFrom_grafts s₁ _ (Cursor.le_of_lt (Cursor.lt_of_le_lt within' h₁')) returned before
    rw [if_pos next_]
    exact ⟨d', h', bind_of_ok read' returned', s₂⟩
  next noNext =>
    cases returned
    rw [if_neg noNext]
    exact ⟨c', within', rfl, s⟩
termination_by c.size

theorem pass_grafts (s : g.At c c') : g.Passes (pass c) (pass c') :=
  passFrom_grafts s c.size_le c'.size_le

end Annotation

namespace Qualifiers

variable {g : Graft} {c c' : Cursor}

/-- Whether the words `non-sealed` come next is seen before the bar. -/
theorem afterNonSealed?_graft (s : g.At c c') :
    (afterNonSealed? c.ahead = none ∧ afterNonSealed? c'.ahead = none) ∨
    ∃ t rest, afterNonSealed? c.ahead = some (t, rest) ∧ (g.behind < rest.length →
      ∃ rest', afterNonSealed? c'.ahead = some (t, rest') ∧ g.At ⟨some t, rest⟩ ⟨some t, rest'⟩) := by
  -- None of the three tokens is the bar, so all of them stand before it.
  have notNon (kept rest : List Token) (few : kept.length < 3) :
      afterNonSealed? (kept ++ g.bar :: rest) = none := by
    unfold afterNonSealed?
    split
    next t₁ t₂ t₃ others ahead =>
      rw [if_neg]
      rintro ⟨kind₁, -, kind₂, kind₃, -⟩
      have noWord := g.bar_kind_ne (show Kind.identifier.bars = false from rfl)
      match kept with
      | [] =>
        obtain ⟨rfl, -⟩ := List.cons.inj ahead
        exact noWord kind₁
      | [_] =>
        obtain ⟨-, rfl, -⟩ : _ ∧ g.bar = t₂ ∧ _ := by simpa using ahead
        exact g.bar_kind_ne (show Kind.operator.bars = false from rfl) kind₂
      | [_, _] =>
        obtain ⟨-, -, rfl, -⟩ : _ ∧ _ ∧ g.bar = t₃ ∧ _ := by simpa using ahead
        exact noWord kind₃
      | _ :: _ :: _ :: _ =>
        simp only [List.length_cons] at few
        omega
    next => rfl
  obtain ⟨kept, ahead, ahead'⟩ := s.ahead
  rw [ahead, ahead']
  match kept with
  | [] => exact .inl ⟨notNon [] _ (by simp), notNon [] _ (by simp)⟩
  | [t₁] => exact .inl ⟨notNon [t₁] _ (by simp), notNon [t₁] _ (by simp)⟩
  | [t₁, t₂] => exact .inl ⟨notNon [t₁, t₂] _ (by simp), notNon [t₁, t₂] _ (by simp)⟩
  | t₁ :: t₂ :: t₃ :: kept =>
    simp only [List.cons_append, afterNonSealed?]
    split
    next => exact .inr ⟨t₃, _, rfl, fun _ => ⟨_, rfl, rfl, kept, rfl, rfl⟩⟩
    next => exact .inl ⟨rfl, rfl⟩

theorem passSealed?_graft (s : g.At c c') :
    (passSealed? c = none ∧ passSealed? c' = none) ∨
    ∃ t d h, passSealed? c = some ⟨t, d, h⟩ ∧ (g.behind < d.size →
      ∃ d' h', passSealed? c' = some ⟨t, d', h'⟩ ∧ g.At d d') := by
  rcases s.acceptWord? "sealed" with ⟨none, none'⟩ | ⟨t, d, h, some, later⟩
  · rcases afterNonSealed?_graft s with ⟨absent, absent'⟩ | ⟨t, rest, found, later⟩
    · exact .inl ⟨passSealed?_of_none none absent, passSealed?_of_none none' absent'⟩
    · obtain ⟨h, passed⟩ := passSealed?_of_some none found
      refine .inr ⟨t, _, h, passed, fun before => ?_⟩
      obtain ⟨rest', found', s'⟩ := later before
      obtain ⟨h', passed'⟩ := passSealed?_of_some none' found'
      exact ⟨_, h', passed', s'⟩
  · refine .inr ⟨t, d, h, by rw [passSealed?, some], fun before => ?_⟩
    obtain ⟨d', h', some', s'⟩ := later before
    exact ⟨d', h', by rw [passSealed?, some'], s'⟩

theorem modifier?_graft (s : g.At c c') :
    (modifier? c = none ∧ modifier? c' = none) ∨
    ∃ m d h, modifier? c = some ⟨m, d, h⟩ ∧ (g.behind < d.size →
      ∃ d' h', modifier? c' = some ⟨m, d', h'⟩ ∧ g.At d d') := by
  obtain ⟨last, tokens⟩ := c
  obtain ⟨last', tokens'⟩ := c'
  obtain ⟨t, rest, rest', rfl, rfl, later⟩ := s.cases_ahead
  simp only [modifier?]
  split
  next m kind =>
    refine .inr ⟨m, ⟨some t, rest⟩, Cursor.size_tail_lt .., rfl, fun before => ?_⟩
    obtain later | ⟨rfl, -⟩ := later
    · exact ⟨⟨some t, rest'⟩, Cursor.size_tail_lt .., rfl, later⟩
    · have bars := g.bars
      rw [kind] at bars
      cases bars
  next => exact .inl ⟨rfl, rfl⟩

theorem size_readFrom_le {origin c : Cursor} {within : c.size ≤ origin.size} {modifiers : ModifierSet}
    {annotations : List Annotation} {r : Reached origin Qualifiers}
    (returned : readFrom origin c within modifiers annotations = .ok r) : r.cursor.size ≤ c.size := by
  obtain ⟨taken, passes, -⟩ := readFrom_eq_ok returned
  have size := passes.size_eq
  omega

theorem readFrom_grafts {origin origin' c c' : Cursor} (s : g.At c c') (within : c.size ≤ origin.size)
    (within' : c'.size ≤ origin'.size) (modifiers : ModifierSet) (annotations : List Annotation) :
    g.Passes (readFrom origin c within modifiers annotations)
      (readFrom origin' c' within' modifiers annotations) := by
  intro v d h returned before
  rw [readFrom] at returned ⊢
  have alike := Annotation.comesNext_graft s
  rw [alike]
  split at returned
  next next_ =>
    rw [if_pos next_]
    obtain ⟨⟨found, c₁, h₁⟩, read, returned⟩ := bind_eq_ok returned
    have size₁ := size_readFrom_le returned
    dsimp only at size₁
    obtain ⟨c₁', h₁', read', s₁⟩ := Annotation.read_grafts s read (by omega)
    obtain ⟨d', h', returned', s₂⟩ := readFrom_grafts s₁ _
      (Cursor.le_of_lt (Cursor.lt_of_le_lt within' h₁')) _ _ returned before
    exact ⟨d', h', bind_of_ok read' returned', s₂⟩
  next noNext =>
    rw [if_neg noNext]
    rcases modifier?_graft s with ⟨none, none'⟩ | ⟨m, c₁, h₁, some, later⟩
    · simp only [none, none'] at returned ⊢
      rcases passSealed?_graft s with ⟨none, none'⟩ | ⟨t, c₁, h₁, some, later⟩
      · simp only [none, none'] at returned ⊢
        cases returned
        exact ⟨c', within', rfl, s⟩
      · simp only [some] at returned
        have size₁ := size_readFrom_le returned
        obtain ⟨c₁', h₁', some', s₁⟩ := later (Nat.lt_of_lt_of_le before size₁)
        simp only [some']
        exact readFrom_grafts s₁ _ _ _ _ returned before
    · simp only [some] at returned
      have size₁ := size_readFrom_le returned
      obtain ⟨c₁', h₁', some', s₁⟩ := later (Nat.lt_of_lt_of_le before size₁)
      simp only [some']
      exact readFrom_grafts s₁ _ _ _ _ returned before
termination_by c.size

theorem read_grafts (s : g.At c c') : g.Passes (read c) (read c') :=
  readFrom_grafts s c.size_le c'.size_le _ _

end Qualifiers

/-! ### Types -/

namespace TypeRef

variable {g : Graft}

theorem Dimensioned.grafts {c c' d : Cursor} {k : Nat} (pairs : Dimensioned c k d)
    (s : g.At c c') (before : g.behind < d.size) : ∃ d', Dimensioned c' k d' ∧ g.At d d' := by
  induction pairs generalizing c' with
  | ended annotated missing =>
    obtain ⟨d', h', annotated', s'⟩ := Annotation.pass_grafts s annotated before
    exact ⟨d', .ended annotated' (s'.acceptPair?_none rfl missing), s'⟩
  | pair annotated found later ih =>
    have size := later.size_le
    obtain ⟨c₁', h₁', annotated', s₁⟩ := Annotation.pass_grafts s annotated (by omega)
    obtain ⟨c₂', h₂', found', s₂⟩ := s₁.acceptPair?_some rfl found (by omega)
    obtain ⟨d', later', s'⟩ := ih s₂ before
    exact ⟨d', .pair annotated' found' later', s'⟩

theorem primitive?_graft {c c' : Cursor} (s : g.At c c') :
    (primitive? c = none ∧ primitive? c' = none) ∨
    ∃ t d h, primitive? c = some ⟨t, d, h⟩ ∧ (g.behind < d.size →
      ∃ d' h', primitive? c' = some ⟨t, d', h'⟩ ∧ g.At d d') := by
  obtain ⟨last, tokens⟩ := c
  obtain ⟨last', tokens'⟩ := c'
  obtain ⟨t, rest, rest', rfl, rfl, later⟩ := s.cases_ahead
  simp only [primitive?]
  split
  next p kind =>
    refine .inr ⟨t, ⟨some t, rest⟩, Cursor.size_tail_lt .., rfl, fun before => ?_⟩
    obtain later | ⟨rfl, -⟩ := later
    · exact ⟨⟨some t, rest'⟩, Cursor.size_tail_lt .., rfl, later⟩
    · have bars := g.bars
      rw [kind] at bars
      cases bars
  next => exact .inl ⟨rfl, rfl⟩

end TypeRef

mutual

theorem TypeRef.read_grafts {g : Graft} {c c' : Cursor} (s : g.At c c') :
    g.Reads (TypeRef.read c) (TypeRef.read c') := by
  intro v d h returned before
  obtain ⟨c₁, h₁, base, c₂, k, annotated, based, pairs, rfl⟩ :=
    TypeRef.read_eq_ok_iff.mp ⟨h, returned⟩
  have size₁ := based.size_lt
  have size₂ := pairs.size_le
  obtain ⟨c₁', h₁', annotated', s₁⟩ := Annotation.pass_grafts s annotated (by omega)
  obtain ⟨c₂', based', s₂⟩ := TypeRef.Base.grafts based s₁ (by omega)
  obtain ⟨d', pairs', s₃⟩ := pairs.grafts s₂ before
  obtain ⟨h', returned'⟩ := TypeRef.read_eq_ok_iff.mpr
    ⟨c₁', h₁', base, c₂', k, annotated', based', pairs', rfl⟩
  rw [s₁.location_eq, s₃.lastStop_eq] at returned'
  exact ⟨d', h', returned', s₃⟩
termination_by 5 * c.size + 3

theorem TypeRef.Base.grafts {g : Graft} {c c' d : Cursor} {t : TypeRef} (base : TypeRef.Base c t d)
    (s : g.At c c') (before : g.behind < d.size) : ∃ d', TypeRef.Base c' t d' ∧ g.At d d' := by
  cases base with
  | primitive found =>
    rcases TypeRef.primitive?_graft s with ⟨none, -⟩ | ⟨t, d, h, some, later⟩
    · simp [none] at found
    · obtain ⟨rfl, rfl⟩ := Consumed.mk.inj (Option.some.inj (some.symm.trans found))
      obtain ⟨d', h', found', s'⟩ := later before
      exact ⟨d', .primitive found', s'⟩
  | name notPrimitive found parts =>
    have size := parts.size_le
    have notPrimitive' : TypeRef.primitive? c' = none := by
      rcases TypeRef.primitive?_graft s with ⟨-, none'⟩ | ⟨t, d, h, some, -⟩
      · exact none'
      · simp [some] at notPrimitive
    obtain ⟨c₁', h₁', found', s₁⟩ := s.accept?_some found (by omega)
    obtain ⟨d', parts', s'⟩ := TypeRef.Parts.grafts parts s₁ before
    exact ⟨d', .name notPrimitive' found' (s.location_eq ▸ parts'), s'⟩
termination_by 5 * c.size + 2

theorem TypeRef.Parts.grafts {g : Graft} {start : Location} {c c' d : Cursor} {name : String}
    {enclosing : Option TypeRef} {t : TypeRef} (parts : TypeRef.Parts start c name enclosing t d)
    (s : g.At c c') (before : g.behind < d.size) :
    ∃ d', TypeRef.Parts start c' name enclosing t d' ∧ g.At d d' := by
  cases parts with
  | last optional missing =>
    obtain ⟨d', optional', s'⟩ := TypeArgument.Optional.grafts optional s before
    rw [← s'.lastStop_eq]
    exact ⟨d', .last optional' (s'.acceptPair?_none rfl missing), s'⟩
  | longer optional found later =>
    have size₁ := optional.size_le
    have size₂ := later.size_le
    obtain ⟨c₁', optional', s₁⟩ := TypeArgument.Optional.grafts optional s (by omega)
    obtain ⟨c₂', h₂', found', s₂⟩ := s₁.acceptPair?_some rfl found (by omega)
    obtain ⟨d', later', s'⟩ := TypeRef.Parts.grafts later s₂ before
    exact ⟨d', .longer optional' found' later', s'⟩
  | member optional some found later =>
    have size₁ := optional.size_le
    have size₂ := later.size_le
    obtain ⟨c₁', optional', s₁⟩ := TypeArgument.Optional.grafts optional s (by omega)
    obtain ⟨c₂', h₂', found', s₂⟩ := s₁.acceptPair?_some rfl found (by omega)
    obtain ⟨d', later', s'⟩ := TypeRef.Parts.grafts later s₂ before
    rw [← s₁.lastStop_eq] at later'
    exact ⟨d', .member optional' some found' later', s'⟩
termination_by 5 * c.size + 2

theorem TypeArgument.Optional.grafts {g : Graft} {c c' d : Cursor} {arguments : List TypeArgument}
    (optional : TypeArgument.Optional c arguments d) (s : g.At c c') (before : g.behind < d.size) :
    ∃ d', TypeArgument.Optional c' arguments d' ∧ g.At d d' := by
  cases optional with
  | absent notOpen => exact ⟨c', .absent (by rw [s.sees_one, notOpen]), s⟩
  | listed opens read =>
    obtain ⟨d', h', read', s'⟩ := TypeArgument.readAll_grafts s read before
    exact ⟨d', .listed (by rw [s.sees_one, opens]) read', s'⟩
termination_by 5 * c.size + 1

theorem TypeArgument.readAll_grafts {g : Graft} {c c' : Cursor} (s : g.At c c') :
    g.Reads (TypeArgument.readAll c) (TypeArgument.readAll c') := by
  intro v d h returned before
  have grafts : ∃ d', TypeArgument.Bracketed c' v d' ∧ g.At d d' := by
    cases TypeArgument.readAll_eq_ok_iff.mp ⟨h, returned⟩ with
    | empty opened found =>
      obtain ⟨c₁', h₁', opened', s₁⟩ := s.expect _ _ opened (by omega)
      obtain ⟨d', h', found', s'⟩ := s₁.accept?_some found before
      exact ⟨d', .empty opened' found', s'⟩
    | listed opened notClosed listed closed =>
      obtain ⟨c₁', h₁', opened', s₁⟩ := s.expect _ _ opened (by omega)
      obtain ⟨c₂', h₂', listed', s₂⟩ := s₁.sepByTail
        (fun _ _ _ _ _ s => TypeArgument.read_grafts s) _ listed (by omega)
      obtain ⟨d', h', closed', s'⟩ := s₂.expect _ _ closed before
      exact ⟨d', .listed opened' (s₁.accept?_none notClosed) listed' closed', s'⟩
  obtain ⟨d', bracketed, s'⟩ := grafts
  obtain ⟨h', returned'⟩ := TypeArgument.readAll_eq_ok_iff.mpr bracketed
  exact ⟨d', h', returned', s'⟩
termination_by 5 * c.size

theorem TypeArgument.read_grafts {g : Graft} {c c' : Cursor} (s : g.At c c') :
    g.Reads (TypeArgument.read c) (TypeArgument.read c') := by
  intro v d h returned before
  obtain ⟨c₁, h₁, annotated, form⟩ := TypeArgument.read_eq_ok_iff.mp ⟨h, returned⟩
  have size := form.size_lt
  obtain ⟨c₁', h₁', annotated', s₁⟩ := Annotation.pass_grafts s annotated (by omega)
  have grafts : ∃ d', TypeArgument.Form c₁' v d' ∧ g.At d d' := by
    cases form with
    | wildcard found notUpper notLower =>
      obtain ⟨d', h', found', s'⟩ := s₁.accept?_some found before
      rw [← s₁.location_eq, ← s'.lastStop_eq]
      exact ⟨d', .wildcard found' (s'.accept?_none notUpper) (s'.accept?_none notLower), s'⟩
    | bounded found word read =>
      obtain ⟨c₂', h₂', found', s₂⟩ := s₁.accept?_some found (by omega)
      obtain ⟨c₃', h₃', word', s₃⟩ := s₂.accept?_some word (by omega)
      obtain ⟨d', h', read', s'⟩ := TypeRef.read_grafts s₃ read before
      rw [← s₁.location_eq, ← s'.lastStop_eq]
      exact ⟨d', .bounded found' word' read', s'⟩
    | type notQuestion read =>
      obtain ⟨d', h', read', s'⟩ := TypeRef.read_grafts s₁ read before
      exact ⟨d', .type (s₁.accept?_none notQuestion) read', s'⟩
  obtain ⟨d', form', s'⟩ := grafts
  obtain ⟨h', returned'⟩ := TypeArgument.read_eq_ok_iff.mpr ⟨c₁', h₁', annotated', form'⟩
  exact ⟨d', h', returned', s'⟩
termination_by 5 * c.size + 4

end

end TestDouble
