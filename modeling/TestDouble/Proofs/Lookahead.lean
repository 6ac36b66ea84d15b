import TestDouble.Proofs.Exchange

/-!
# How far readers look ahead

A reader decides what to do by the next three tokens at most, and a scan over raw text by what it
passes and the next three. So what is read before a place, and an error that is met there, are the
same whatever stands behind the next two tokens.

A reading is compared with a family of others at once, each of which shares the tokens up to some
place of its own. A member of the family counts only as long as the reading is not beyond that place.
For each reader there is one such statement; it also says that the reading moves on, and that it
fails, if it does, at a token ahead.
-/

namespace TestDouble

/-- Two lists are alike up to the token that `b` others follow in the first of them, but for the
texts skipped between tokens. The two tokens behind it have the same kinds and texts, or are missing
from both lists. -/
inductive Token.Shared (b : Nat) : List Token → List Token → Prop where
  | last {t t' : Token} {ts ts' : List Token} : t.lexeme = t'.lexeme → t.location = t'.location →
      ts.length = b → (ts.take 2).map lexeme = (ts'.take 2).map lexeme → Shared b (t :: ts) (t' :: ts')
  | cons {t t' : Token} {ts ts' : List Token} : t.lexeme = t'.lexeme → t.location = t'.location →
      Shared b ts ts' → Shared b (t :: ts) (t' :: ts')

namespace Token.Shared

variable {b : Nat} {ts ts' : List Token}

theorem lt_length (s : Shared b ts ts') : b < ts.length := by
  induction s with
  | last _ _ length => rw [List.length_cons, length]; exact Nat.lt_succ_self b
  | cons _ _ _ ih => exact Nat.lt_succ_of_lt ih

/-- Three tokens are alike: the next one and those a decision may look at. -/
theorem lexemes (s : Shared b ts ts') : (ts.take 3).map lexeme = (ts'.take 3).map lexeme := by
  induction s with
  | last same _ _ behind => simp only [List.take_succ_cons, List.map_cons, same, behind]
  | cons same _ _ ih =>
    have two := congrArg (List.take 2) ih
    simp only [← List.map_take, List.take_take] at two
    simp only [List.take_succ_cons, List.map_cons, same]
    exact congrArg _ two

/-- What is left behind the next token is shared as well, if it still reaches up to the place. -/
theorem uncons (s : Shared b ts ts') :
    ∃ t rest t' rest', ts = t :: rest ∧ ts' = t' :: rest' ∧ t.lexeme = t'.lexeme ∧
      t.location = t'.location ∧ (b < rest.length → Shared b rest rest') := by
  cases s with
  | last same place length _ =>
    exact ⟨_, _, _, _, rfl, rfl, same, place, fun within => absurd length (Nat.ne_of_gt within)⟩
  | cons same place later => exact ⟨_, _, _, _, rfl, rfl, same, place, fun _ => later⟩

theorem drop (s : Shared b ts ts') (n : Nat) (within : b < (ts.drop n).length) :
    Shared b (ts.drop n) (ts'.drop n) := by
  induction n generalizing ts ts' with
  | zero => exact s
  | succ n ih =>
    obtain ⟨t, rest, t', rest', rfl, rfl, -, -, later⟩ := s.uncons
    rw [List.drop_succ_cons] at within ⊢
    exact ih (later (by rw [List.length_drop] at within; omega)) within

end Token.Shared

/-- Each of the other cursors shares the tokens ahead up to a place of its own. -/
def Cursor.Shares {ι : Type} (b : ι → Nat) (c : Cursor) (c' : ι → Cursor) : Prop :=
  ∀ i, Token.Shared (b i) c.ahead (c' i).ahead

/-- Values of which nothing is asked. -/
def Any {α : Type} (_ _ : α) : Prop := True

/-- What a reading ends with: a value and a cursor. -/
class Landing (ρ : Type) (α : outParam Type) where
  value : ρ → α
  cursor : ρ → Cursor

instance {origin : Cursor} {α : Type} : Landing (Consumed origin α) α :=
  ⟨Consumed.value, Consumed.cursor⟩

instance {origin : Cursor} {α : Type} : Landing (Reached origin α) α :=
  ⟨Reached.value, Reached.cursor⟩

instance : Landing Cursor Unit := ⟨fun _ => (), id⟩

/-- The reading from a cursor moves on from there, and if something else was expected, a token ahead
was found. Other readings do the same, with values as related, up to the places that they share. -/
structure Local {ι ρ α : Type} {ρ' : ι → Type} [Landing ρ α] [∀ i, Landing (ρ' i) α]
    (V : α → α → Prop) (c : Cursor) (b : ι → Nat) (x : Except ParseError ρ)
    (y : ∀ i, Except ParseError (ρ' i)) : Prop where
  ok : ∀ r, x = .ok r → c.Leads (Landing.cursor r) ∧
    ∀ i, b i < (Landing.cursor r).size → ∃ s, y i = .ok s ∧
      V (Landing.value r) (Landing.value s) ∧
      Token.Shared (b i) (Landing.cursor r).ahead (Landing.cursor s).ahead
  error : ∀ e what found, x = .error e → e.cause = .unexpectedToken what found →
    ∃ d t rest, c.Leads d ∧ d.ahead = t :: rest ∧ t.text = found ∧ e.location = t.location ∧
      ∀ i, b i < d.size → y i = .error e

namespace Local

variable {ι ρ σ α β : Type} {ρ' σ' : ι → Type} [Landing ρ α] [∀ i, Landing (ρ' i) α] [Landing σ β]
  [∀ i, Landing (σ' i) β] {V : α → α → Prop} {W : β → β → Prop} {c d : Cursor} {b : ι → Nat}
  {x : Except ParseError ρ} {y : ∀ i, Except ParseError (ρ' i)}

/-- A reading that starts further on. -/
theorem lead (leads : c.Leads d) (rest : Local V d b x y) : Local V c b x y where
  ok r returned := by
    obtain ⟨onward, others⟩ := rest.ok r returned
    exact ⟨leads.trans onward, others⟩
  error e what found failed cause := by
    obtain ⟨d, t, more, onward, rest⟩ := rest.error e what found failed cause
    exact ⟨d, t, more, leads.trans onward, rest⟩

/-- Behind some tokens, only those others count that share what comes next. -/
theorem behind {d' : ι → Cursor} (leads : c.Leads d)
    (near : ∀ i, b i < d.size → Token.Shared (b i) d.ahead (d' i).ahead)
    (rest : ∀ {κ : Type} (k : κ → ι), d.Shares (fun j => b (k j)) (fun j => d' (k j)) →
      Local V d (fun j => b (k j)) x (fun j => y (k j))) : Local V c b x y := by
  -- The family is cut down to those that share what comes next.
  have inner := rest (fun j : {i // b i < d.size} => j.1) fun j => near j.1 j.2
  refine (Local.mk ?_ ?_ : Local V d b x y).lead leads
  · intro r returned
    obtain ⟨onward, others⟩ := inner.ok r returned
    exact ⟨onward, fun i within => others ⟨i, Nat.lt_of_lt_of_le within onward.size_le⟩ within⟩
  · intro e what found failed cause
    obtain ⟨d₁, t, more, onward, ahead, text, place, others⟩ := inner.error e what found failed cause
    refine ⟨d₁, t, more, onward, ahead, text, place, fun i within => ?_⟩
    exact others ⟨i, Nat.lt_of_lt_of_le within onward.size_le⟩ within

/-- What is read on behind a reading: the others that count are those that got as far. -/
theorem bind {f : ρ → Except ParseError σ} {g : ∀ i, ρ' i → Except ParseError (σ' i)}
    (first : Local V c b x y)
    (rest : ∀ (r : ρ) {κ : Type} (k : κ → ι) (s : ∀ j, ρ' (k j)),
      (∀ j, V (Landing.value r) (Landing.value (s j))) →
      (Landing.cursor r).Shares (fun j => b (k j)) (fun j => Landing.cursor (s j)) →
      Local W (Landing.cursor r) (fun j => b (k j)) (f r) (fun j => g (k j) (s j))) :
    Local W c b (x >>= f) (fun i => y i >>= g i) := by
  cases x with
  | error e =>
    refine ⟨nofun, fun e' what found failed cause => ?_⟩
    obtain rfl := Except.error.inj failed
    obtain ⟨d, t, more, leads, ahead, text, place, others⟩ := first.error e what found rfl cause
    refine ⟨d, t, more, leads, ahead, text, place, fun i within => ?_⟩
    exact bind_of_error (others i within)
  | ok r =>
    obtain ⟨leads, others⟩ := first.ok r rfl
    -- Those that got as far as this reading, each with what it ended with.
    choose s returned same shared using others
    have inner := rest r (fun j : {i // b i < (Landing.cursor r).size} => j.1)
      (fun j => s j.1 j.2) (fun j => same j.1 j.2) fun j => shared j.1 j.2
    refine (Local.mk ?_ ?_ : Local W (Landing.cursor r) b _ _).lead leads
    · intro r₁ ended
      obtain ⟨onward, others⟩ := inner.ok r₁ ended
      refine ⟨onward, fun i within => ?_⟩
      -- What is still in sight at the end was in sight before.
      have before := Nat.lt_of_lt_of_le within onward.size_le
      obtain ⟨s₁, ended', rest⟩ := others ⟨i, before⟩ within
      exact ⟨s₁, bind_of_ok (returned i before) ended', rest⟩
    · intro e what found failed cause
      obtain ⟨d, t, more, onward, ahead, text, place, others⟩ :=
        inner.error e what found failed cause
      refine ⟨d, t, more, onward, ahead, text, place, fun i within => ?_⟩
      have before := Nat.lt_of_lt_of_le within onward.size_le
      exact bind_of_ok (returned i before) (others ⟨i, before⟩ within)

/-- What is read on behind the value and the cursor that a reading ends with. -/
theorem next {o : Cursor} {o' : ι → Cursor} {x : Reading α o} {y : ∀ i, Reading α (o' i)}
    {f : Consumed o α → Except ParseError σ} {g : ∀ i, Consumed (o' i) α → Except ParseError (σ' i)}
    (first : Local V c b x y)
    (rest : ∀ (v : α) (d : Cursor) (h : d.size < o.size) {κ : Type} (k : κ → ι) (v' : κ → α)
      (d' : κ → Cursor) (h' : ∀ j, (d' j).size < (o' (k j)).size), (∀ j, V v (v' j)) →
      d.Shares (fun j => b (k j)) d' →
      Local W d (fun j => b (k j)) (f ⟨v, d, h⟩) (fun j => g (k j) ⟨v' j, d' j, h' j⟩)) :
    Local W c b (x >>= f) (fun i => y i >>= g i) :=
  first.bind fun r _ k s same shares => rest r.value r.cursor r.shorter k (fun j => (s j).value)
    (fun j => (s j).cursor) (fun j => (s j).shorter) same shares

@[inherit_doc Local.next]
theorem nextReached {o : Cursor} {o' : ι → Cursor} {x : Passing α o} {y : ∀ i, Passing α (o' i)}
    {f : Reached o α → Except ParseError σ} {g : ∀ i, Reached (o' i) α → Except ParseError (σ' i)}
    (first : Local V c b x y)
    (rest : ∀ (v : α) (d : Cursor) (h : d.size ≤ o.size) {κ : Type} (k : κ → ι) (v' : κ → α)
      (d' : κ → Cursor) (h' : ∀ j, (d' j).size ≤ (o' (k j)).size), (∀ j, V v (v' j)) →
      d.Shares (fun j => b (k j)) d' →
      Local W d (fun j => b (k j)) (f ⟨v, d, h⟩) (fun j => g (k j) ⟨v' j, d' j, h' j⟩)) :
    Local W c b (x >>= f) (fun i => y i >>= g i) :=
  first.bind fun r _ k s same shares => rest r.value r.cursor r.notLonger k (fun j => (s j).value)
    (fun j => (s j).cursor) (fun j => (s j).notLonger) same shares

theorem mapError (first : Local V c b x y) (context : String) :
    Local V c b (x.mapError (·.within context)) (fun i => (y i).mapError (·.within context)) where
  ok r returned := by
    obtain ⟨leads, others⟩ := first.ok r (mapError_eq_ok returned)
    refine ⟨leads, fun i within => ?_⟩
    obtain ⟨s, returned', rest⟩ := others i within
    exact ⟨s, mapError_of_ok returned', rest⟩
  error e what found failed cause := by
    cases x with
    | ok r => cases failed
    | error e₀ =>
      obtain rfl := Except.error.inj failed
      obtain ⟨d, t, more, leads, ahead, text, place, others⟩ := first.error e₀ what found rfl cause
      refine ⟨d, t, more, leads, ahead, text, place, fun i within => ?_⟩
      rw [others i within]
      rfl

/-- Nothing is said of other errors. -/
theorem other {e : ParseError} (cause : ∀ what found, e.cause ≠ .unexpectedToken what found) :
    Local V c b (.error e : Except ParseError ρ) y where
  ok := nofun
  error e' what found failed same := by
    obtain rfl := Except.error.inj failed
    exact absurd same (cause what found)

/-- The tokens end too early. -/
theorem missing {place : Location} {what : String} :
    Local V c b (.error (.located place (.unexpectedEnd what)) : Except ParseError ρ) y :=
  .other (by simp [ParseError.located])

/-- The reading ends here. -/
theorem here {r : ρ} {s : ∀ i, ρ' i} (leads : c.Leads (Landing.cursor r))
    (same : ∀ i, V (Landing.value r) (Landing.value (s i)))
    (near : ∀ i, b i < (Landing.cursor r).size →
      Token.Shared (b i) (Landing.cursor r).ahead (Landing.cursor (s i)).ahead) :
    Local V c b (.ok r) (fun i => .ok (s i)) where
  ok r' returned := by
    obtain rfl := Except.ok.inj returned
    exact ⟨leads, fun i within => ⟨s i, rfl, same i, near i within⟩⟩
  error := nofun

/-- The reading ends where it started, and nothing is asked of its value. -/
theorem done {c' : ι → Cursor} {r : ρ} {r' : ∀ i, ρ' i} (s : c.Shares b c')
    (place : Landing.cursor r = c) (places : ∀ i, Landing.cursor (r' i) = c' i) :
    Local Any c b (.ok r) (fun i => .ok (r' i)) := by
  refine .here ⟨[], ?_⟩ (fun _ => trivial) fun i _ => ?_
  · rw [place]
    exact .refl c
  · rw [place, places]
    exact s i

/-- Where a reading that cannot fail ends. -/
theorem landed {r : ρ} {s : ∀ i, ρ' i} (ended : Local V c b (.ok r) (fun i => .ok (s i))) :
    c.Leads (Landing.cursor r) ∧ ∀ i, b i < (Landing.cursor r).size →
      Token.Shared (b i) (Landing.cursor r).ahead (Landing.cursor (s i)).ahead := by
  obtain ⟨leads, others⟩ := ended.ok r rfl
  refine ⟨leads, fun i within => ?_⟩
  obtain ⟨s', same, -, near⟩ := others i within
  obtain rfl := Except.ok.inj same
  exact near

/-- Something else was expected here. -/
theorem expected {c' : ι → Cursor} (s : c.Shares b c') (what : String) :
    Local V c b (.error (c.expected what) : Except ParseError ρ)
      (fun i => (.error ((c' i).expected what) : Except ParseError (ρ' i))) where
  ok := nofun
  error e what' found failed cause := by
    obtain rfl := Except.error.inj failed
    obtain ⟨last, _ | ⟨t, rest⟩⟩ := c
    · cases cause
    · obtain ⟨-, text⟩ := ParseError.Cause.unexpectedToken.inj cause
      refine ⟨_, t, rest, .refl _, rfl, text, rfl, fun i _ => ?_⟩
      obtain ⟨u, us, t', rest', ahead, ahead', same, place, -⟩ := (s i).uncons
      obtain ⟨rfl, rfl⟩ := List.cons.inj ahead
      simp only [Cursor.expected, ahead', place, Token.text_eq_of_lexeme same]

/-- What skips some tokens is local if the others skip as many up to the place that they share. -/
theorem skip {c' : ι → Cursor} {n : Nat} (s : c.Shares b c')
    (skips : ∃ within r, x = .ok r ∧ Landing.cursor r = c.skip n within)
    (others : ∀ i, b i < c.size - n →
      ∃ within r, y i = .ok r ∧ Landing.cursor r = (c' i).skip n within) :
    Local Any c b x y := by
  obtain ⟨bound, r, rfl, place⟩ := skips
  refine ⟨fun r' same => ?_, nofun⟩
  obtain rfl := Except.ok.inj same
  rw [place]
  refine ⟨⟨_, .skip c bound⟩, fun i within => ?_⟩
  obtain ⟨_, r', returned, place'⟩ := others i (by rwa [Cursor.size_skip] at within)
  refine ⟨r', returned, trivial, ?_⟩
  rw [place']
  exact (s i).drop n within

end Local

/-! ### What comes next -/

/-- Of two cursors both take something next, up to where what is left is shared, or neither does. -/
inductive Agreed {α : Type} (V : α → α → Prop) (b : Nat) {c c' : Cursor} :
    Option (Consumed c α) → Option (Consumed c' α) → Prop where
  | none : Agreed V b none none
  | some {r : Consumed c α} {r' : Consumed c' α} : V r.value r'.value →
      (b < r.cursor.size → Token.Shared b r.cursor.ahead r'.cursor.ahead) → Agreed V b (some r) (some r')

/-- Either something is taken next from each cursor, or nothing is. -/
def Decided {ι α : Type} (V : α → α → Prop) (b : ι → Nat) {c : Cursor} {c' : ι → Cursor}
    (o : Option (Consumed c α)) (o' : ∀ i, Option (Consumed (c' i) α)) : Prop :=
  (o = none ∧ ∀ i, o' i = none) ∨
    ∃ v d h, o = some ⟨v, d, h⟩ ∧ c.Leads d ∧ ∃ (v' : ι → α) (d' : ι → Cursor)
      (h' : ∀ i, (d' i).size < (c' i).size), (∀ i, o' i = some ⟨v' i, d' i, h' i⟩) ∧
      (∀ i, V v (v' i)) ∧ ∀ i, b i < d.size → Token.Shared (b i) d.ahead (d' i).ahead

theorem Decided.of_each {ι α : Type} {V : α → α → Prop} {b : ι → Nat} {c : Cursor} {c' : ι → Cursor}
    {o : Option (Consumed c α)} {o' : ∀ i, Option (Consumed (c' i) α)}
    (leads : ∀ r, o = some r → c.Leads r.cursor) (each : ∀ i, Agreed V (b i) o (o' i)) :
    Decided V b o o' := by
  cases o with
  | none =>
    refine .inl ⟨rfl, fun i => ?_⟩
    have agreed := each i
    generalize o' i = o at agreed
    cases agreed
    rfl
  | some r =>
    have others (i : ι) : ∃ r', o' i = some r' ∧ V r.value r'.value ∧
        (b i < r.cursor.size → Token.Shared (b i) r.cursor.ahead r'.cursor.ahead) := by
      have agreed := each i
      generalize o' i = o at agreed
      cases agreed with
      | some same near => exact ⟨_, rfl, same, near⟩
    choose r' taken same near using others
    exact .inr ⟨r.value, r.cursor, r.shorter, rfl, leads r rfl, fun i => (r' i).value,
      fun i => (r' i).cursor, fun i => (r' i).shorter, taken, same, near⟩

namespace Token.Shared

variable {b : Nat} {c c' : Cursor}

/-- Two cursors with different tokens ahead would disagree on one of the next three. -/
theorem sees_eq (s : Shared b c.ahead c'.ahead) {kinds : List Kind} (short : kinds.length ≤ 3) :
    c'.sees kinds = c.sees kinds := by
  have told := congrArg (fun ls => (ls.take kinds.length).map Lexeme.kind) s.lexemes
  simp only [← List.map_take, List.take_take, List.map_map, Nat.min_eq_left short] at told
  rw [Cursor.sees, Cursor.sees]
  exact congrArg _ told.symm

theorem accept? (s : Shared b c.ahead c'.ahead) (kind : Kind) :
    Agreed (fun t t' => t.lexeme = t'.lexeme) b (c.accept? kind) (c'.accept? kind) := by
  obtain ⟨last, ahead⟩ := c
  obtain ⟨last', ahead'⟩ := c'
  obtain ⟨t, rest, t', rest', rfl, rfl, same, -, later⟩ := s.uncons
  simp only [Cursor.accept?, ← kind_eq_of_lexeme same]
  split
  next => exact .some same later
  next => exact .none

theorem acceptWord? (s : Shared b c.ahead c'.ahead) (word : String) :
    Agreed (fun t t' => t.lexeme = t'.lexeme) b (c.acceptWord? word) (c'.acceptWord? word) := by
  obtain ⟨last, ahead⟩ := c
  obtain ⟨last', ahead'⟩ := c'
  obtain ⟨t, rest, t', rest', rfl, rfl, same, -, later⟩ := s.uncons
  simp only [Cursor.acceptWord?, ← kind_eq_of_lexeme same, ← text_eq_of_lexeme same]
  split
  next => exact .some same later
  next => exact .none

/-- The second token is alike also where it stands behind the place up to which all is shared. -/
theorem acceptPair? (s : Shared b c.ahead c'.ahead) (first second : Kind) :
    Agreed (fun t t' => t.lexeme = t'.lexeme) b (c.acceptPair? first second)
      (c'.acceptPair? first second) := by
  obtain ⟨last, ahead⟩ := c
  obtain ⟨last', ahead'⟩ := c'
  obtain ⟨t, rest, t', rest', rfl, rfl, same, -, -⟩ := s.uncons
  have alike := s.lexemes
  have later := s.drop 2
  rcases rest with _ | ⟨u, rest⟩ <;> rcases rest' with _ | ⟨u', rest'⟩
  · exact .none
  · simp at alike
  · simp at alike
  · simp only [List.take_succ_cons, List.map_cons, List.cons.injEq] at alike
    obtain ⟨-, same', -⟩ := alike
    simp only [Cursor.acceptPair?, ← kind_eq_of_lexeme same, ← kind_eq_of_lexeme same']
    split
    next => exact .some same' later
    next => exact .none

end Token.Shared

namespace Cursor.Shares

variable {ι : Type} {b : ι → Nat} {c : Cursor} {c' : ι → Cursor} (s : c.Shares b c')

include s

theorem sees_eq {kinds : List Kind} (short : kinds.length ≤ 3) (i : ι) :
    (c' i).sees kinds = c.sees kinds :=
  (s i).sees_eq short

theorem sees_one (kind : Kind) (i : ι) : (c' i).sees [kind] = c.sees [kind] :=
  s.sees_eq (by simp) i

theorem sees_two (first second : Kind) (i : ι) :
    (c' i).sees [first, second] = c.sees [first, second] :=
  s.sees_eq (by simp) i

theorem isEmpty_eq (i : ι) : (c' i).ahead.isEmpty = c.ahead.isEmpty := by
  obtain ⟨t, rest, t', rest', ahead, ahead', -⟩ := (s i).uncons
  rw [ahead, ahead']
  rfl

theorem seesWord_eq (word : String) (i : ι) : (c' i).seesWord word = c.seesWord word := by
  obtain ⟨t, rest, t', rest', ahead, ahead', same, -⟩ := (s i).uncons
  simp only [seesWord, ahead, ahead', Token.kind_eq_of_lexeme same, Token.text_eq_of_lexeme same]

theorem accept? (kind : Kind) :
    Decided (fun t t' => t.lexeme = t'.lexeme) b (c.accept? kind) (fun i => (c' i).accept? kind) :=
  .of_each (fun _ found => ⟨_, (accept?_eq_some found).1⟩) fun i => (s i).accept? kind

theorem acceptWord? (word : String) :
    Decided (fun t t' => t.lexeme = t'.lexeme) b (c.acceptWord? word)
      (fun i => (c' i).acceptWord? word) :=
  .of_each (fun _ found => ⟨_, (acceptWord?_eq_some found).1⟩) fun i => (s i).acceptWord? word

theorem acceptPair? (first second : Kind) :
    Decided (fun t t' => t.lexeme = t'.lexeme) b (c.acceptPair? first second)
      (fun i => (c' i).acceptPair? first second) :=
  .of_each (fun _ found => let ⟨_, passes, _⟩ := acceptPair?_eq_some found; ⟨_, passes⟩)
    fun i => (s i).acceptPair? first second

/-! ### Readers that others are made of -/

theorem expect (kind : Kind) (what : String) :
    Local (fun t t' => t.lexeme = t'.lexeme) c b (c.expect kind what)
      (fun i => (c' i).expect kind what) := by
  simp only [Cursor.expect]
  rcases s.accept? kind with ⟨none, none'⟩ | ⟨t, d, h, some, leads, t', d', h', some', same, near⟩
  · simp only [none, none']
    exact .expected s what
  · simp only [some, some']
    exact .here leads same near

theorem identifier : Local Eq c b c.identifier (fun i => (c' i).identifier) := by
  refine (s.expect .identifier "identifier").next fun t d h _ k t' d' h' same s₁ => ?_
  exact .here (.refl _) (fun j => Token.text_eq_of_lexeme (same j)) fun j _ => s₁ j

end Cursor.Shares

/-- Two lists of which both have elements or neither has. -/
def SameEmpty {α : Type} (as as' : List α) : Prop := as.isEmpty = as'.isEmpty

namespace Cursor

theorem nameTail_local {ι : Type} {b : ι → Nat} {origin c : Cursor} {origin' c' : ι → Cursor}
    {within : c.size < origin.size} {within' : ∀ i, (c' i).size < (origin' i).size}
    (s : c.Shares b c') (name : String) (name' : ι → String) :
    Local Any c b (.ok (nameTail origin c within name))
      (fun i => .ok (nameTail (origin' i) (c' i) (within' i) (name' i))) := by
  unfold nameTail
  rcases s.acceptPair? .dot .identifier with ⟨none, none'⟩ |
    ⟨t, c₁, h₁, some, leads, t', c₁', h₁', some', -, near⟩
  · simp only [none, none']
    exact .done s rfl fun _ => rfl
  · simp only [some, some']
    refine .behind leads near fun k s₁ => ?_
    exact nameTail_local s₁ _ _
termination_by c.size

theorem bracketPairs_local {ι : Type} {b : ι → Nat} {origin c : Cursor} {origin' c' : ι → Cursor}
    {within : c.size ≤ origin.size} {within' : ∀ i, (c' i).size ≤ (origin' i).size}
    (s : c.Shares b c') (n : Nat) (n' : ι → Nat) :
    Local Any c b (.ok (bracketPairs origin c within n))
      (fun i => .ok (bracketPairs (origin' i) (c' i) (within' i) (n' i))) := by
  unfold bracketPairs
  rcases s.acceptPair? .leftBracket .rightBracket with ⟨none, none'⟩ |
    ⟨t, c₁, h₁, some, leads, t', c₁', h₁', some', -, near⟩
  · simp only [none, none']
    exact .done s rfl fun _ => rfl
  · simp only [some, some']
    refine .behind leads near fun k s₁ => ?_
    exact bracketPairs_local s₁ _ _
termination_by c.size

theorem sepByTail_local {ι α : Type} {V : α → α → Prop} {b : ι → Nat} {origin c : Cursor}
    {origin' c' : ι → Cursor} {separator : Kind}
    {item : (d : Cursor) → d.size ≤ origin.size → Reading α d}
    {item' : ∀ i, (d : Cursor) → d.size ≤ (origin' i).size → Reading α d}
    {within : c.size ≤ origin.size} {within' : ∀ i, (c' i).size ≤ (origin' i).size}
    (each : ∀ {κ : Type} (k : κ → ι) (d : Cursor) (d' : κ → Cursor) (h : d.size ≤ origin.size)
      (h' : ∀ j, (d' j).size ≤ (origin' (k j)).size), d.Shares (fun j => b (k j)) d' →
      Local V d (fun j => b (k j)) (item d h) (fun j => item' (k j) (d' j) (h' j)))
    (s : c.Shares b c') (read : List α) (read' : ι → List α) :
    Local SameEmpty c b (sepByTail origin separator item c within read)
      (fun i => sepByTail (origin' i) separator (item' i) (c' i) (within' i) (read' i)) := by
  unfold sepByTail
  refine (each id c c' within within' s).next fun value c₁ h₁ κ k value' c₁' h₁' _ s₁ => ?_
  dsimp only
  rcases s₁.accept? separator with ⟨none, none'⟩ |
    ⟨t, c₂, h₂, some, leads, t', c₂', h₂', some', -, near⟩
  · simp only [none, none']
    refine .here (.refl _) (fun j => ?_) fun j _ => s₁ j
    change (value :: read).reverse.isEmpty = (value' j :: read' (k j)).reverse.isEmpty
    rw [List.isEmpty_reverse, List.isEmpty_reverse]
    rfl
  · simp only [some, some']
    refine .behind leads near fun k₂ s₂ => ?_
    exact sepByTail_local (fun k₃ d d' h h' s => each (fun j => k (k₂ (k₃ j))) d d' h h' s) s₂ _ _
termination_by c.size
decreasing_by omega

namespace Shares

variable {ι α : Type} {V : α → α → Prop} {b : ι → Nat} {c : Cursor} {c' : ι → Cursor}
  (s : c.Shares b c')

include s

theorem dottedName : Local Any c b c.dottedName (fun i => (c' i).dottedName) := by
  refine s.identifier.next fun name c₁ h₁ _ k name' c₁' h₁' _ s₁ => ?_
  exact nameTail_local s₁ name name'

theorem dimensions : c.Leads c.dimensions.cursor ∧ ∀ i, b i < c.dimensions.cursor.size →
    Token.Shared (b i) c.dimensions.cursor.ahead (c' i).dimensions.cursor.ahead :=
  (bracketPairs_local s 0 fun _ => 0).landed

theorem optionally (kind : Kind) : c.Leads (c.optionally kind).cursor ∧
    ∀ i, b i < (c.optionally kind).cursor.size →
      Token.Shared (b i) (c.optionally kind).cursor.ahead ((c' i).optionally kind).cursor.ahead := by
  have taken : Local Any c b (.ok (c.optionally kind)) fun i => .ok ((c' i).optionally kind) := by
    simp only [Cursor.optionally]
    rcases s.accept? kind with ⟨none, none'⟩ | ⟨t, c₁, h₁, some, leads, t', c₁', h₁', some', -, near⟩
    · simp only [none, none']
      exact .done s rfl fun _ => rfl
    · simp only [some, some']
      exact .here leads (fun _ => trivial) near
  exact taken.landed

/-- Lists with separators are read alike when their items are. -/
theorem sepBy {separator : Kind} {item : (d : Cursor) → d.size ≤ c.size → Reading α d}
    {item' : ∀ i, (d : Cursor) → d.size ≤ (c' i).size → Reading α d}
    (each : ∀ {κ : Type} (k : κ → ι) (d : Cursor) (d' : κ → Cursor) (h : d.size ≤ c.size)
      (h' : ∀ j, (d' j).size ≤ (c' (k j)).size), d.Shares (fun j => b (k j)) d' →
      Local V d (fun j => b (k j)) (item d h) (fun j => item' (k j) (d' j) (h' j))) :
    Local SameEmpty c b (c.sepBy separator item) (fun i => (c' i).sepBy separator (item' i)) :=
  sepByTail_local each s [] fun _ => []

theorem clause {kind : Kind} {item : (d : Cursor) → d.size ≤ c.size → Reading α d}
    {item' : ∀ i, (d : Cursor) → d.size ≤ (c' i).size → Reading α d}
    (each : ∀ {κ : Type} (k : κ → ι) (d : Cursor) (d' : κ → Cursor) (h : d.size ≤ c.size)
      (h' : ∀ j, (d' j).size ≤ (c' (k j)).size), d.Shares (fun j => b (k j)) d' →
      Local V d (fun j => b (k j)) (item d h) (fun j => item' (k j) (d' j) (h' j))) :
    Local Any c b (c.clause kind item) (fun i => (c' i).clause kind (item' i)) := by
  simp only [Cursor.clause]
  rcases s.accept? kind with ⟨none, none'⟩ | ⟨t, c₁, h₁, some, leads, t', c₁', h₁', some', -, near⟩
  · simp only [none, none']
    exact .done s rfl fun _ => rfl
  · simp only [some, some']
    refine .behind leads near fun k s₁ => ?_
    refine (each k c₁ _ _ _ s₁).next fun value c₂ h₂ _ k₂ value' c₂' h₂' _ s₂ => ?_
    exact .done s₂ rfl fun _ => rfl

/-- The items before a closing bracket, of which there may be none. -/
theorem items {β : Type} (empty : β) (finish : List α → β)
    (item : (d : Cursor) → d.size ≤ c.size → Reading α d)
    (item' : ∀ i, (d : Cursor) → d.size ≤ (c' i).size → Reading α d)
    (each : ∀ {κ : Type} (k : κ → ι) (d : Cursor) (d' : κ → Cursor) (h : d.size ≤ c.size)
      (h' : ∀ j, (d' j).size ≤ (c' (k j)).size), d.Shares (fun j => b (k j)) d' →
      Local V d (fun j => b (k j)) (item d h) (fun j => item' (k j) (d' j) (h' j))) :
    Local Any c b
      (if c.sees [.rightParen] then return ⟨empty, c, c.size_le⟩
        else do
          let ⟨found, c₁, h₁⟩ ← c.sepBy .comma item
          return ⟨finish found, c₁, Cursor.le_of_lt h₁⟩ : Passing β c)
      (fun i => (if (c' i).sees [.rightParen] then return ⟨empty, c' i, (c' i).size_le⟩
        else do
          let ⟨found, c₁, h₁⟩ ← (c' i).sepBy .comma (item' i)
          return ⟨finish found, c₁, Cursor.le_of_lt h₁⟩ : Passing β (c' i))) := by
  simp only [s.sees_one]
  by_cases closed : c.sees [.rightParen] = true
  · simp only [if_pos closed]
    exact .done s rfl fun _ => rfl
  · simp only [if_neg closed]
    refine (s.sepBy each).next fun found c₁ h₁ _ k found' c₁' h₁' _ s₁ => ?_
    exact .done s₁ rfl fun _ => rfl

end Shares

end Cursor

/-! ### Raw texts and bodies -/

/-- A test that looks at three tokens at most. -/
def Token.Short (test : List Token → Bool) : Prop :=
  ∀ us us' : List Token, (us.take 3).map lexeme = (us'.take 3).map lexeme → test us = test us'

/-- A test is told by the next token and the two behind it. -/
theorem Token.Short.of_cons {test : List Token → Bool}
    (cons : ∀ {t t' : Token} {us us' : List Token}, t.lexeme = t'.lexeme →
      (us.take 2).map lexeme = (us'.take 2).map lexeme → test (t :: us) = test (t' :: us')) :
    Short test := by
  intro us us' same
  rcases us with _ | ⟨t, us⟩ <;> rcases us' with _ | ⟨t', us'⟩
  · rfl
  · simp at same
  · simp at same
  · simp only [List.take_succ_cons, List.map_cons, List.cons.injEq] at same
    exact cons same.1 same.2

namespace Fragment

variable {b : Nat} {ts ts' : List Token}

/-- Where a value ends before the place up to which all is shared, no look is taken beyond it. -/
theorem valueLength?_shared {stops : List Token → Bool} (short : Token.Short stops)
    (s : Token.Shared b ts ts') {depth n m : Nat} (found : valueLength? stops ts depth n = some m)
    (within : b + m < n + ts.length) : valueLength? stops ts' depth n = some m := by
  induction ts generalizing ts' depth n with
  | nil => cases s
  | cons t ts ih =>
    have stopsHere := short _ _ s.lexemes
    obtain ⟨_, _, t', rest', ahead, rfl, same, -, near⟩ := s.uncons
    obtain ⟨rfl, rfl⟩ := List.cons.inj ahead
    simp only [List.length_cons] at within
    -- The scan goes on behind a token only if it ends behind it, so what comes next is shared.
    have later {depth : Nat} (found : valueLength? stops ts depth (n + 1) = some m) :
        valueLength? stops rest' depth (n + 1) = some m := by
      have counted := valueLength?_ge found
      exact ih (near (by omega)) found (by omega)
    simp only [valueLength?, ← Token.kind_eq_of_lexeme same, ← stopsHere] at found ⊢
    split_ifs at found ⊢
    · exact later found
    · exact found
    · exact later found
    · exact found
    · exact later found

theorem goesOn_short (afterDo : Bool) : Token.Short (goesOn afterDo) :=
  .of_cons fun same _ => by
    simp only [goesOn, Token.kind_eq_of_lexeme same, Token.text_eq_of_lexeme same]

theorem statementLength?_shared (afterDo : Bool) (s : Token.Shared b ts ts') {depth n m : Nat}
    {ended : Bool} (found : statementLength? afterDo ts depth n = some (m, ended))
    (within : b + m < n + ts.length) : statementLength? afterDo ts' depth n = some (m, ended) := by
  induction ts generalizing ts' depth n with
  | nil => cases s
  | cons t ts ih =>
    have alike := s.lexemes
    obtain ⟨_, _, t', rest', ahead, rfl, same, -, near⟩ := s.uncons
    obtain ⟨rfl, rfl⟩ := List.cons.inj ahead
    simp only [List.length_cons] at within
    have later {depth : Nat} (found : statementLength? afterDo ts depth (n + 1) = some (m, ended)) :
        statementLength? afterDo rest' depth (n + 1) = some (m, ended) := by
      obtain ⟨k, rfl, -⟩ := statementLength?_endsWithin found
      exact ih (near (by omega)) found (by omega)
    simp only [statementLength?, ← Token.kind_eq_of_lexeme same] at found ⊢
    split at found
    · exact later found
    · exact later found
    · exact later found
    · exact later found
    · exact later found
    · -- Behind the last brace of a statement, the next token tells whether it goes on.
      by_cases outside : depth = 0
      · rw [if_pos outside] at found ⊢
        exact found
      · rw [if_neg outside] at found ⊢
        have counted : n + 1 ≤ m := by
          split at found
          · simp only [Option.some.injEq, Prod.mk.injEq] at found
            omega
          · obtain ⟨k, rfl, -⟩ := statementLength?_endsWithin found
            omega
        have goes := goesOn_short afterDo _ _ (near (by omega)).lexemes
        rw [← goes]
        split at found
        next ends =>
          rw [if_pos ends]
          exact found
        next going =>
          rw [if_neg going]
          exact later found
    · split_ifs at found ⊢
      · exact found
      · exact later found
    · exact later found

variable {ι : Type} {b : ι → Nat} {c : Cursor} {c' : ι → Cursor}

theorem readValue_local (s : c.Shares b c') (what : String) {stops : List Token → Bool}
    (short : Token.Short stops) :
    Local Any c b (readValue c what stops) (fun i => readValue (c' i) what stops) := by
  have told (i : ι) {n : Nat} (found : valueLength? stops c.ahead 0 0 = some n)
      (within : b i < c.size - n) : valueLength? stops (c' i).ahead 0 0 = some n := by
    rw [Cursor.size] at within
    exact valueLength?_shared short (s i) found (by omega)
  have skips {d : Cursor} {n : Nat} (found : valueLength? stops d.ahead 0 0 = some (n + 1)) :
      ∃ within r, readValue d what stops = .ok r ∧ r.cursor = d.skip (n + 1) within := by
    obtain ⟨within, h, read⟩ := readValue_of_succ what found
    exact ⟨within, _, read, rfl⟩
  rcases found : valueLength? stops c.ahead 0 0 with _ | _ | n
  · rw [readValue_of_none what found]
    exact .missing
  · have zero (i : ι) : readValue (c' i) what stops = .error ((c' i).expected what) :=
      readValue_of_zero what (told i found (s i).lt_length)
    simp only [readValue_of_zero what found, zero]
    exact .expected s what
  · exact .skip s (skips found) fun i within => skips (told i found within)

theorem readStatement_local (s : c.Shares b c') :
    Local Any c b (readStatement c) (fun i => readStatement (c' i)) := by
  have told (i : ι) {n : Nat} {ended : Bool}
      (found : statementLength? (c.seesWord "do") c.ahead 0 0 = some (n, ended))
      (within : b i < c.size - n) :
      statementLength? ((c' i).seesWord "do") (c' i).ahead 0 0 = some (n, ended) := by
    rw [Cursor.size] at within
    rw [s.seesWord_eq]
    exact statementLength?_shared _ (s i) found (by omega)
  have skips {d : Cursor} {n : Nat} {ended : Bool}
      (found : statementLength? (d.seesWord "do") d.ahead 0 0 = some (n + 1, ended)) :
      ∃ within r, readStatement d = .ok r ∧ r.cursor = d.skip (n + 1 + ended.toNat) within := by
    obtain ⟨_, within, h, read⟩ := readStatement_of_succ found
    exact ⟨within, _, read, rfl⟩
  rcases found : statementLength? (c.seesWord "do") c.ahead 0 0 with _ | ⟨_ | n, ended⟩
  · rw [readStatement_of_none found]
    exact .missing
  · have zero (i : ι) := readStatement_of_zero (told i found (s i).lt_length)
    simp only [readStatement_of_zero found, zero]
    exact .expected s _
  · exact .skip s (skips found) fun i within => skips (told i found (by omega))

end Fragment

end TestDouble
