import TestDouble.Proofs.BlockTokens
import TestDouble.Proofs.Declarators

/-!
# Values whose brackets are nested

Initializers and arguments of annotations end at a sign outside of all brackets. Tokens with nested
brackets, none of which is such a sign outside of them, are passed as a whole: the search for the end
of a value counts brackets without telling them apart, and within nested brackets this count is the
number of brackets that are open.
-/

namespace TestDouble

namespace Kind.Nests

variable {kind : Kind} {awaited awaited' : List Kind}

/-- The depth behind a token is the number of brackets that are open behind it. -/
theorem depthBehind (nests : Nests brackets awaited kind awaited') :
    kind.depthBehind awaited.length = awaited'.length := by
  cases nests with
  | opens found =>
    have listed := mem_of_lookup found
    simp only [brackets, List.mem_cons, Prod.mk.injEq, List.not_mem_nil, or_false] at listed
    rcases listed with ⟨rfl, -⟩ | ⟨rfl, -⟩ | ⟨rfl, -⟩ <;> rfl
  | closes notOpen closes =>
    simp only [brackets, List.map_cons, List.map_nil, List.mem_cons, List.not_mem_nil, or_false]
      at closes
    rcases closes with rfl | rfl | rfl <;> rfl
  | passes notOpen notClosed => cases kind <;> first | rfl | simp [brackets] at notOpen notClosed

/-- Where a bracket is closed, one is open. -/
theorem pos_of_closes (nests : Nests brackets awaited kind awaited') (closes : kind.closes = true) :
    0 < awaited.length := by
  have closing : kind ∈ brackets.map Prod.snd := by cases kind <;> first | decide | cases closes
  cases nests with
  | opens found =>
    have listed := mem_of_lookup found
    simp only [brackets, List.mem_cons, Prod.mk.injEq, List.not_mem_nil, or_false] at listed
    rcases listed with ⟨rfl, -⟩ | ⟨rfl, -⟩ | ⟨rfl, -⟩ <;> cases closes
  | closes => exact Nat.succ_pos _
  | passes _ notClosed => exact absurd closing notClosed

end Kind.Nests

namespace Token

variable {kinds : List Kind} {awaited : List Kind} {ts : List Token}

/-- No token of these kinds stands outside of all brackets, given the depth before the tokens. -/
def Apart (kinds : List Kind) : (depth : Nat) → List Token → Prop
  | _, [] => True
  | depth, t :: ts => (t.kind ∈ kinds → 0 < depth) ∧ Apart kinds (t.kind.depthBehind depth) ts

def decideApart (kinds : List Kind) : (depth : Nat) → (ts : List Token) →
    Decidable (Apart kinds depth ts)
  | _, [] => .isTrue trivial
  | depth, t :: ts =>
    have := decideApart kinds (t.kind.depthBehind depth) ts
    inferInstanceAs (Decidable ((t.kind ∈ kinds → 0 < depth) ∧ Apart kinds (t.kind.depthBehind depth) ts))

instance (kinds : List Kind) (depth : Nat) (ts : List Token) : Decidable (Apart kinds depth ts) :=
  decideApart kinds depth ts

/-- A value that ends at any sign of these kinds: there are tokens, their brackets are nested, and no
such sign stands outside of them. -/
structure IsValue (kinds : List Kind) (ts : List Token) : Prop where
  nonempty : ts ≠ []
  nested : Nested Kind.brackets [] ts
  apart : Apart kinds 0 ts

instance (kinds : List Kind) (ts : List Token) : Decidable (IsValue kinds ts) :=
  decidable_of_iff (ts ≠ [] ∧ Nested Kind.brackets [] ts ∧ Apart kinds 0 ts)
    ⟨fun ⟨a, b, c⟩ => ⟨a, b, c⟩, fun ⟨a, b, c⟩ => ⟨a, b, c⟩⟩

/-- Only the kinds of the tokens matter. -/
theorem Apart.of_kinds {depth : Nat} {us : List Token} (apart : Apart kinds depth ts)
    (same : us.map kind = ts.map kind) : Apart kinds depth us := by
  induction ts generalizing depth us with
  | nil =>
    obtain rfl := List.map_eq_nil_iff.mp same
    trivial
  | cons t ts ih =>
    obtain ⟨u, us, rfl, kind, others⟩ := List.map_eq_cons_iff.mp same
    obtain ⟨here, later⟩ := apart
    rw [← kind] at here later
    exact ⟨here, ih later others⟩

theorem IsValue.of_kinds {us : List Token} (value : IsValue kinds ts)
    (same : us.map kind = ts.map kind) : IsValue kinds us where
  nonempty := by
    rintro rfl
    exact value.nonempty (List.map_eq_nil_iff.mp same.symm)
  nested := by
    have nested := value.nested
    rwa [Nested, ← same] at nested
  apart := value.apart.of_kinds same

end Token

namespace Fragment

variable {stops : List Token → Bool} {kinds : List Kind} {ts rest : List Token}

/-- A token that does not end a value is passed. -/
theorem valueLength?_cons_of_depth {t : Token} {depth : Nat} (inside : t.kind.closes = true → 0 < depth)
    (goesOn : stops (t :: rest) = true → 0 < depth) (n : Nat) :
    valueLength? stops (t :: rest) depth n =
      valueLength? stops rest (t.kind.depthBehind depth) (n + 1) := by
  rw [valueLength?, Kind.depthBehind]
  by_cases opens : t.kind.opens = true
  · rw [if_pos opens, if_pos opens]
  by_cases closes : t.kind.closes = true
  · simp [opens, closes, Nat.pos_iff_ne_zero.mp (inside closes)]
  · have on : ¬(decide (depth = 0) && stops (t :: rest)) = true := by
      simp only [Bool.and_eq_true, decide_eq_true_eq]
      rintro ⟨rfl, ends⟩
      exact absurd (goesOn ends) (Nat.lt_irrefl 0)
    rw [if_neg opens, if_neg closes, if_neg on, if_neg opens, if_neg closes]

/-- Nested tokens are passed together with the brackets that are closed among them. -/
theorem valueLength?_through_nested (only : ∀ t rest, stops (t :: rest) = true → t.kind ∈ kinds)
    {awaited : List Kind} (nested : Token.Nested Kind.brackets awaited ts)
    (apart : Token.Apart kinds awaited.length ts) (rest : List Token) (n : Nat) :
    valueLength? stops (ts ++ rest) awaited.length n =
      valueLength? stops rest 0 (n + ts.length) := by
  induction ts generalizing awaited n with
  | nil =>
    obtain rfl := Token.nested_nil_iff.mp nested
    rfl
  | cons t ts ih =>
    obtain ⟨awaited', nests, later⟩ := Token.nested_cons_iff.mp nested
    obtain ⟨here, apart⟩ := apart
    rw [nests.depthBehind] at apart
    rw [List.cons_append, valueLength?_cons_of_depth nests.pos_of_closes
      fun ends => here (only _ _ ends), nests.depthBehind, ih later apart, List.length_cons]
    congr 1
    omega

/-- A value is passed up to the bracket that closes too much, or to a sign that ends it. -/
theorem valueLength?_of_isValue (only : ∀ t rest, stops (t :: rest) = true → t.kind ∈ kinds)
    (value : Token.IsValue kinds ts) {next : Token} (notOpen : next.kind.opens = false)
    (ends : next.kind.closes = true ∨ stops (next :: rest) = true) :
    valueLength? stops (ts ++ next :: rest) 0 0 = some ts.length := by
  have through := valueLength?_through_nested only value.nested value.apart (next :: rest) 0
  rw [List.length_nil, Nat.zero_add] at through
  rw [through, valueLength?]
  by_cases closes : next.kind.closes = true
  · simp [notOpen, closes]
  · simp [notOpen, closes, ends.resolve_left closes]

/-- The fragment of some tokens, if there are any. -/
def ofTokens? : List Token → Option Fragment
  | [] => none
  | first :: more => some (ofTokens first more)

/-- A value is read up to there. -/
theorem readValue_of_isValue (only : ∀ t rest, stops (t :: rest) = true → t.kind ∈ kinds)
    (value : Token.IsValue kinds ts) {c d : Cursor} (passes : c.Passes ts d) {next : Token}
    (ahead : d.ahead = next :: rest) (notOpen : next.kind.opens = false)
    (ends : next.kind.closes = true ∨ stops (next :: rest) = true) (what : String) :
    ∃ f h, readValue c what stops = .ok ⟨f, d, h⟩ ∧ some f = ofTokens? ts := by
  obtain ⟨first, more, rfl⟩ := List.exists_cons_of_ne_nil value.nonempty
  have length : valueLength? stops c.ahead 0 0 = some (more.length + 1) := by
    rw [passes.ahead, ahead]
    exact valueLength?_of_isValue only value notOpen ends
  obtain ⟨h, read⟩ := readValue_of_passes passes length what
  exact ⟨_, h, read, rfl⟩

end Fragment

end TestDouble
