import TestDouble.Proofs.BlockCuts
import TestDouble.Proofs.DeclarationGrafts

/-!
# Brackets that are properly nested

Tokens whose brackets are properly nested are passed as a whole: by the scan for the end of a
statement, which ends among them or right behind them, by the reader of blocks, which reads them up to
the brace that closes the block, and by the scan that counts braces.
-/

namespace TestDouble

/-! ### Nesting -/

namespace Kind

/-- The pairs of round brackets, square brackets and braces. -/
def brackets : List (Kind × Kind) :=
  [(.leftParen, .rightParen), (.leftBracket, .rightBracket), (.leftBrace, .rightBrace)]

/-- The pair of braces. -/
def braces : List (Kind × Kind) := [(.leftBrace, .rightBrace)]

/-- The closing brackets awaited behind a token, innermost first, or none if it closes a bracket that
is not open. -/
def nest? (pairs : List (Kind × Kind)) (awaited : List Kind) (kind : Kind) : Option (List Kind) :=
  match pairs.lookup kind with
  | some closer => some (closer :: awaited)
  | none =>
    if kind ∈ pairs.map Prod.snd then
      if awaited.head? = some kind then some awaited.tail else none
    else some awaited

/-- What a token does to the brackets that are open: it opens one, closes the innermost or is none. -/
inductive Nests (pairs : List (Kind × Kind)) : List Kind → Kind → List Kind → Prop where
  | opens {kind closer : Kind} {awaited : List Kind} :
      pairs.lookup kind = some closer → Nests pairs awaited kind (closer :: awaited)
  | closes {kind : Kind} {awaited : List Kind} :
      pairs.lookup kind = none → kind ∈ pairs.map Prod.snd → Nests pairs (kind :: awaited) kind awaited
  | passes {kind : Kind} {awaited : List Kind} :
      pairs.lookup kind = none → kind ∉ pairs.map Prod.snd → Nests pairs awaited kind awaited

variable {pairs : List (Kind × Kind)} {awaited awaited' : List Kind} {kind : Kind}

theorem nest?_eq_some_iff : nest? pairs awaited kind = some awaited' ↔ Nests pairs awaited kind awaited' := by
  constructor
  · intro nested
    rw [nest?] at nested
    split at nested
    next closer opens =>
      cases nested
      exact .opens opens
    next notOpen =>
      split at nested
      next closes =>
        split at nested
        next first =>
          cases nested
          obtain ⟨later, rfl⟩ := List.head?_eq_some_iff.mp first
          exact .closes notOpen closes
        next => cases nested
      next notClosed =>
        cases nested
        exact .passes notOpen notClosed
  · intro nests
    cases nests with
    | opens found => rw [nest?, found]
    | closes notOpen closes => simp [nest?, notOpen, closes]
    | passes notOpen notClosed => rw [nest?, notOpen, if_neg notClosed]

/-- Brackets that stay open do not matter. -/
theorem Nests.append (nests : Nests pairs awaited kind awaited') (more : List Kind) :
    Nests pairs (awaited ++ more) kind (awaited' ++ more) := by
  cases nests with
  | opens found => exact .opens found
  | closes notOpen closes => exact .closes notOpen closes
  | passes notOpen notClosed => exact .passes notOpen notClosed

theorem mem_of_lookup {closer : Kind} (found : pairs.lookup kind = some closer) :
    (kind, closer) ∈ pairs := by
  obtain ⟨before, after, rfl, -⟩ := List.lookup_eq_some_iff.mp found
  simp

theorem not_mem_of_lookup (found : pairs.lookup kind = none) : kind ∉ pairs.map Prod.fst := by
  intro member
  obtain ⟨pair, listed, rfl⟩ := List.mem_map.mp member
  simpa using List.lookup_eq_none_iff.mp found pair listed

end Kind

namespace Token

/-- Behind the tokens all brackets are closed, those included whose closing brackets are awaited
before them. -/
def Nested (pairs : List (Kind × Kind)) (awaited : List Kind) (ts : List Token) : Prop :=
  (ts.map kind).foldlM (Kind.nest? pairs) awaited = some []

instance (pairs : List (Kind × Kind)) (awaited : List Kind) (ts : List Token) :
    Decidable (Nested pairs awaited ts) :=
  inferInstanceAs (Decidable (_ = _))

variable {pairs : List (Kind × Kind)} {awaited : List Kind} {t : Token} {ts us : List Token}

theorem nested_nil_iff : Nested pairs awaited [] ↔ awaited = [] := by
  simp [Nested, pure]

theorem nested_cons_iff : Nested pairs awaited (t :: ts) ↔
    ∃ awaited', Kind.Nests pairs awaited t.kind awaited' ∧ Nested pairs awaited' ts := by
  simp only [Nested, List.map_cons, List.foldlM_cons, Option.bind_eq_bind, Option.bind_eq_some_iff,
    Kind.nest?_eq_some_iff]

theorem Nested.append (first : Nested pairs awaited ts) {more : List Kind}
    (later : Nested pairs more us) : Nested pairs (awaited ++ more) (ts ++ us) := by
  induction ts generalizing awaited with
  | nil =>
    obtain rfl := nested_nil_iff.mp first
    exact later
  | cons t ts ih =>
    obtain ⟨awaited', nests, first⟩ := nested_cons_iff.mp first
    exact nested_cons_iff.mpr ⟨_, nests.append more, ih first⟩

/-- The innermost open bracket is closed behind nested tokens. -/
theorem Nested.split {closer : Kind} {awaited : List Kind} {ts : List Token}
    (nested : Nested pairs (closer :: awaited) ts) :
    ∃ inner t rest, ts = inner ++ t :: rest ∧ Nested pairs [] inner ∧ t.kind = closer ∧
      Kind.Nests pairs [closer] closer [] ∧ Nested pairs awaited rest := by
  match ts with
  | [] => cases nested_nil_iff.mp nested
  | t :: ts =>
    obtain ⟨awaited', nests, later⟩ := nested_cons_iff.mp nested
    cases nests with
    | closes notOpen closes => exact ⟨[], t, ts, rfl, rfl, rfl, .closes notOpen closes, later⟩
    | passes notOpen notClosed =>
      obtain ⟨inner, u, rest, rfl, nestedInner, closed⟩ := later.split
      exact ⟨t :: inner, u, rest, rfl, nested_cons_iff.mpr ⟨[], .passes notOpen notClosed, nestedInner⟩,
        closed⟩
    | @opens _ closer' _ found =>
      -- The bracket that opens here is closed first, by a token before the one to be found.
      obtain ⟨inner₁, u, rest₁, rfl, nested₁, kind, closes, later⟩ := later.split
      obtain ⟨inner₂, v, rest, rfl, nested₂, closed⟩ := later.split
      have group : Nested pairs [] (t :: (inner₁ ++ u :: inner₂)) := by
        refine nested_cons_iff.mpr ⟨[closer'], .opens found, ?_⟩
        refine nested₁.append (nested_cons_iff.mpr ⟨[], ?_, nested₂⟩)
        rw [kind]
        exact closes
      exact ⟨t :: (inner₁ ++ u :: inner₂), v, rest, by simp, group, closed⟩
termination_by ts.length
decreasing_by all_goals simp_all <;> omega

end Token

/-! ### Statements and blocks -/

namespace Fragment

/-- A statement that starts among nested tokens, before the brace that closes the block around it, ends
among them, and behind it and its semicolon all brackets are closed. -/
theorem statementLength?_of_nested (afterDo : Bool) {awaited : List Kind} {ts : List Token}
    (nested : Token.Nested Kind.brackets awaited ts) {closing : Token}
    (brace : closing.kind = .rightBrace) (after : List Token) (n : Nat) :
    ∃ k ended, statementLength? afterDo (ts ++ closing :: after) awaited.length n = some (n + k, ended) ∧
      k + ended.toNat ≤ ts.length ∧ Token.Nested Kind.brackets [] (ts.drop (k + ended.toNat)) := by
  induction ts generalizing awaited n with
  | nil =>
    obtain rfl := Token.nested_nil_iff.mp nested
    refine ⟨0, false, ?_, Nat.le_refl _, rfl⟩
    simp [statementLength?, brace]
  | cons t ts ih =>
    obtain ⟨awaited', nests, later⟩ := Token.nested_cons_iff.mp nested
    -- Where the scan goes on, it goes on behind the token with the brackets open there.
    have goOn (step : statementLength? afterDo (t :: (ts ++ closing :: after)) awaited.length n =
        statementLength? afterDo (ts ++ closing :: after) awaited'.length (n + 1)) :
        ∃ k ended, statementLength? afterDo (t :: ts ++ closing :: after) awaited.length n =
            some (n + k, ended) ∧ k + ended.toNat ≤ (t :: ts).length ∧
          Token.Nested Kind.brackets [] ((t :: ts).drop (k + ended.toNat)) := by
      obtain ⟨k, ended, counted, bound, rest⟩ := ih later (n + 1)
      refine ⟨k + 1, ended, ?_, ?_, ?_⟩
      · rw [List.cons_append, step, counted, Nat.add_assoc, Nat.add_comm 1]
      · rw [List.length_cons]
        omega
      · rwa [Nat.add_right_comm, List.drop_succ_cons]
    generalize kind : t.kind = k at nests
    cases nests with
    | @opens _ closer _ found =>
      apply goOn
      have listed := Kind.mem_of_lookup found
      simp only [Kind.brackets, List.mem_cons, Prod.mk.injEq, List.not_mem_nil, or_false] at listed
      rcases listed with ⟨rfl, -⟩ | ⟨rfl, -⟩ | ⟨rfl, -⟩ <;> rw [statementLength?, kind] <;> rfl
    | closes _ closes =>
      simp only [Kind.brackets, List.map_cons, List.map_nil, List.mem_cons, List.not_mem_nil,
        or_false] at closes
      rcases closes with rfl | rfl | rfl
      · apply goOn
        rw [statementLength?, kind]
        rfl
      · apply goOn
        rw [statementLength?, kind]
        rfl
      · -- A brace that closes the last open bracket ends the statement, unless what follows goes on with it.
        by_cases ends : awaited' = [] ∧ goesOn afterDo (ts ++ closing :: after) = false
        · obtain ⟨rfl, stops⟩ := ends
          refine ⟨1, false, ?_, Nat.succ_le_succ (Nat.zero_le _), later⟩
          rw [List.cons_append, statementLength?, kind]
          simp [stops]
        · apply goOn
          rw [statementLength?, kind]
          simp_all
    | passes notOpen notClosed =>
      have notOpen := Kind.not_mem_of_lookup notOpen
      simp only [Kind.brackets, List.map_cons, List.map_nil, List.mem_cons, List.not_mem_nil,
        or_false, not_or] at notOpen notClosed
      by_cases ends : awaited = [] ∧ k = .semicolon
      · obtain ⟨rfl, rfl⟩ := ends
        refine ⟨0, true, ?_, Nat.succ_le_succ (Nat.zero_le _), later⟩
        rw [List.cons_append, statementLength?, kind]
        rfl
      · apply goOn
        rw [statementLength?]
        split <;> simp_all

end Fragment

namespace Block

/-- Nested tokens are cut into statements up to the brace that closes the block around them. -/
theorem cutsInto_of_nested {ts : List Token} (nested : Token.Nested Kind.brackets [] ts)
    {closing : Token} (closes : closing.kind = .rightBrace) {after : List Token} {c : Cursor}
    (ahead : c.ahead = ts ++ closing :: after) :
    ∃ statements, CutsInto c statements ⟨some closing, after⟩ := by
  match ts with
  | [] => exact ⟨[], .closed (Cursor.passes_of_ahead ahead) closes⟩
  | t :: ts =>
    have next : c.nextKind = some t.kind := by rw [Cursor.nextKind, ahead]; rfl
    obtain ⟨awaited, nests, later⟩ := Token.nested_cons_iff.mp nested
    have opened := Kind.nest?_eq_some_iff.mpr nests
    have notClosed : t.kind ≠ .rightBrace := by
      intro kind
      rw [kind] at opened
      cases opened
    by_cases ends : t.kind = .semicolon
    · -- An empty statement.
      obtain rfl : [] = awaited := by
        rw [ends] at opened
        exact Option.some.inj opened
      obtain ⟨statements, cuts⟩ :=
        cutsInto_of_nested later closes (Eq.refl (Cursor.ahead ⟨some t, ts ++ closing :: after⟩))
      exact ⟨_, .empty (Cursor.passes_of_ahead ahead) ends cuts⟩
    by_cases opens : t.kind = .leftBrace
    · -- A block of its own, up to the brace that closes it.
      obtain rfl : [.rightBrace] = awaited := by
        rw [opens] at opened
        exact Option.some.inj opened
      obtain ⟨inner, u, rest, split, nestedInner, closesInner, -, nestedRest⟩ := later.split
      have lengths : ts.length = inner.length + (rest.length + 1) := by
        rw [split, List.length_append, List.length_cons]
      have split : c.ahead = t :: (inner ++ u :: (rest ++ closing :: after)) := by simp [ahead, split]
      obtain ⟨statements, cutsInner⟩ := cutsInto_of_nested nestedInner closesInner
        (Eq.refl (Cursor.ahead ⟨some t, inner ++ u :: (rest ++ closing :: after)⟩))
      obtain ⟨others, cuts⟩ := cutsInto_of_nested nestedRest closes
        (Eq.refl (Cursor.ahead ⟨some u, rest ++ closing :: after⟩))
      exact ⟨_, .block (Cursor.passes_of_ahead split) opens cutsInner cuts⟩
    · -- A statement that is kept as it stands.
      have stands : c.AtStatement := ⟨t.kind, next, opens, notClosed, ends⟩
      obtain ⟨n, ended, counted, bound, nestedRest⟩ := Fragment.statementLength?_of_nested
        (c.seesWord "do") nested closes after 0
      rw [← ahead, Nat.zero_add, List.length_nil] at counted
      have positive : 0 < n := stands.statementLength? counted
      obtain ⟨n, rfl⟩ := Nat.exists_eq_succ_of_ne_zero (Nat.pos_iff_ne_zero.mp positive)
      obtain ⟨_, within, h, statementRead⟩ := Fragment.readStatement_of_succ counted
      have rest : (c.skip (n + 1 + ended.toNat) within).ahead =
          (t :: ts).drop (n + 1 + ended.toNat) ++ closing :: after := by
        rw [Cursor.skip, ahead, List.drop_append_of_le_length bound]
      have shorter : ((t :: ts).drop (n + 1 + ended.toNat)).length < ts.length + 1 := by
        rw [List.length_drop, List.length_cons]
        omega
      obtain ⟨statements, cuts⟩ := cutsInto_of_nested nestedRest closes rest
      exact ⟨_, .fragment stands statementRead cuts⟩
termination_by ts.length
decreasing_by all_goals (simp only [List.length_cons]; omega)

/-- Nested tokens between braces are cut as a block. -/
theorem cuts_of_nested {ts : List Token} (nested : Token.Nested Kind.brackets [] ts)
    {opening closing : Token} (opens : opening.kind = .leftBrace) (closes : closing.kind = .rightBrace)
    {after : List Token} {c : Cursor} (ahead : c.ahead = opening :: (ts ++ closing :: after)) :
    ∃ block, Cuts c block ⟨some closing, after⟩ := by
  obtain ⟨statements, cuts⟩ := cutsInto_of_nested nested closes
    (Eq.refl (Cursor.ahead ⟨some opening, ts ++ closing :: after⟩))
  exact ⟨⟨statements, ⟨c.location, closing.stop⟩⟩,
    ⟨opening, _, Cursor.passes_of_ahead ahead, opens, cuts⟩, rfl⟩

/-- Nested tokens between braces are read as a block. -/
theorem read_of_nested {ts : List Token} (nested : Token.Nested Kind.brackets [] ts)
    {opening closing : Token} (opens : opening.kind = .leftBrace) (closes : closing.kind = .rightBrace)
    {after : List Token} {c : Cursor} (ahead : c.ahead = opening :: (ts ++ closing :: after))
    (few : ts.length < limit) : ∃ block h, read c = .ok ⟨block, ⟨some closing, after⟩, h⟩ := by
  obtain ⟨block, cuts⟩ := cuts_of_nested nested opens closes ahead
  have size : c.size = ts.length + (after.length + 1) + 1 := by simp [Cursor.size, ahead]
  have small : Small block.blocks := by
    apply cuts.small
    simp only [Cursor.size] at size ⊢
    omega
  exact ⟨block, cuts.read small⟩

end Block

/-! ### Bodies passed by counting braces -/

namespace NominalDecl

/-- Nested tokens are passed with all braces that are closed among them. -/
theorem bodyLength?_of_nested {awaited : List Kind} {ts : List Token}
    (nested : Token.Nested Kind.braces awaited ts) (rest : List Token) (depth n : Nat) :
    bodyLength? (ts ++ rest) (awaited.length + depth) n = bodyLength? rest depth (n + ts.length) := by
  induction ts generalizing awaited n with
  | nil =>
    obtain rfl := Token.nested_nil_iff.mp nested
    rw [List.length_nil, Nat.zero_add, List.nil_append, List.length_nil, Nat.add_zero]
  | cons t ts ih =>
    obtain ⟨awaited', nests, later⟩ := Token.nested_cons_iff.mp nested
    suffices step : bodyLength? (t :: (ts ++ rest)) (awaited.length + depth) n =
        bodyLength? (ts ++ rest) (awaited'.length + depth) (n + 1) by
      rw [List.cons_append, step, ih later, List.length_cons, Nat.add_assoc, Nat.add_comm 1]
    generalize kind : t.kind = k at nests
    cases nests with
    | @opens _ closer _ found =>
      obtain ⟨rfl, rfl⟩ : k = .leftBrace ∧ closer = .rightBrace := by
        simpa [Kind.braces] using Kind.mem_of_lookup found
      rw [bodyLength?, kind, List.length_cons, Nat.add_right_comm]
    | closes _ closes =>
      obtain rfl : k = .rightBrace := by simpa [Kind.braces] using closes
      rw [bodyLength?, kind]
      simp [Nat.add_right_comm]
    | passes notOpen notClosed =>
      have notOpen : k ≠ .leftBrace := by simpa [Kind.braces] using Kind.not_mem_of_lookup notOpen
      have notClosed : k ≠ .rightBrace := by simpa [Kind.braces] using notClosed
      rw [bodyLength?]
      split <;> simp_all

/-- A body with nested braces ends at the brace behind them. -/
theorem bodyLength?_of_closed {ts : List Token} (nested : Token.Nested Kind.braces [] ts)
    {closing : Token} (closes : closing.kind = .rightBrace) (after : List Token) :
    bodyLength? (ts ++ closing :: after) 0 0 = some (ts.length + 1) := by
  have passed := bodyLength?_of_nested nested (closing :: after) 0 0
  rw [List.length_nil, Nat.zero_add, Nat.zero_add] at passed
  rw [passed, bodyLength?, closes]
  rfl

/-- Inside more braces the scan goes on behind the brace where it would have ended. -/
theorem bodyLength?_inside {ts : List Token} {depth n l : Nat}
    (found : bodyLength? ts depth n = some (n + l)) (k j : Nat) :
    bodyLength? ts (depth + (k + 1)) j = bodyLength? (ts.drop l) k (j + l) := by
  induction ts generalizing depth n l j with
  | nil => cases found
  | cons t ts ih =>
    -- Where the scan goes on, it counts the token on both sides.
    have goOn {depth : Nat} (found : bodyLength? ts depth (n + 1) = some (n + l)) :
        bodyLength? ts (depth + (k + 1)) (j + 1) = bodyLength? ((t :: ts).drop l) k (j + l) := by
      have counted := bodyLength?_gt found
      obtain ⟨l, rfl⟩ : ∃ l', l = l' + 1 := ⟨l - 1, by omega⟩
      rw [← Nat.add_assoc, Nat.add_right_comm] at found
      rw [ih found, List.drop_succ_cons, Nat.add_assoc, Nat.add_comm 1]
    rw [bodyLength?] at found ⊢
    split at found
    next opens =>
      rw [Nat.add_right_comm]
      exact goOn found
    next closes =>
      rw [if_neg (by omega)]
      split at found
      next outside =>
        obtain rfl : l = 1 := by
          have counted := Option.some.inj found
          omega
        subst outside
        rw [Nat.zero_add, Nat.add_sub_cancel, List.drop_succ_cons, List.drop_zero]
      next inside =>
        rw [Nat.sub_add_comm (Nat.pos_iff_ne_zero.mpr inside)]
        exact goOn found
    next => exact goOn found

/-- A scan that does not end among some tokens goes on behind them. -/
theorem bodyLength?_append {ts rest : List Token} {depth n m : Nat}
    (found : bodyLength? (ts ++ rest) depth n = some m) (later : n + ts.length < m) :
    ∃ depth', bodyLength? rest depth' (n + ts.length) = some m := by
  induction ts generalizing depth n with
  | nil => exact ⟨depth, found⟩
  | cons t ts ih =>
    rw [List.length_cons] at later ⊢
    rw [Nat.add_comm ts.length, ← Nat.add_assoc] at later ⊢
    rw [List.cons_append, bodyLength?] at found
    split at found
    next => exact ih found later
    next =>
      split at found
      next =>
        -- The scan ends at the token.
        obtain rfl := Option.some.inj found
        omega
      next => exact ih found later
    next => exact ih found later

/-- Of two bodies that end at one brace neither opens inside the other. -/
private theorem not_bodyLength?_around {outer inner after : List Token} {opening closing : Token}
    (opens : opening.kind = .leftBrace)
    (around : bodyLength? (outer ++ opening :: (inner ++ closing :: after)) 0 0 =
      some (outer.length + (inner.length + 2)))
    (within : bodyLength? (inner ++ closing :: after) 0 0 = some (inner.length + 1)) : False := by
  obtain ⟨depth, later⟩ := bodyLength?_append around (by omega)
  rw [← Nat.zero_add (inner.length + 1)] at within
  have inside := bodyLength?_inside within depth (outer.length + 1)
  rw [Nat.zero_add] at inside later
  simp only [bodyLength?, opens] at later
  rw [inside] at later
  have counted := bodyLength?_gt later
  omega

/-- No brace closes two bodies. -/
theorem bodyLength?_opening {before before' inside inside' after : List Token}
    {opening opening' closing : Token}
    (same : before ++ opening :: inside = before' ++ opening' :: inside')
    (opens : opening.kind = .leftBrace) (opens' : opening'.kind = .leftBrace)
    (closed : bodyLength? (inside ++ closing :: after) 0 0 = some (inside.length + 1))
    (closed' : bodyLength? (inside' ++ closing :: after) 0 0 = some (inside'.length + 1)) :
    opening = opening' ∧ inside = inside' := by
  rcases List.append_eq_append_iff.mp same with ⟨_ | ⟨t, mid⟩, -, apart⟩ | ⟨_ | ⟨t, mid⟩, -, apart⟩
  · exact List.cons.inj apart
  · rw [List.cons_append, List.cons.injEq] at apart
    have around : bodyLength? (mid ++ opening' :: (inside' ++ closing :: after)) 0 0 =
        some (mid.length + (inside'.length + 2)) := by simpa [apart.2, Nat.add_assoc] using closed
    exact (not_bodyLength?_around opens' around closed').elim
  · obtain ⟨rfl, rfl⟩ := List.cons.inj apart
    exact ⟨rfl, rfl⟩
  · rw [List.cons_append, List.cons.injEq] at apart
    have around : bodyLength? (mid ++ opening :: (inside ++ closing :: after)) 0 0 =
        some (mid.length + (inside.length + 2)) := by simpa [apart.2, Nat.add_assoc] using closed'
    exact (not_bodyLength?_around opens around closed).elim

end NominalDecl

end TestDouble
