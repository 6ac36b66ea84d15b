import TestDouble.Proofs.Acceptance
import TestDouble.Proofs.Views

/-!
# Two readings side by side

Two lists of tokens match when their kinds and texts are the same and the texts that can be cut out
of them look the same. On matching lists every reader does the same: it succeeds on both with values
that look the same, and stops at matching places, or it fails on both with errors that differ in
their places only. For each reader there is one such statement.
-/

namespace TestDouble

/-- Two lists of tokens that are told apart by nothing but places and by what a view does not show
of the texts between tokens. -/
structure Token.Matching (view : String → String) (ts ts' : List Token) : Prop where
  lexemes : ts.map lexeme = ts'.map lexeme
  quotes : ∀ i n, view (Mark.quote (((ts.drop i).take n).map mark)) =
    view (Mark.quote (((ts'.drop i).take n).map mark))

/-- Two cursors with matching tokens ahead. -/
def Cursor.Matches (view : String → String) (c c' : Cursor) : Prop :=
  Token.Matching view c.ahead c'.ahead

/-- Two errors that differ in their places only. -/
structure ParseError.Alike (e e' : ParseError) : Prop where
  cause : e.cause = e'.cause
  contexts : e.contexts = e'.contexts

/-- Two outcomes are alike: both are values that are related, or both are errors that differ in
their places only. -/
inductive Echo {α β : Type} (R : α → β → Prop) :
    Except ParseError α → Except ParseError β → Prop where
  | ok {a : α} {b : β} : R a b → Echo R (.ok a) (.ok b)
  | error {e e' : ParseError} : e.Alike e' → Echo R (.error e) (.error e')

namespace Echo

variable {α β γ δ : Type} {R : α → β → Prop} {S : γ → δ → Prop}

theorem bind {x : Except ParseError α} {y : Except ParseError β} {f : α → Except ParseError γ}
    {g : β → Except ParseError δ} (first : Echo R x y) (next : ∀ a b, R a b → Echo S (f a) (g b)) :
    Echo S (x >>= f) (y >>= g) := by
  cases first with
  | ok related => exact next _ _ related
  | error alike => exact .error alike

theorem mapError {x : Except ParseError α} {y : Except ParseError β} (echo : Echo R x y)
    (context : String) :
    Echo R (x.mapError (·.within context)) (y.mapError (·.within context)) := by
  cases echo with
  | ok related => exact .ok related
  | error alike => exact .error ⟨alike.cause, congrArg (· ++ [context]) alike.contexts⟩

end Echo

/-- Two values that look the same, read up to matching places. -/
structure Consumed.Echoes {α γ : Type} (view : String → String) (shown : α → γ) {c c' : Cursor}
    (r : Consumed c α) (r' : Consumed c' α) : Prop where
  value : shown r.value = shown r'.value
  cursor : r.cursor.Matches view r'.cursor

@[inherit_doc Consumed.Echoes]
structure Reached.Echoes {α γ : Type} (view : String → String) (shown : α → γ) {c c' : Cursor}
    (r : Reached c α) (r' : Reached c' α) : Prop where
  value : shown r.value = shown r'.value
  cursor : r.cursor.Matches view r'.cursor

namespace Echo

variable {α γ δ ε : Type} {view : String → String} {shown : α → γ} {R : δ → ε → Prop} {c c' : Cursor}

/-- What reads on behind matching places echoes if its own steps do. -/
theorem next {x : Reading α c} {y : Reading α c'} {f : Consumed c α → Except ParseError δ}
    {g : Consumed c' α → Except ParseError ε} (first : Echo (Consumed.Echoes view shown) x y)
    (later : ∀ v d h v' d' h', shown v = shown v' → d.Matches view d' →
      Echo R (f ⟨v, d, h⟩) (g ⟨v', d', h'⟩)) : Echo R (x >>= f) (y >>= g) :=
  first.bind fun _ _ echoes => later _ _ _ _ _ _ echoes.value echoes.cursor

@[inherit_doc Echo.next]
theorem nextReached {x : Passing α c} {y : Passing α c'} {f : Reached c α → Except ParseError δ}
    {g : Reached c' α → Except ParseError ε} (first : Echo (Reached.Echoes view shown) x y)
    (later : ∀ v d h v' d' h', shown v = shown v' → d.Matches view d' →
      Echo R (f ⟨v, d, h⟩) (g ⟨v', d', h'⟩)) : Echo R (x >>= f) (y >>= g) :=
  first.bind fun _ _ echoes => later _ _ _ _ _ _ echoes.value echoes.cursor

end Echo

namespace Token.Matching

variable {view : String → String} {ts ts' : List Token} {t t' : Token}

theorem kinds (same : Matching view ts ts') : ts.map kind = ts'.map kind := by
  have kinds := congrArg (List.map Lexeme.kind) same.lexemes
  rwa [List.map_map, List.map_map] at kinds

theorem drop (same : Matching view ts ts') (n : Nat) : Matching view (ts.drop n) (ts'.drop n) := by
  refine ⟨by rw [List.map_drop, List.map_drop, same.lexemes], fun i k => ?_⟩
  rw [List.drop_drop, List.drop_drop]
  exact same.quotes _ _

theorem nil_iff (same : Matching view ts ts') : ts = [] ↔ ts' = [] := by
  have length := congrArg List.length same.lexemes
  simp only [List.length_map] at length
  rw [← List.length_eq_zero_iff, ← List.length_eq_zero_iff, length]

theorem uncons (same : Matching view (t :: ts) ts') :
    ∃ u us, ts' = u :: us ∧ t.lexeme = u.lexeme ∧ Matching view ts us := by
  cases ts' with
  | nil => simpa using same.lexemes
  | cons u us =>
    refine ⟨u, us, rfl, ?_, same.drop 1⟩
    have lexemes := same.lexemes
    rw [List.map_cons, List.map_cons] at lexemes
    exact (List.cons.inj lexemes).1

theorem fragment (same : Matching view (t :: ts) (t' :: ts')) (n : Nat) :
    (Fragment.ofTokens t (ts.take n)).through view =
      (Fragment.ofTokens t' (ts'.take n)).through view := by
  have quoted := same.quotes 0 (n + 1)
  simp only [List.drop_zero, List.take_succ_cons] at quoted
  rw [Fragment.through, Fragment.through, Fragment.text_ofTokens, Fragment.text_ofTokens, quoted]

end Token.Matching

theorem Token.kind_eq_of_lexeme {t t' : Token} (same : t.lexeme = t'.lexeme) : t.kind = t'.kind :=
  congrArg Lexeme.kind same

theorem Token.text_eq_of_lexeme {t t' : Token} (same : t.lexeme = t'.lexeme) : t.text = t'.text :=
  congrArg Lexeme.text same

namespace Cursor

private theorem size_tail_tail_lt (before : Option Token) (t u : Token) (rest : List Token) :
    Cursor.size ⟨some u, rest⟩ < Cursor.size ⟨before, t :: u :: rest⟩ := by
  simp only [size, List.length_cons]
  omega

variable {view : String → String} {c c' : Cursor}

namespace Matches

variable (m : c.Matches view c')

include m

theorem isEmpty_eq : c.ahead.isEmpty = c'.ahead.isEmpty := by
  rw [Bool.eq_iff_iff, List.isEmpty_iff, List.isEmpty_iff]
  exact m.nil_iff

theorem sees_eq (kinds : List Kind) : c.sees kinds = c'.sees kinds := by
  rw [sees, sees, List.map_take, List.map_take, m.kinds]

theorem skip {n : Nat} (within : n ≤ c.size) (within' : n ≤ c'.size) :
    (c.skip n within).Matches view (c'.skip n within') := m.drop n

theorem expected (what : String) : (c.expected what).Alike (c'.expected what) := by
  obtain ⟨last, ahead⟩ := c
  obtain ⟨last', ahead'⟩ := c'
  cases ahead with
  | nil =>
    obtain rfl : ahead' = [] := m.nil_iff.mp rfl
    exact ⟨rfl, rfl⟩
  | cons t rest =>
    obtain ⟨t', rest', rfl, same, -⟩ := m.uncons
    refine ⟨?_, rfl⟩
    change ParseError.Cause.unexpectedToken what t.text = .unexpectedToken what t'.text
    rw [Token.text_eq_of_lexeme same]

/-- The next tokens, if there are any. -/
theorem cases_ahead :
    (c.ahead = [] ∧ c'.ahead = []) ∨ ∃ t rest t' rest', c.ahead = t :: rest ∧
      c'.ahead = t' :: rest' ∧ t.lexeme = t'.lexeme ∧ Token.Matching view rest rest' := by
  cases ahead : c.ahead with
  | nil => exact .inl ⟨rfl, m.nil_iff.mp ahead⟩
  | cons t rest =>
    have same : Token.Matching view (t :: rest) c'.ahead := ahead ▸ m
    obtain ⟨t', rest', ahead', lexeme, later⟩ := same.uncons
    exact .inr ⟨t, rest, t', rest', rfl, ahead', lexeme, later⟩

theorem seesWord_eq (word : String) : c.seesWord word = c'.seesWord word := by
  rcases m.cases_ahead with ⟨nil, nil'⟩ | ⟨t, rest, t', rest', cons, cons', same, -⟩
  · rw [seesWord, seesWord, nil, nil']
  · simp only [seesWord, cons, cons', Token.kind_eq_of_lexeme same, Token.text_eq_of_lexeme same]

theorem accept? (kind : Kind) :
    (c.accept? kind = none ∧ c'.accept? kind = none) ∨
    ∃ t d h t' d' h', c.accept? kind = some ⟨t, d, h⟩ ∧ c'.accept? kind = some ⟨t', d', h'⟩ ∧
      t.lexeme = t'.lexeme ∧ d.Matches view d' := by
  obtain ⟨last, ahead⟩ := c
  obtain ⟨last', ahead'⟩ := c'
  rcases m.cases_ahead with ⟨rfl, rfl⟩ | ⟨t, rest, t', rest', rfl, rfl, same, later⟩
  · exact .inl ⟨rfl, rfl⟩
  · simp only [Cursor.accept?, ← Token.kind_eq_of_lexeme same]
    by_cases kindIs : t.kind = kind
    · right
      rw [if_pos kindIs, if_pos kindIs]
      exact ⟨t, ⟨some t, rest⟩, size_tail_lt .., t', ⟨some t', rest'⟩, size_tail_lt .., rfl, rfl, same,
        later⟩
    · left
      rw [if_neg kindIs, if_neg kindIs]
      exact ⟨rfl, rfl⟩

theorem acceptPair? (first second : Kind) :
    (c.acceptPair? first second = none ∧ c'.acceptPair? first second = none) ∨
    ∃ t d h t' d' h', c.acceptPair? first second = some ⟨t, d, h⟩ ∧
      c'.acceptPair? first second = some ⟨t', d', h'⟩ ∧ t.lexeme = t'.lexeme ∧
      d.Matches view d' := by
  obtain ⟨last, ahead⟩ := c
  obtain ⟨last', ahead'⟩ := c'
  rcases m.cases_ahead with ⟨rfl, rfl⟩ | ⟨t, rest, t', rest', rfl, rfl, same, later⟩
  · exact .inl ⟨rfl, rfl⟩
  · cases rest with
    | nil =>
      obtain rfl : rest' = [] := later.nil_iff.mp rfl
      exact .inl ⟨rfl, rfl⟩
    | cons u rest =>
      obtain ⟨u', rest', rfl, same', later⟩ := later.uncons
      simp only [Cursor.acceptPair?, ← Token.kind_eq_of_lexeme same, ← Token.kind_eq_of_lexeme same']
      by_cases kindsAre : t.kind = first ∧ u.kind = second
      · right
        rw [if_pos kindsAre, if_pos kindsAre]
        exact ⟨u, ⟨some u, rest⟩, size_tail_tail_lt .., u', ⟨some u', rest'⟩, size_tail_tail_lt .., rfl, rfl,
          same', later⟩
      · left
        rw [if_neg kindsAre, if_neg kindsAre]
        exact ⟨rfl, rfl⟩

theorem acceptWord? (word : String) :
    (c.acceptWord? word = none ∧ c'.acceptWord? word = none) ∨
    ∃ t d h t' d' h', c.acceptWord? word = some ⟨t, d, h⟩ ∧
      c'.acceptWord? word = some ⟨t', d', h'⟩ ∧ t.lexeme = t'.lexeme ∧ d.Matches view d' := by
  obtain ⟨last, ahead⟩ := c
  obtain ⟨last', ahead'⟩ := c'
  rcases m.cases_ahead with ⟨rfl, rfl⟩ | ⟨t, rest, t', rest', rfl, rfl, same, later⟩
  · exact .inl ⟨rfl, rfl⟩
  · simp only [Cursor.acceptWord?, ← Token.kind_eq_of_lexeme same, ← Token.text_eq_of_lexeme same]
    by_cases wordIs : t.kind = .identifier ∧ t.text = word
    · right
      rw [if_pos wordIs, if_pos wordIs]
      exact ⟨t, ⟨some t, rest⟩, size_tail_lt .., t', ⟨some t', rest'⟩, size_tail_lt .., rfl, rfl, same,
        later⟩
    · left
      rw [if_neg wordIs, if_neg wordIs]
      exact ⟨rfl, rfl⟩

theorem expect (kind : Kind) (what : String) :
    Echo (Consumed.Echoes view Token.lexeme) (c.expect kind what) (c'.expect kind what) := by
  rw [Cursor.expect, Cursor.expect]
  rcases m.accept? kind with ⟨none, none'⟩ | ⟨t, d, h, t', d', h', some, some', same, later⟩
  · rw [none, none']
    exact .error (m.expected what)
  · rw [some, some']
    exact .ok ⟨same, later⟩

theorem identifier : Echo (Consumed.Echoes view id) c.identifier c'.identifier := by
  refine (m.expect .identifier "identifier").next fun t c₁ h₁ t' c₁' h₁' same m₁ => ?_
  exact .ok ⟨Token.text_eq_of_lexeme same, m₁⟩

end Matches

theorem nameTail_echoes {origin origin' c c' : Cursor} {within : c.size < origin.size}
    {within' : c'.size < origin'.size} (m : c.Matches view c') (name : String) :
    (nameTail origin c within name).Echoes view id (nameTail origin' c' within' name) := by
  rw [nameTail, nameTail]
  rcases m.acceptPair? .dot .identifier with ⟨none, none'⟩ |
    ⟨t, c₁, h₁, t', c₁', h₁', some, some', same, m₁⟩
  · rw [none, none']
    exact ⟨rfl, m⟩
  · rw [some, some']
    simp only [Token.text_eq_of_lexeme same]
    exact nameTail_echoes m₁ _
termination_by c.size

theorem bracketPairs_echoes {origin origin' c c' : Cursor} {within : c.size ≤ origin.size}
    {within' : c'.size ≤ origin'.size} (m : c.Matches view c') (n : Nat) :
    (bracketPairs origin c within n).Echoes view id (bracketPairs origin' c' within' n) := by
  rw [bracketPairs, bracketPairs]
  rcases m.acceptPair? .leftBracket .rightBracket with ⟨none, none'⟩ |
    ⟨t, c₁, h₁, t', c₁', h₁', some, some', -, m₁⟩
  · rw [none, none']
    exact ⟨rfl, m⟩
  · rw [some, some']
    exact bracketPairs_echoes m₁ _
termination_by c.size

theorem Matches.dottedName (m : c.Matches view c') :
    Echo (Consumed.Echoes view id) c.dottedName c'.dottedName := by
  refine m.identifier.next fun name c₁ h₁ name' c₁' h₁' same m₁ => ?_
  obtain rfl : name = name' := same
  exact .ok (nameTail_echoes m₁ name)

theorem Matches.dimensions (m : c.Matches view c') : c.dimensions.Echoes view id c'.dimensions :=
  bracketPairs_echoes m 0

section

variable {α γ : Type} {shown : α → γ}

theorem sepByTail_echo {origin origin' c c' : Cursor} {separator : Kind}
    {item : (d : Cursor) → d.size ≤ origin.size → Reading α d}
    {item' : (d : Cursor) → d.size ≤ origin'.size → Reading α d}
    {within : c.size ≤ origin.size} {within' : c'.size ≤ origin'.size}
    (each : ∀ d d' h h', d.size ≤ c.size → d.Matches view d' →
      Echo (Consumed.Echoes view shown) (item d h) (item' d' h'))
    (m : c.Matches view c') {read read' : List α} (sameRead : read.map shown = read'.map shown) :
    Echo (Consumed.Echoes view (List.map shown)) (sepByTail origin separator item c within read)
      (sepByTail origin' separator item' c' within' read') := by
  rw [sepByTail, sepByTail]
  refine (each c c' within within' (Nat.le_refl _) m).next fun value c₁ h₁ value' c₁' h₁' same m₁ => ?_
  have sameNext : (value :: read).map shown = (value' :: read').map shown := by
    rw [List.map_cons, List.map_cons, sameRead, same]
  rcases m₁.accept? separator with ⟨none, none'⟩ |
    ⟨t, c₂, h₂, t', c₂', h₂', some, some', -, m₂⟩
  · simp only [none, none']
    refine .ok ⟨?_, m₁⟩
    rw [List.map_reverse, List.map_reverse, sameNext]
  · simp only [some, some']
    exact sepByTail_echo (fun d d' h h' shorter => each d d' h h' (by omega)) m₂ sameNext
termination_by c.size
decreasing_by omega

/-- Lists with separators are read alike when their items are. -/
theorem Matches.sepBy {separator : Kind} {item : (d : Cursor) → d.size ≤ c.size → Reading α d}
    {item' : (d : Cursor) → d.size ≤ c'.size → Reading α d} (m : c.Matches view c')
    (each : ∀ d d' h h', d.Matches view d' →
      Echo (Consumed.Echoes view shown) (item d h) (item' d' h')) :
    Echo (Consumed.Echoes view (List.map shown)) (c.sepBy separator item)
      (c'.sepBy separator item') :=
  sepByTail_echo (fun d d' h h' _ => each d d' h h') m rfl

theorem Matches.clause {kind : Kind} {item : (d : Cursor) → d.size ≤ c.size → Reading α d}
    {item' : (d : Cursor) → d.size ≤ c'.size → Reading α d} (m : c.Matches view c')
    (each : ∀ d d' h h', d.Matches view d' →
      Echo (Consumed.Echoes view shown) (item d h) (item' d' h')) :
    Echo (Reached.Echoes view (Option.map shown)) (c.clause kind item) (c'.clause kind item') := by
  rw [Cursor.clause, Cursor.clause]
  rcases m.accept? kind with ⟨none, none'⟩ | ⟨t, c₁, h₁, t', c₁', h₁', some, some', -, m₁⟩
  · simp only [none, none']
    exact .ok ⟨rfl, m⟩
  · simp only [some, some']
    refine (each c₁ c₁' _ _ m₁).next fun value c₂ h₂ value' c₂' h₂' same m₂ => ?_
    exact .ok ⟨congrArg Option.some same, m₂⟩

/-- The items before a closing bracket, of which there may be none. -/
theorem Matches.items {β ε : Type} {whole : β → ε} (empty : β) (finish : List α → β)
    {item : (d : Cursor) → d.size ≤ c.size → Reading α d}
    {item' : (d : Cursor) → d.size ≤ c'.size → Reading α d} (m : c.Matches view c')
    (each : ∀ d d' h h', d.Matches view d' →
      Echo (Consumed.Echoes view shown) (item d h) (item' d' h'))
    (sameWhole : ∀ xs ys, xs.map shown = ys.map shown → whole (finish xs) = whole (finish ys)) :
    Echo (Reached.Echoes view whole)
      (if c.sees [.rightParen] then return ⟨empty, c, c.size_le⟩
        else do
          let ⟨found, c₁, h₁⟩ ← c.sepBy .comma item
          return ⟨finish found, c₁, Cursor.le_of_lt h₁⟩ : Passing β c)
      (if c'.sees [.rightParen] then return ⟨empty, c', c'.size_le⟩
        else do
          let ⟨found, c₁, h₁⟩ ← c'.sepBy .comma item'
          return ⟨finish found, c₁, Cursor.le_of_lt h₁⟩ : Passing β c') := by
  rw [← m.sees_eq]
  split
  next => exact .ok ⟨rfl, m⟩
  next =>
    refine (m.sepBy each).next fun found c₁ h₁ found' c₁' h₁' same m₁ => ?_
    exact .ok ⟨sameWhole found found' same, m₁⟩

end

end Cursor

/-! ### Raw texts and bodies -/

namespace Fragment

theorem uncons_lexemes {t : Token} {ts ts' : List Token}
    (same : (t :: ts).map Token.lexeme = ts'.map Token.lexeme) :
    ∃ t' us, ts' = t' :: us ∧ t.lexeme = t'.lexeme ∧ ts.map Token.lexeme = us.map Token.lexeme := by
  cases ts' with
  | nil => cases same
  | cons t' us => exact ⟨t', us, rfl, List.cons.inj same⟩

/-- Where a value ends is told by kinds and texts alone, if that holds for what stops it. -/
theorem valueLength?_eq {stops : List Token → Bool}
    (told : ∀ {us us' : List Token}, us.map Token.lexeme = us'.map Token.lexeme → stops us = stops us')
    {ts ts' : List Token} (same : ts.map Token.lexeme = ts'.map Token.lexeme) (depth n : Nat) :
    valueLength? stops ts depth n = valueLength? stops ts' depth n := by
  induction ts generalizing ts' depth n with
  | nil =>
    obtain rfl : ts' = [] := List.map_eq_nil_iff.mp same.symm
    rfl
  | cons t ts ih =>
    have toldHere := told same
    obtain ⟨t', us, rfl, lexeme, later⟩ := uncons_lexemes same
    simp only [valueLength?, Token.kind_eq_of_lexeme lexeme, toldHere, ih later]

theorem goesOn_eq (afterDo : Bool) {ts ts' : List Token}
    (same : ts.map Token.lexeme = ts'.map Token.lexeme) : goesOn afterDo ts = goesOn afterDo ts' := by
  cases ts with
  | nil =>
    obtain rfl : ts' = [] := List.map_eq_nil_iff.mp same.symm
    rfl
  | cons t ts =>
    obtain ⟨t', us, rfl, lexeme, -⟩ := uncons_lexemes same
    simp only [goesOn, Token.kind_eq_of_lexeme lexeme, Token.text_eq_of_lexeme lexeme]

theorem statementLength?_eq (afterDo : Bool) {ts ts' : List Token}
    (same : ts.map Token.lexeme = ts'.map Token.lexeme) (depth n : Nat) :
    statementLength? afterDo ts depth n = statementLength? afterDo ts' depth n := by
  induction ts generalizing ts' depth n with
  | nil =>
    obtain rfl : ts' = [] := List.map_eq_nil_iff.mp same.symm
    rfl
  | cons t ts ih =>
    obtain ⟨t', us, rfl, lexeme, later⟩ := uncons_lexemes same
    simp only [statementLength?, Token.kind_eq_of_lexeme lexeme, goesOn_eq afterDo later, ih later]

variable {view : String → String} {c c' : Cursor}

/-- The fragments of as many next tokens are the same in the view. -/
theorem ofNext_echo (m : c.Matches view c') {n : Nat} (within : n + 1 ≤ c.size)
    (within' : n + 1 ≤ c'.size) :
    (ofNext c n within).through view = (ofNext c' n within').through view := by
  obtain ⟨last, ahead⟩ := c
  obtain ⟨last', ahead'⟩ := c'
  rcases m.cases_ahead with ⟨rfl, rfl⟩ | ⟨t, rest, t', rest', rfl, rfl, -, -⟩
  · cases within
  · exact m.fragment n

theorem readValue_echo (m : c.Matches view c') (what : String) {stops : List Token → Bool}
    (told : ∀ {us us' : List Token}, us.map Token.lexeme = us'.map Token.lexeme →
      stops us = stops us') :
    Echo (Consumed.Echoes view (Fragment.through view)) (readValue c what stops)
      (readValue c' what stops) := by
  have same := (valueLength?_eq told m.lexemes 0 0).symm
  rcases counted : valueLength? stops c.ahead 0 0 with _ | _ | n
  · rw [readValue_of_none what counted, readValue_of_none what (same.trans counted)]
    exact .error ⟨rfl, rfl⟩
  · rw [readValue_of_zero what counted, readValue_of_zero what (same.trans counted)]
    exact .error (m.expected what)
  · obtain ⟨within, h, read⟩ := readValue_of_succ what counted
    obtain ⟨within', h', read'⟩ := readValue_of_succ what (same.trans counted)
    rw [read, read']
    exact .ok ⟨ofNext_echo m within within', m.skip within within'⟩

theorem readStatement_echo (m : c.Matches view c') :
    Echo (Consumed.Echoes view (Fragment.through view)) (readStatement c) (readStatement c') := by
  have same : statementLength? (c'.seesWord "do") c'.ahead 0 0 =
      statementLength? (c.seesWord "do") c.ahead 0 0 := by
    rw [m.seesWord_eq, statementLength?_eq _ m.lexemes]
  rcases counted : statementLength? (c.seesWord "do") c.ahead 0 0 with _ | ⟨_ | n, ended⟩
  · rw [readStatement_of_none counted, readStatement_of_none (same.trans counted)]
    exact .error ⟨rfl, rfl⟩
  · rw [readStatement_of_zero counted, readStatement_of_zero (same.trans counted)]
    exact .error (m.expected _)
  · obtain ⟨kept, within, h, read⟩ := readStatement_of_succ counted
    obtain ⟨kept', within', h', read'⟩ := readStatement_of_succ (same.trans counted)
    rw [read, read']
    exact .ok ⟨ofNext_echo m kept kept', m.skip within within'⟩

end Fragment

namespace Block

variable {view : String → String}

mutual

theorem read_echo {c c' : Cursor} (m : c.Matches view c') :
    Echo (Consumed.Echoes view (Block.through view)) (Block.read c) (Block.read c') := by
  rw [Block.read, Block.read]
  refine (m.expect .leftBrace _).next fun t c₁ h₁ t' c₁' h₁' _ m₁ => ?_
  refine (readStatements_echo m₁ 0 rfl).next fun statements c₂ h₂ statements' c₂' h₂' same m₂ => ?_
  refine .ok ⟨?_, m₂⟩
  rw [Block.through_mk, Block.through_mk, same]
termination_by 2 * c.size

theorem readStatements_echo {origin origin' c c' : Cursor} {start start' : Location}
    {within : c.size < origin.size} {within' : c'.size < origin'.size} (m : c.Matches view c')
    (count : Nat) {read read' : List BodyStatement}
    (sameRead : read.map (BodyStatement.through view) = read'.map (BodyStatement.through view)) :
    Echo (Consumed.Echoes view (List.map (BodyStatement.through view)))
      (readStatements origin start c within count read)
      (readStatements origin' start' c' within' count read') := by
  rw [readStatements, readStatements]
  -- The readers compare the count with the limit first and then the next token; both are the same
  -- on the two sides.
  by_cases large : limit ≤ count
  · rw [if_pos large, if_pos large]
    exact .error ⟨rfl, rfl⟩
  rw [if_neg large, if_neg large]
  rcases m.accept? .rightBrace with ⟨none, none'⟩ |
    ⟨t, c₁, h₁, t', c₁', h₁', some, some', -, m₁⟩
  swap
  · rw [some, some']
    refine .ok ⟨?_, m₁⟩
    rw [List.map_reverse, List.map_reverse, sameRead]
  simp only [none, none']
  rcases m.accept? .semicolon with ⟨none, none'⟩ |
    ⟨t, c₁, h₁, t', c₁', h₁', some, some', -, m₁⟩
  swap
  · simp only [some, some']
    exact readStatements_echo m₁ (count + 1) (congrArg (BodyStatement.empty :: ·) sameRead)
  simp only [none, none', ← m.isEmpty_eq, ← m.sees_eq]
  split
  next => exact .error (m.expected _)
  next =>
    split
    next =>
      refine (read_echo m).next fun block c₁ h₁ block' c₁' h₁' same m₁ => ?_
      refine readStatements_echo m₁ (count + 1) ?_
      rw [List.map_cons, List.map_cons, sameRead, BodyStatement.through, BodyStatement.through, same]
    next =>
      refine (Fragment.readStatement_echo m).next fun fragment c₁ h₁ fragment' c₁' h₁' same m₁ => ?_
      refine readStatements_echo m₁ (count + 1) ?_
      rw [List.map_cons, List.map_cons, sameRead, BodyStatement.through, BodyStatement.through, same]
termination_by 2 * c.size + 1

end

end Block

/-! ### Annotations and modifiers -/

namespace Annotation

variable {view : String → String} {c c' : Cursor}

theorem atComma_eq {ts ts' : List Token} (same : ts.map Token.lexeme = ts'.map Token.lexeme) :
    atComma ts = atComma ts' := by
  cases ts with
  | nil =>
    obtain rfl : ts' = [] := List.map_eq_nil_iff.mp same.symm
    rfl
  | cons t ts =>
    obtain ⟨t', us, rfl, lexeme, -⟩ := Fragment.uncons_lexemes same
    simp only [atComma, Token.kind_eq_of_lexeme lexeme]

/-- A value without a name. -/
private theorem readPlain_echo (m : c.Matches view c') :
    Echo (Consumed.Echoes view (AnnotationArgument.through view))
      (do
        let ⟨value, c₁, h₁⟩ ← Fragment.readValue c "annotation value" atComma
        return ⟨.value value.text, c₁, h₁⟩)
      (do
        let ⟨value, c₁, h₁⟩ ← Fragment.readValue c' "annotation value" atComma
        return ⟨.value value.text, c₁, h₁⟩) := by
  refine (Fragment.readValue_echo m _ atComma_eq).next fun value c₁ h₁ value' c₁' h₁' same m₁ => ?_
  exact .ok ⟨congrArg AnnotationArgument.value (congrArg Fragment.text same), m₁⟩

theorem readArgument_echo (m : c.Matches view c') :
    Echo (Consumed.Echoes view (AnnotationArgument.through view)) (readArgument c)
      (readArgument c') := by
  obtain ⟨last, ahead⟩ := c
  obtain ⟨last', ahead'⟩ := c'
  rcases m.cases_ahead with ⟨rfl, rfl⟩ | ⟨key, rest, key', rest', rfl, rfl, sameKey, later⟩
  · exact readPlain_echo m
  cases rest with
  | nil =>
    obtain rfl : rest' = [] := later.nil_iff.mp rfl
    exact readPlain_echo m
  | cons sign rest =>
    obtain ⟨sign', rest', rfl, sameSign, later⟩ := later.uncons
    rw [readArgument, readArgument]
    simp only [← Token.kind_eq_of_lexeme sameKey, ← Token.kind_eq_of_lexeme sameSign]
    split
    next =>
      have m₁ : Cursor.Matches view ⟨some sign, rest⟩ ⟨some sign', rest'⟩ := later
      refine (Fragment.readValue_echo m₁ _ atComma_eq).next fun value c₁ h₁ value' c₁' h₁' same m₁ => ?_
      refine .ok ⟨?_, m₁⟩
      rw [AnnotationArgument.through, AnnotationArgument.through, Token.text_eq_of_lexeme sameKey]
      exact congrArg (AnnotationArgument.named _) (congrArg Fragment.text same)
    next => exact readPlain_echo m

theorem readArguments_echo (m : c.Matches view c') :
    Echo (Consumed.Echoes view (List.map (AnnotationArgument.through view))) (readArguments c)
      (readArguments c') := by
  have listed := m.items [] (fun found => found) (fun _ _ _ _ m => readArgument_echo m)
    fun _ _ same => same
  refine listed.nextReached fun arguments c₁ h₁ arguments' c₁' h₁' same m₁ => ?_
  refine (m₁.expect .rightParen _).next fun _ c₂ h₂ _ c₂' h₂' _ m₂ => ?_
  exact .ok ⟨same, m₂⟩

theorem read_echo (m : c.Matches view c') :
    Echo (Consumed.Echoes view (through view)) (read c) (read c') := by
  refine (m.expect .atSign _).next fun _ c₁ h₁ _ c₁' h₁' _ m₁ => ?_
  refine m₁.dottedName.next fun name c₂ h₂ name' c₂' h₂' sameName m₂ => ?_
  refine (m₂.clause fun d d' _ _ m => readArguments_echo m).nextReached
    fun arguments c₃ h₃ arguments' c₃' h₃' same m₃ => ?_
  obtain rfl : name = name' := sameName
  have arguments_ : (arguments.getD []).map (AnnotationArgument.through view) =
      (arguments'.getD []).map (AnnotationArgument.through view) := by
    cases arguments <;> cases arguments' <;> simp_all
  exact .ok ⟨congrArg (fun values => Annotation.mk name values .synthetic) arguments_, m₃⟩

theorem comesNext_eq (m : c.Matches view c') : comesNext c = comesNext c' := by
  rw [comesNext, comesNext, m.sees_eq, m.sees_eq]

theorem passFrom_echo {origin origin' c c' : Cursor} {within : c.size ≤ origin.size}
    {within' : c'.size ≤ origin'.size} (m : c.Matches view c') :
    Echo (Reached.Echoes view id) (passFrom origin c within) (passFrom origin' c' within') := by
  rw [passFrom, passFrom, ← comesNext_eq m]
  split
  next =>
    refine (read_echo m).next fun _ c₁ h₁ _ c₁' h₁' _ m₁ => ?_
    exact passFrom_echo m₁
  next => exact .ok ⟨rfl, m⟩
termination_by c.size

theorem pass_echo (m : c.Matches view c') : Echo (Reached.Echoes view id) (pass c) (pass c') :=
  passFrom_echo m

end Annotation

namespace Qualifiers

variable {view : String → String} {c c' : Cursor}

theorem afterNonSealed?_eq {ts ts' : List Token} (same : Token.Matching view ts ts') :
    (afterNonSealed? ts = none ∧ afterNonSealed? ts' = none) ∨
    ∃ t rest t' rest', afterNonSealed? ts = some (t, rest) ∧ afterNonSealed? ts' = some (t', rest') ∧
      t.lexeme = t'.lexeme ∧ Token.Matching view rest rest' := by
  rcases ts with _ | ⟨t, _ | ⟨u, _ | ⟨w, ts⟩⟩⟩
  · obtain rfl : ts' = [] := same.nil_iff.mp rfl
    exact .inl ⟨rfl, rfl⟩
  · obtain ⟨t', us, rfl, -, later⟩ := same.uncons
    obtain rfl : us = [] := later.nil_iff.mp rfl
    exact .inl ⟨rfl, rfl⟩
  · obtain ⟨t', us, rfl, -, later⟩ := same.uncons
    obtain ⟨u', us, rfl, -, later⟩ := later.uncons
    obtain rfl : us = [] := later.nil_iff.mp rfl
    exact .inl ⟨rfl, rfl⟩
  · obtain ⟨t', us, rfl, first, later⟩ := same.uncons
    obtain ⟨u', us, rfl, second, later⟩ := later.uncons
    obtain ⟨w', us, rfl, third, later⟩ := later.uncons
    simp only [afterNonSealed?, ← Token.kind_eq_of_lexeme first, ← Token.text_eq_of_lexeme first,
      ← Token.kind_eq_of_lexeme second, ← Token.kind_eq_of_lexeme third,
      ← Token.text_eq_of_lexeme third]
    split
    next => exact .inr ⟨w, ts, w', us, rfl, rfl, third, later⟩
    next => exact .inl ⟨rfl, rfl⟩

theorem passSealed?_of_none (noSealed : c.acceptWord? "sealed" = none)
    (absent : afterNonSealed? c.ahead = none) : passSealed? c = none := by
  rw [passSealed?, noSealed]
  dsimp only
  split
  next found => simp [absent] at found
  next => rfl

theorem passSealed?_of_some {t : Token} {rest : List Token} (noSealed : c.acceptWord? "sealed" = none)
    (found : afterNonSealed? c.ahead = some (t, rest)) :
    ∃ h, passSealed? c = some ⟨t, ⟨some t, rest⟩, h⟩ := by
  have taken := length_of_afterNonSealed? found
  refine ⟨by simp only [Cursor.size]; omega, ?_⟩
  rw [passSealed?, noSealed]
  dsimp only
  split
  next again =>
    obtain ⟨rfl, rfl⟩ := Prod.mk.inj (Option.some.inj (found.symm.trans again))
    rfl
  next absent => simp [absent] at found

theorem passSealed?_echo (m : c.Matches view c') :
    (passSealed? c = none ∧ passSealed? c' = none) ∨
    ∃ t d h t' d' h', passSealed? c = some ⟨t, d, h⟩ ∧ passSealed? c' = some ⟨t', d', h'⟩ ∧
      d.Matches view d' := by
  rcases m.acceptWord? "sealed" with ⟨none, none'⟩ |
    ⟨t, c₁, h₁, t', c₁', h₁', some, some', -, m₁⟩
  · rcases afterNonSealed?_eq m with ⟨absent, absent'⟩ |
      ⟨t, rest, t', rest', found, found', -, later⟩
    · exact .inl ⟨passSealed?_of_none none absent, passSealed?_of_none none' absent'⟩
    · obtain ⟨h, passed⟩ := passSealed?_of_some none found
      obtain ⟨h', passed'⟩ := passSealed?_of_some none' found'
      exact .inr ⟨t, _, h, t', _, h', passed, passed', later⟩
  · rw [passSealed?, passSealed?]
    simp only [some, some']
    exact .inr ⟨t, c₁, h₁, t', c₁', h₁', rfl, rfl, m₁⟩

theorem modifier?_echo (m : c.Matches view c') :
    (modifier? c = none ∧ modifier? c' = none) ∨
    ∃ k d h d' h', modifier? c = some ⟨k, d, h⟩ ∧ modifier? c' = some ⟨k, d', h'⟩ ∧
      d.Matches view d' := by
  obtain ⟨last, ahead⟩ := c
  obtain ⟨last', ahead'⟩ := c'
  rcases m.cases_ahead with ⟨rfl, rfl⟩ | ⟨t, rest, t', rest', rfl, rfl, same, later⟩
  · exact .inl ⟨rfl, rfl⟩
  · simp only [modifier?, ← Token.kind_eq_of_lexeme same]
    split
    next k _ =>
      exact .inr ⟨k, ⟨some t, rest⟩, Cursor.size_tail_lt .., ⟨some t', rest'⟩, Cursor.size_tail_lt ..,
        rfl, rfl, later⟩
    next => exact .inl ⟨rfl, rfl⟩

theorem readFrom_echo {origin origin' c c' : Cursor} {within : c.size ≤ origin.size}
    {within' : c'.size ≤ origin'.size} (m : c.Matches view c') (modifiers : ModifierSet)
    {annotations annotations' : List Annotation}
    (same : annotations.map (·.through view) = annotations'.map (·.through view)) :
    Echo (Reached.Echoes view (Qualifiers.through view))
      (readFrom origin c within modifiers annotations)
      (readFrom origin' c' within' modifiers annotations') := by
  rw [readFrom, readFrom, ← Annotation.comesNext_eq m]
  split
  next =>
    have annotated := Annotation.read_echo m
    refine annotated.next fun found c₁ h₁ found' c₁' h₁' sameFound m₁ => ?_
    refine readFrom_echo m₁ modifiers ?_
    rw [List.map_cons, List.map_cons, same, sameFound]
  next =>
    rcases modifier?_echo m with ⟨none, none'⟩ | ⟨k, c₁, h₁, c₁', h₁', some, some', m₁⟩
    · simp only [none, none']
      rcases passSealed?_echo m with ⟨none, none'⟩ | ⟨t, c₁, h₁, t', c₁', h₁', some, some', m₁⟩
      · simp only [none, none']
        refine .ok ⟨?_, m⟩
        rw [Qualifiers.through, Qualifiers.through, List.map_reverse, List.map_reverse, same]
      · simp only [some, some']
        exact readFrom_echo m₁ modifiers same
    · simp only [some, some']
      exact readFrom_echo m₁ (modifiers.insert k) same
termination_by c.size

theorem read_echo (m : c.Matches view c') :
    Echo (Reached.Echoes view (Qualifiers.through view)) (read c) (read c') :=
  readFrom_echo m .empty rfl

end Qualifiers

/-! ### Types -/

namespace TypeRef

variable {view : String → String}

theorem readDimensions_echo {origin origin' c c' : Cursor} {within : c.size < origin.size}
    {within' : c'.size < origin'.size} (m : c.Matches view c') (n : Nat) :
    Echo (Consumed.Echoes view id) (readDimensions origin c within n)
      (readDimensions origin' c' within' n) := by
  rw [readDimensions, readDimensions]
  have annotated := Annotation.pass_echo m
  refine annotated.nextReached fun _ c₁ h₁ _ c₁' h₁' _ m₁ => ?_
  rcases m₁.acceptPair? .leftBracket .rightBracket with ⟨none, none'⟩ |
    ⟨t, c₂, h₂, t', c₂', h₂', some, some', -, m₂⟩
  · simp only [none, none']
    exact .ok ⟨rfl, m₁⟩
  · simp only [some, some']
    exact readDimensions_echo m₂ (n + 1)
termination_by c.size
decreasing_by omega

theorem primitive?_echo {c c' : Cursor} (m : c.Matches view c') :
    (primitive? c = none ∧ primitive? c' = none) ∨
    ∃ t d h t' d' h', primitive? c = some ⟨t, d, h⟩ ∧ primitive? c' = some ⟨t', d', h'⟩ ∧
      t.lexeme = t'.lexeme ∧ d.Matches view d' := by
  obtain ⟨last, ahead⟩ := c
  obtain ⟨last', ahead'⟩ := c'
  rcases m.cases_ahead with ⟨rfl, rfl⟩ | ⟨t, rest, t', rest', rfl, rfl, same, later⟩
  · exact .inl ⟨rfl, rfl⟩
  · simp only [primitive?, ← Token.kind_eq_of_lexeme same]
    split
    next =>
      exact .inr ⟨t, ⟨some t, rest⟩, Cursor.size_tail_lt .., t', ⟨some t', rest'⟩,
        Cursor.size_tail_lt .., rfl, rfl, same, later⟩
    next => exact .inl ⟨rfl, rfl⟩

theorem withoutSpans_dimensions (base : TypeRef) (dimensions : Nat) (span : Span) :
    ({ base with dimensions, span } : TypeRef).withoutSpans =
      { base.withoutSpans with dimensions } := by
  cases base
  rw [withoutSpans_mk, withoutSpans_mk]

end TypeRef

mutual

theorem TypeRef.read_echo {view : String → String} {c c' : Cursor} (m : c.Matches view c') :
    Echo (Consumed.Echoes view TypeRef.withoutSpans) (TypeRef.read c) (TypeRef.read c') := by
  rw [TypeRef.read, TypeRef.read]
  have annotated := Annotation.pass_echo m
  refine annotated.nextReached fun _ c₁ h₁ _ c₁' h₁' _ m₁ => ?_
  refine (TypeRef.readBase_echo m₁).next fun base c₂ h₂ base' c₂' h₂' same m₂ => ?_
  refine (TypeRef.readDimensions_echo m₂ 0).next fun n c₃ h₃ n' c₃' h₃' sameDimensions m₃ => ?_
  obtain rfl : n = n' := sameDimensions
  refine .ok ⟨?_, m₃⟩
  rw [TypeRef.withoutSpans_dimensions, TypeRef.withoutSpans_dimensions, same]
termination_by 4 * c.size + 2
decreasing_by omega

theorem TypeRef.readBase_echo {view : String → String} {c c' : Cursor} (m : c.Matches view c') :
    Echo (Consumed.Echoes view TypeRef.withoutSpans) (TypeRef.readBase c) (TypeRef.readBase c') := by
  rw [TypeRef.readBase, TypeRef.readBase]
  rcases TypeRef.primitive?_echo m with ⟨none, none'⟩ |
    ⟨t, c₁, h₁, t', c₁', h₁', some, some', same, m₁⟩
  · simp only [none, none']
    rcases m.accept? .identifier with ⟨none, none'⟩ |
      ⟨t, c₁, h₁, t', c₁', h₁', some, some', same, m₁⟩
    · simp only [none, none']
      exact .error (m.expected _)
    · simp only [some, some', Token.text_eq_of_lexeme same]
      exact TypeRef.readParts_echo m₁ t'.text rfl
  · simp only [some, some', Token.text_eq_of_lexeme same]
    exact .ok ⟨rfl, m₁⟩
termination_by 4 * c.size + 1

theorem TypeRef.readParts_echo {view : String → String} {origin origin' c c' : Cursor}
    {start start' : Location} {within : c.size < origin.size} {within' : c'.size < origin'.size}
    (m : c.Matches view c') (name : String) {enclosing enclosing' : Option TypeRef}
    (same : enclosing.map TypeRef.withoutSpans = enclosing'.map TypeRef.withoutSpans) :
    Echo (Consumed.Echoes view TypeRef.withoutSpans)
      (TypeRef.readParts origin start c within name enclosing)
      (TypeRef.readParts origin' start' c' within' name enclosing') := by
  rw [TypeRef.readParts, TypeRef.readParts]
  have listed : Echo (Reached.Echoes view (List.map TypeArgument.withoutSpans))
      (if c.sees [.less] then do
          let ⟨arguments, c₁, h₁⟩ ← TypeArgument.readAll c
          return ⟨arguments, c₁, by omega⟩
        else return ⟨[], c, c.size_le⟩ : Passing (List TypeArgument) c)
      (if c'.sees [.less] then do
          let ⟨arguments, c₁, h₁⟩ ← TypeArgument.readAll c'
          return ⟨arguments, c₁, by omega⟩
        else return ⟨[], c', c'.size_le⟩ : Passing (List TypeArgument) c') := by
    rw [← m.sees_eq]
    split
    next =>
      refine (TypeArgument.readAll_echo m).next fun _ c₁ h₁ _ c₁' h₁' sameListed m₁ => ?_
      exact .ok ⟨sameListed, m₁⟩
    next => exact .ok ⟨rfl, m⟩
  refine listed.nextReached fun arguments c₁ h₁ arguments' c₁' h₁' sameArguments m₁ => ?_
  -- Whether there are arguments decides how a name is continued.
  have isEmpty : arguments.isEmpty = arguments'.isEmpty := by
    have length := congrArg List.length sameArguments
    rw [List.length_map, List.length_map] at length
    rw [Bool.eq_iff_iff, List.isEmpty_iff, List.isEmpty_iff, ← List.length_eq_zero_iff,
      ← List.length_eq_zero_iff, length]
  rcases m₁.acceptPair? .dot .identifier with ⟨none, none'⟩ |
    ⟨t, c₂, h₂, t', c₂', h₂', some, some', sameWord, m₂⟩
  · simp only [none, none']
    refine .ok ⟨?_, m₁⟩
    rw [TypeRef.withoutSpans_mk, TypeRef.withoutSpans_mk, same, sameArguments]
  · simp only [some, some', isEmpty, Token.text_eq_of_lexeme sameWord]
    split
    next => exact TypeRef.readParts_echo m₂ _ same
    next =>
      refine TypeRef.readParts_echo m₂ _ ?_
      rw [Option.map_some, Option.map_some, TypeRef.withoutSpans_mk, TypeRef.withoutSpans_mk, same,
        sameArguments]
termination_by 4 * c.size + 1
decreasing_by all_goals omega

theorem TypeArgument.readAll_echo {view : String → String} {c c' : Cursor} (m : c.Matches view c') :
    Echo (Consumed.Echoes view (List.map TypeArgument.withoutSpans)) (TypeArgument.readAll c)
      (TypeArgument.readAll c') := by
  rw [TypeArgument.readAll, TypeArgument.readAll]
  refine (m.expect .less _).next fun _ c₁ h₁ _ c₁' h₁' _ m₁ => ?_
  rcases m₁.accept? .greater with ⟨none, none'⟩ | ⟨t, c₂, h₂, t', c₂', h₂', some, some', -, m₂⟩
  · simp only [none, none']
    refine (m₁.sepBy fun d d' h h' m => TypeArgument.read_echo m).next
      fun arguments c₂ h₂ arguments' c₂' h₂' same m₂ => ?_
    refine (m₂.expect .greater _).next fun _ c₃ h₃ _ c₃' h₃' _ m₃ => ?_
    exact .ok ⟨same, m₃⟩
  · simp only [some, some']
    exact .ok ⟨rfl, m₂⟩
termination_by 4 * c.size
decreasing_by omega

theorem TypeArgument.read_echo {view : String → String} {c c' : Cursor} (m : c.Matches view c') :
    Echo (Consumed.Echoes view TypeArgument.withoutSpans) (TypeArgument.read c)
      (TypeArgument.read c') := by
  rw [TypeArgument.read, TypeArgument.read]
  have annotated := Annotation.pass_echo m
  refine annotated.nextReached fun _ c₁ h₁ _ c₁' h₁' _ m₁ => ?_
  rcases m₁.accept? .question with ⟨none, none'⟩ | ⟨t, c₂, h₂, t', c₂', h₂', some, some', -, m₂⟩
  · simp only [none, none']
    refine (TypeRef.read_echo m₁).next fun type c₂ h₂ type' c₂' h₂' same m₂ => ?_
    exact .ok ⟨congrArg TypeArgument.type same, m₂⟩
  · simp only [some, some']
    rcases m₂.accept? .extendsWord with ⟨none, none'⟩ |
      ⟨t, c₃, h₃, t', c₃', h₃', some, some', -, m₃⟩
    · simp only [none, none']
      rcases m₂.accept? .superWord with ⟨none, none'⟩ |
        ⟨t, c₃, h₃, t', c₃', h₃', some, some', -, m₃⟩
      · simp only [none, none']
        exact .ok ⟨rfl, m₂⟩
      · simp only [some, some']
        refine (TypeRef.read_echo m₃).next fun bound c₄ h₄ bound' c₄' h₄' same m₄ => ?_
        exact .ok ⟨congrArg (TypeArgument.bounded .lower · .synthetic) same, m₄⟩
    · simp only [some, some']
      refine (TypeRef.read_echo m₃).next fun bound c₄ h₄ bound' c₄' h₄' same m₄ => ?_
      exact .ok ⟨congrArg (TypeArgument.bounded .upper · .synthetic) same, m₄⟩
termination_by 4 * c.size + 3
decreasing_by all_goals omega

end

end TestDouble
