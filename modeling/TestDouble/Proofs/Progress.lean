import TestDouble.Block.Reader
import TestDouble.Annotation.Reader

/-!
# What readers pass

A reader that succeeds returns a cursor behind tokens that came next, so a cursor never leaves the
list of tokens and never moves back. `Passes` names the tokens between two cursors; for each reader
there is one statement of what it passes.
-/

namespace TestDouble

theorem toOption_eq_some {ε α : Type} {x : Except ε α} {a : α} (found : x.toOption = some a) :
    x = .ok a := by
  cases x with
  | error e => cases found
  | ok b => exact congrArg Except.ok (Option.some.inj found)

theorem exists_ok_of_isOk {ε α : Type} {x : Except ε α} (ok : x.isOk = true) : ∃ a, x = .ok a := by
  cases x with
  | error e => cases ok
  | ok a => exact ⟨a, rfl⟩

/-- A step that succeeds was preceded by one that succeeds. -/
theorem bind_eq_ok {ε α β : Type} {x : Except ε α} {f : α → Except ε β} {b : β}
    (returned : (x >>= f) = .ok b) : ∃ a, x = .ok a ∧ f a = .ok b := by
  cases x with
  | error e => simp [bind, Except.bind] at returned
  | ok a => exact ⟨a, rfl, returned⟩

/-- An error seen from outside does not change what a success returns. -/
theorem mapError_eq_ok {ε δ α : Type} {x : Except ε α} {f : ε → δ} {a : α}
    (returned : x.mapError f = .ok a) : x = .ok a := by
  cases x with
  | error e => cases returned
  | ok b => exact congrArg Except.ok (Except.ok.inj returned)

namespace Cursor

/-- The second cursor stands behind the given tokens, which come next at the first. -/
structure Passes (c : Cursor) (taken : List Token) (c' : Cursor) : Prop where
  ahead : c.ahead = taken ++ c'.ahead
  last : c'.last = taken.getLast?.or c.last

namespace Passes

variable {a b c : Cursor} {first second : List Token}

theorem refl (c : Cursor) : c.Passes [] c := ⟨rfl, rfl⟩

theorem one (before : Option Token) (token : Token) (rest : List Token) :
    Cursor.Passes ⟨before, token :: rest⟩ [token] ⟨some token, rest⟩ := ⟨rfl, rfl⟩

theorem trans (h₁ : a.Passes first b) (h₂ : b.Passes second c) : a.Passes (first ++ second) c := by
  refine ⟨by rw [h₁.ahead, h₂.ahead, List.append_assoc], ?_⟩
  rw [h₂.last, h₁.last, List.getLast?_append]
  cases second.getLast? <;> rfl

/-- Between two runs of tokens there is a place. -/
theorem split (h : a.Passes (first ++ second) c) : ∃ b, a.Passes first b ∧ b.Passes second c := by
  refine ⟨⟨first.getLast?.or a.last, second ++ c.ahead⟩, ⟨?_, rfl⟩, rfl, ?_⟩
  · rw [h.ahead, List.append_assoc]
  · rw [h.last, List.getLast?_append]
    cases second.getLast? <;> rfl

theorem uncons {t : Token} (h : a.Passes (t :: second) c) : ∃ b, a.Passes [t] b ∧ b.Passes second c := by
  rw [← List.singleton_append] at h
  exact h.split

theorem size_eq (h : a.Passes first b) : a.size = first.length + b.size := by
  simp [Cursor.size, h.ahead]

theorem length_le (h : a.Passes first b) : first.length ≤ a.size := by
  rw [h.size_eq]
  exact Nat.le_add_right ..

/-- The cursor behind some tokens is the one that skips as many. -/
theorem eq_skip (h : a.Passes first b) : ∃ within, b = a.skip first.length within := by
  refine ⟨h.length_le, ?_⟩
  obtain ⟨last, ahead⟩ := b
  obtain ⟨aheadEq, lastEq⟩ := h
  simp only at aheadEq lastEq
  simp [Cursor.skip, aheadEq, lastEq]

/-- There is one place behind as many tokens. -/
theorem unique (h : a.Passes first b) (again : a.Passes second c)
    (same : first.length = second.length) : b = c := by
  obtain ⟨_, rfl⟩ := h.eq_skip
  obtain ⟨_, rfl⟩ := again.eq_skip
  simp only [same]

theorem skip (c : Cursor) {n : Nat} (within : n ≤ c.size) :
    c.Passes (c.ahead.take n) (c.skip n within) :=
  ⟨(List.take_append_drop n c.ahead).symm, rfl⟩

end Passes

theorem accept?_eq_some {c : Cursor} {kind : Kind} {r : Consumed c Token}
    (found : c.accept? kind = some r) : c.Passes [r.value] r.cursor ∧ r.value.kind = kind := by
  obtain ⟨last, _ | ⟨token, rest⟩⟩ := c
  · simp [accept?] at found
  · simp only [accept?] at found
    split at found
    next same =>
      cases found
      exact ⟨.one .., same⟩
    next => simp at found

theorem acceptPair?_eq_some {c : Cursor} {first second : Kind} {r : Consumed c Token}
    (found : c.acceptPair? first second = some r) :
    ∃ t, c.Passes [t, r.value] r.cursor ∧ t.kind = first ∧ r.value.kind = second := by
  obtain ⟨last, _ | ⟨t₁, _ | ⟨t₂, rest⟩⟩⟩ := c
  · simp [acceptPair?] at found
  · simp [acceptPair?] at found
  · simp only [acceptPair?] at found
    split at found
    next same =>
      cases found
      exact ⟨t₁, ⟨rfl, rfl⟩, same⟩
    next => simp at found

theorem acceptWord?_eq_some {c : Cursor} {word : String} {r : Consumed c Token}
    (found : c.acceptWord? word = some r) :
    c.Passes [r.value] r.cursor ∧ r.value.kind = .identifier ∧ r.value.text = word := by
  obtain ⟨last, _ | ⟨token, rest⟩⟩ := c
  · simp [acceptWord?] at found
  · simp only [acceptWord?] at found
    split at found
    next same =>
      cases found
      exact ⟨.one .., same⟩
    next => simp at found

theorem expect_eq_ok {c : Cursor} {kind : Kind} {what : String} {r : Consumed c Token}
    (returned : c.expect kind what = .ok r) :
    c.Passes [r.value] r.cursor ∧ r.value.kind = kind := by
  simp only [expect] at returned
  split at returned
  next found =>
    cases returned
    exact accept?_eq_some found
  next => simp at returned

/-- An identifier is the text of the one token passed. -/
theorem identifier_eq_ok {c : Cursor} {r : Consumed c String} (returned : c.identifier = .ok r) :
    ∃ t, c.Passes [t] r.cursor ∧ t.kind = .identifier ∧ r.value = t.text := by
  obtain ⟨⟨token, c₁, h₁⟩, expected, finished⟩ := bind_eq_ok returned
  cases finished
  obtain ⟨passed, kind⟩ := expect_eq_ok expected
  exact ⟨token, passed, kind, rfl⟩

/-- Tokens that spell a dotted name: identifiers with a dot between two. -/
inductive SpellsName : List Token → String → Prop where
  | one {t : Token} : t.kind = .identifier → SpellsName [t] t.text
  | more {tokens : List Token} {name : String} {dot t : Token} :
      SpellsName tokens name → dot.kind = .dot → t.kind = .identifier →
      SpellsName (tokens ++ [dot, t]) (name ++ "." ++ t.text)

theorem nameTail_passes (origin c : Cursor) (within : c.size < origin.size) (name : String)
    {before : List Token} (spelled : SpellsName before name) :
    ∃ taken, c.Passes taken (nameTail origin c within name).cursor ∧
      SpellsName (before ++ taken) (nameTail origin c within name).value := by
  induction c, within, name using nameTail.induct origin generalizing before with
  | case1 c within name token c₁ h₁ found ih =>
    obtain ⟨dot, passed, dotKind, tokenKind⟩ := acceptPair?_eq_some found
    obtain ⟨taken, passes, spelled⟩ := ih (spelled.more dotKind tokenKind)
    rw [nameTail, found]
    exact ⟨[dot, token] ++ taken, passed.trans passes, by rwa [← List.append_assoc]⟩
  | case2 c within name missing =>
    rw [nameTail, missing]
    exact ⟨[], .refl c, by simpa using spelled⟩

theorem dottedName_eq_ok {c : Cursor} {r : Consumed c String} (returned : c.dottedName = .ok r) :
    ∃ taken, c.Passes taken r.cursor ∧ SpellsName taken r.value := by
  obtain ⟨⟨name, c₁, h₁⟩, named, finished⟩ := bind_eq_ok returned
  cases finished
  obtain ⟨token, passed, kind, rfl⟩ := identifier_eq_ok named
  obtain ⟨taken, passes, spelled⟩ := nameTail_passes c c₁ h₁ token.text (.one kind)
  exact ⟨[token] ++ taken, passed.trans passes, spelled⟩

theorem bracketPairs_passes (origin c : Cursor) (within : c.size ≤ origin.size) (n : Nat) :
    ∃ taken, c.Passes taken (bracketPairs origin c within n).cursor := by
  induction c, within, n using bracketPairs.induct origin with
  | case1 c within n token c₁ h₁ found ih =>
    obtain ⟨opening, passed, _⟩ := acceptPair?_eq_some found
    obtain ⟨taken, passes⟩ := ih
    rw [bracketPairs, found]
    exact ⟨_, passed.trans passes⟩
  | case2 c within n missing =>
    rw [bracketPairs, missing]
    exact ⟨[], .refl c⟩

theorem dimensions_passes (c : Cursor) : ∃ taken, c.Passes taken c.dimensions.cursor :=
  bracketPairs_passes c c c.size_le 0

/-- The tokens of several items, a separator between two of them. -/
inductive Separated {α : Type} (Item : List Token → α → Prop) (separator : Kind) :
    List Token → List α → Prop where
  | one {taken : List Token} {a : α} : Item taken a → Separated Item separator taken [a]
  | more {taken rest : List Token} {t : Token} {a : α} {items : List α} :
      Item taken a → t.kind = separator → Separated Item separator rest items →
      Separated Item separator (taken ++ t :: rest) (a :: items)

theorem sepByTail_eq_ok {α : Type} {Item : List Token → α → Prop} {origin : Cursor}
    {separator : Kind} {item : (c : Cursor) → c.size ≤ origin.size → Reading α c}
    (passes : ∀ c within r, item c within = .ok r → ∃ taken, c.Passes taken r.cursor ∧
      Item taken r.value)
    {c : Cursor} {within : c.size ≤ origin.size} {read : List α} {r : Consumed origin (List α)}
    (returned : sepByTail origin separator item c within read = .ok r) :
    ∃ taken items, c.Passes taken r.cursor ∧ r.value = read.reverse ++ items ∧
      Separated Item separator taken items := by
  induction c, within, read using sepByTail.induct origin with
  | case1 c within read ih =>
    rw [sepByTail] at returned
    obtain ⟨⟨value, c₁, h₁⟩, itemRead, continued⟩ := bind_eq_ok returned
    obtain ⟨taken, passed, ofItem⟩ := passes c within _ itemRead
    dsimp only at continued
    split at continued
    next token c₂ h₂ found =>
      obtain ⟨passedOne, kind⟩ := accept?_eq_some found
      obtain ⟨rest, items, passedRest, valueEq, separated⟩ := ih value c₁ h₁ c₂ h₂ continued
      refine ⟨taken ++ ([token] ++ rest), value :: items,
        passed.trans (passedOne.trans passedRest), ?_, .more ofItem kind separated⟩
      rw [valueEq]
      simp
    next =>
      cases continued
      exact ⟨taken, [value], passed, by simp, .one ofItem⟩

theorem sepBy_eq_ok {α : Type} (Item : List Token → α → Prop) {c : Cursor} {separator : Kind}
    {item : (c' : Cursor) → c'.size ≤ c.size → Reading α c'}
    (passes : ∀ c' within r, item c' within = .ok r → ∃ taken, c'.Passes taken r.cursor ∧
      Item taken r.value)
    {r : Consumed c (List α)} (returned : c.sepBy separator item = .ok r) :
    ∃ taken, c.Passes taken r.cursor ∧ Separated Item separator taken r.value := by
  obtain ⟨taken, items, passed, valueEq, separated⟩ := sepByTail_eq_ok passes returned
  rw [List.reverse_nil, List.nil_append] at valueEq
  exact ⟨taken, passed, valueEq ▸ separated⟩

/-- A clause passes nothing when its keyword is missing, and otherwise the keyword and the item. -/
theorem clause_eq_ok {α : Type} (Item : List Token → α → Prop) {c : Cursor} {kind : Kind}
    {item : (c' : Cursor) → c'.size ≤ c.size → Reading α c'}
    (passes : ∀ c' within r, item c' within = .ok r → ∃ taken, c'.Passes taken r.cursor ∧
      Item taken r.value)
    {r : Reached c (Option α)} (returned : c.clause kind item = .ok r) :
    ∃ taken, c.Passes taken r.cursor ∧
      ((r.value = none ∧ taken = []) ∨
        ∃ t rest a, r.value = some a ∧ taken = t :: rest ∧ t.kind = kind ∧ Item rest a) := by
  simp only [clause] at returned
  split at returned
  next token c₁ h₁ found =>
    obtain ⟨passedOne, keyword⟩ := accept?_eq_some found
    obtain ⟨⟨value, c₂, h₂⟩, itemRead, finished⟩ := bind_eq_ok returned
    cases finished
    obtain ⟨rest, passed, ofItem⟩ := passes c₁ _ _ itemRead
    exact ⟨[token] ++ rest, passedOne.trans passed,
      .inr ⟨token, rest, value, rfl, rfl, keyword, ofItem⟩⟩
  next =>
    cases returned
    exact ⟨[], .refl c, .inl ⟨rfl, rfl⟩⟩

end Cursor

/-! ### Source text as it stands -/

namespace Fragment

variable {c d : Cursor} {stops : List Token → Bool} {n : Nat} {ended : Bool}

/-- The next tokens are the first of those passed. -/
theorem ofNext_of_passes {first : Token} {more dropped : List Token}
    (passes : c.Passes (first :: more ++ dropped) d) (within : more.length + 1 ≤ c.size) :
    ofNext c more.length within = ofTokens first more := by
  obtain ⟨last, tokens⟩ := c
  obtain rfl : tokens = first :: (more ++ (dropped ++ d.ahead)) := by
    rw [← List.append_assoc]
    exact passes.ahead
  simp [ofNext]

/-- Tokens that are there are passed. -/
theorem exists_passes_of_le (within : n + 1 ≤ c.size) :
    ∃ first more, more.length = n ∧ c.Passes (first :: more) (c.skip (n + 1) within) := by
  obtain ⟨last, _ | ⟨first, rest⟩⟩ := c
  · cases within
  · refine ⟨first, rest.take n, List.length_take_of_le (Nat.le_of_succ_le_succ within), ?_⟩
    exact .skip ⟨last, first :: rest⟩ within

/-! The readers decide by a count and its equation together. They are unfolded for each outcome of
the scan here, and nowhere else. -/

theorem readValue_of_none (what : String) (counted : valueLength? stops c.ahead 0 0 = none) :
    readValue c what stops = .error (c.expectedAtEnd what) := by
  unfold readValue
  split <;> simp_all

/-- A value that is found to take no token is none. -/
theorem readValue_of_zero (what : String) (counted : valueLength? stops c.ahead 0 0 = some 0) :
    readValue c what stops = .error (c.expected what) := by
  unfold readValue
  split <;> simp_all

theorem readValue_of_succ (what : String)
    (counted : valueLength? stops c.ahead 0 0 = some (n + 1)) :
    ∃ within h, readValue c what stops = .ok ⟨ofNext c n within, c.skip (n + 1) within, h⟩ := by
  have within : n + 1 ≤ c.size := Nat.zero_add c.size ▸ valueLength?_le counted
  refine ⟨within, Cursor.size_skip_lt within (Nat.succ_pos n), ?_⟩
  unfold readValue
  split <;> simp_all

theorem readStatement_of_none (counted : statementLength? (c.seesWord "do") c.ahead 0 0 = none) :
    readStatement c = .error (c.expectedAtEnd "';' to end statement") := by
  unfold readStatement
  split <;> simp_all

theorem readStatement_of_zero
    (counted : statementLength? (c.seesWord "do") c.ahead 0 0 = some (0, ended)) :
    readStatement c = .error (c.expected "statement") := by
  unfold readStatement
  split <;> simp_all

theorem readStatement_of_succ
    (counted : statementLength? (c.seesWord "do") c.ahead 0 0 = some (n + 1, ended)) :
    ∃ within within' h, readStatement c =
      .ok ⟨ofNext c n within, c.skip (n + 1 + ended.toNat) within', h⟩ := by
  have within := statementLength?_le counted
  refine ⟨Nat.le_of_add_right_le within, within,
    Cursor.size_skip_lt within (Nat.add_pos_left (Nat.succ_pos n) _), ?_⟩
  unfold readStatement
  split <;> simp_all

/-- A value is the fragment of the tokens passed, as many as were counted. -/
theorem readValue_eq_ok {what : String} {r : Consumed c Fragment}
    (returned : readValue c what stops = .ok r) :
    ∃ first more, c.Passes (first :: more) r.cursor ∧ r.value = ofTokens first more ∧
      valueLength? stops c.ahead 0 0 = some (more.length + 1) := by
  rcases counted : valueLength? stops c.ahead 0 0 with _ | _ | n
  · rw [readValue_of_none what counted] at returned
    cases returned
  · rw [readValue_of_zero what counted] at returned
    cases returned
  · obtain ⟨within, h, read⟩ := readValue_of_succ what counted
    obtain rfl := Except.ok.inj (read.symm.trans returned)
    obtain ⟨first, more, rfl, passes⟩ := exists_passes_of_le within
    have whole : c.Passes (first :: more ++ []) (c.skip _ within) := by rwa [List.append_nil]
    exact ⟨first, more, passes, ofNext_of_passes whole within, rfl⟩

/-- Where a value was found to end behind some tokens, these are read. -/
theorem readValue_of_passes {first : Token} {more : List Token} (passes : c.Passes (first :: more) d)
    (counted : valueLength? stops c.ahead 0 0 = some (more.length + 1)) (what : String) :
    ∃ h, readValue c what stops = .ok ⟨ofTokens first more, d, h⟩ := by
  obtain ⟨within, h, read⟩ := readValue_of_succ what counted
  obtain ⟨_, rfl⟩ := passes.eq_skip
  have whole : c.Passes (first :: more ++ []) (c.skip _ within) := by rwa [List.append_nil]
  rw [ofNext_of_passes whole] at read
  exact ⟨h, read⟩

/-- What is passed behind a statement and not kept: the semicolon, where one ends it. -/
inductive Dropped : (ended : Bool) → List Token → Prop where
  | nothing : Dropped false []
  | semicolon {t : Token} : t.kind = .semicolon → Dropped true [t]

theorem Dropped.length_eq {dropped : List Token} (ends : Dropped ended dropped) :
    dropped.length = ended.toNat := by
  cases ends <;> rfl

theorem Dropped.eq_semicolon {dropped : List Token} (ends : Dropped true dropped) :
    ∃ t : Token, dropped = [t] ∧ t.kind = .semicolon := by
  generalize said : true = ended at ends
  cases ends with
  | nothing => cases said
  | @semicolon t kind => exact ⟨t, rfl, kind⟩

/-- A statement is the fragment of the tokens passed, as many as were counted, but for a semicolon
that ends it. -/
theorem readStatement_eq_ok {r : Consumed c Fragment} (returned : readStatement c = .ok r) :
    ∃ first more dropped ended, c.Passes (first :: more ++ dropped) r.cursor ∧
      r.value = ofTokens first more ∧
      statementLength? (c.seesWord "do") c.ahead 0 0 = some (more.length + 1, ended) ∧
      Dropped ended dropped := by
  rcases counted : statementLength? (c.seesWord "do") c.ahead 0 0 with _ | ⟨_ | n, ended⟩
  · rw [readStatement_of_none counted] at returned
    cases returned
  · rw [readStatement_of_zero counted] at returned
    cases returned
  obtain ⟨within, within', h, read⟩ := readStatement_of_succ counted
  obtain rfl := Except.ok.inj (read.symm.trans returned)
  obtain ⟨first, more, rfl, passes⟩ := exists_passes_of_le within
  obtain ⟨dropped, passed, ends⟩ : ∃ dropped,
      c.Passes (first :: more ++ dropped) (c.skip (more.length + 1 + ended.toNat) within') ∧
        Dropped ended dropped := by
    cases ended with
    | false => exact ⟨[], by simpa using passes, .nothing⟩
    | true =>
      -- The semicolon is passed with the statement, but is not one of its tokens.
      obtain ⟨k, same, -, semicolon⟩ := statementLength?_endsWithin counted
      obtain rfl : more.length + 1 = k := by omega
      obtain ⟨t, after, dropped, kind⟩ := semicolon rfl
      have passed : c.Passes (c.ahead.take (more.length + 1 + 1)) (c.skip _ within') :=
        .skip c within'
      have taken : c.ahead.take (more.length + 1 + 1) = first :: more ++ [t] := by
        rw [List.take_add, dropped, passes.ahead, List.take_left' (by simp)]
        rfl
      rw [taken] at passed
      exact ⟨[t], passed, .semicolon kind⟩
  exact ⟨first, more, dropped, ended, passed, ofNext_of_passes passed within, rfl, ends⟩

/-- Where a statement was found to end behind some tokens, these are read. -/
theorem readStatement_of_passes {first : Token} {more dropped : List Token}
    (passes : c.Passes (first :: more ++ dropped) d)
    (counted : statementLength? (c.seesWord "do") c.ahead 0 0 = some (more.length + 1, ended))
    (ends : Dropped ended dropped) :
    ∃ h, readStatement c = .ok ⟨ofTokens first more, d, h⟩ := by
  obtain ⟨within, within', h, read⟩ := readStatement_of_succ counted
  obtain rfl : d = c.skip (more.length + 1 + ended.toNat) within' := by
    obtain ⟨_, place⟩ := passes.eq_skip
    simp only [place, List.length_append, List.length_cons, ends.length_eq]
  rw [ofNext_of_passes passes] at read
  exact ⟨h, read⟩

end Fragment

/-! ### Blocks -/

namespace Block

private theorem read_and_readStatements_pass :
    (∀ c r, Block.read c = .ok r → ∃ taken, c.Passes taken r.cursor) ∧
    ∀ origin start c within count read r,
      readStatements origin start c within count read = .ok r → ∃ taken, c.Passes taken r.cursor := by
  apply Block.read.mutual_induct
  case case1 =>
    intro c ih r returned
    rw [Block.read] at returned
    obtain ⟨⟨brace, c₁, h₁⟩, opened, returned⟩ := bind_eq_ok returned
    obtain ⟨⟨statements, c₂, h₂⟩, closed, finished⟩ := bind_eq_ok returned
    cases finished
    obtain ⟨taken, passed⟩ := ih c₁ h₁ _ closed
    exact ⟨_, (Cursor.expect_eq_ok opened).1.trans passed⟩
  case case2 =>
    intro origin start c within count read full r returned
    simp [readStatements, full] at returned
  case case3 =>
    intro origin start c within count read open_ brace c₁ h₁ closing r returned
    rw [readStatements, if_neg open_, closing] at returned
    cases returned
    exact ⟨_, (Cursor.accept?_eq_some closing).1⟩
  case case4 =>
    intro origin start c within count read open_ notClosing semicolon c₁ h₁ found ih r returned
    rw [readStatements, if_neg open_, notClosing, found] at returned
    obtain ⟨taken, passed⟩ := ih r returned
    exact ⟨_, (Cursor.accept?_eq_some found).1.trans passed⟩
  case case5 =>
    intro origin start c within count read open_ notClosing notEmpty ended r returned
    simp [readStatements, open_, notClosing, notEmpty, ended] at returned
  case case6 =>
    intro origin start c within count read open_ notClosing notEmpty more nested ih ihRest r returned
    rw [readStatements, if_neg open_, notClosing, notEmpty] at returned
    simp only [more, nested, if_true] at returned
    obtain ⟨⟨block, c₁, h₁⟩, inner, returned⟩ := bind_eq_ok returned
    obtain ⟨first, passed⟩ := ih _ inner
    obtain ⟨taken, rest⟩ := ihRest block c₁ h₁ r returned
    exact ⟨_, passed.trans rest⟩
  case case7 =>
    intro origin start c within count read open_ notClosing notEmpty more notNested ihRest r returned
    rw [readStatements, if_neg open_, notClosing, notEmpty] at returned
    simp only [more, notNested] at returned
    obtain ⟨⟨fragment, c₁, h₁⟩, statement, returned⟩ := bind_eq_ok returned
    obtain ⟨first, others, dropped, _, passed, _⟩ := Fragment.readStatement_eq_ok statement
    obtain ⟨taken, rest⟩ := ihRest fragment c₁ h₁ r returned
    exact ⟨_, passed.trans rest⟩

theorem read_eq_ok {c : Cursor} {r : Consumed c Block} (returned : Block.read c = .ok r) :
    ∃ taken, c.Passes taken r.cursor :=
  read_and_readStatements_pass.1 c r returned

end Block

/-! ### Annotations and modifiers -/

/-- The source text of an argument. -/
def AnnotationArgument.text : AnnotationArgument → String
  | .value text => text
  | .named _ text => text

/-- The argument has the source text of a run of the tokens. -/
def AnnotationArgument.TakenFrom (taken : List Token) (a : AnnotationArgument) : Prop :=
  ∃ first more, first :: more <:+: taken ∧ a.text = (Fragment.ofTokens first more).text

theorem AnnotationArgument.TakenFrom.widen {taken wider : List Token} {a : AnnotationArgument}
    (from_ : a.TakenFrom taken) (within : taken <:+: wider) : a.TakenFrom wider := by
  obtain ⟨first, more, run, text⟩ := from_
  exact ⟨first, more, run.trans within, text⟩

/-- The annotation spans a run of the tokens, and its arguments are taken from there. -/
def Annotation.TakenFrom (taken : List Token) (a : Annotation) : Prop :=
  ∃ own, own <:+: taken ∧ own.head?.map Token.location = some a.span.start ∧
    own.getLast?.map Token.stop = some a.span.stop ∧
    ∀ argument ∈ a.arguments, argument.TakenFrom own

theorem Annotation.TakenFrom.widen {taken wider : List Token} {a : Annotation}
    (from_ : a.TakenFrom taken) (within : taken <:+: wider) : a.TakenFrom wider := by
  obtain ⟨own, run, spanned⟩ := from_
  exact ⟨own, run.trans within, spanned⟩

namespace Annotation

theorem readArgument_eq_ok {c : Cursor} {r : Consumed c AnnotationArgument}
    (returned : readArgument c = .ok r) :
    ∃ taken, c.Passes taken r.cursor ∧ r.value.TakenFrom taken := by
  simp only [readArgument] at returned
  split at returned
  next last key sign rest =>
    split at returned
    next named =>
      obtain ⟨⟨value, c₁, h₁⟩, scanned, finished⟩ := bind_eq_ok returned
      cases finished
      obtain ⟨first, more, passed, rfl, _⟩ := Fragment.readValue_eq_ok scanned
      exact ⟨[key, sign] ++ first :: more, .trans ⟨rfl, rfl⟩ passed, first, more,
        (List.suffix_append ..).isInfix, rfl⟩
    next =>
      obtain ⟨⟨value, c₁, h₁⟩, scanned, finished⟩ := bind_eq_ok returned
      cases finished
      obtain ⟨first, more, passed, rfl, _⟩ := Fragment.readValue_eq_ok scanned
      exact ⟨first :: more, passed, first, more, List.infix_refl _, rfl⟩
  next last ahead _ =>
    obtain ⟨⟨value, c₁, h₁⟩, scanned, finished⟩ := bind_eq_ok returned
    cases finished
    obtain ⟨first, more, passed, rfl, _⟩ := Fragment.readValue_eq_ok scanned
    exact ⟨first :: more, passed, first, more, List.infix_refl _, rfl⟩

/-- Each of the arguments is taken from the tokens that they are all read from. -/
theorem takenFrom_of_separated {separator : Kind} {taken : List Token}
    {arguments : List AnnotationArgument}
    (separated : Cursor.Separated (fun ts a => a.TakenFrom ts) separator taken arguments) :
    ∀ a ∈ arguments, a.TakenFrom taken := by
  induction separated with
  | one here => simpa using here
  | @more taken rest t a items here _ _ ih =>
    rw [List.forall_mem_cons]
    constructor
    · exact here.widen (List.prefix_append ..).isInfix
    · intro b member
      have behind : rest <:+ taken ++ t :: rest := ⟨taken ++ [t], by simp⟩
      exact (ih b member).widen behind.isInfix

theorem readArguments_eq_ok {c : Cursor} {r : Consumed c (List AnnotationArgument)}
    (returned : readArguments c = .ok r) :
    ∃ taken, c.Passes taken r.cursor ∧ ∀ a ∈ r.value, a.TakenFrom taken := by
  obtain ⟨⟨arguments, c₁, h₁⟩, listed, returned⟩ := bind_eq_ok returned
  obtain ⟨⟨paren, c₂, h₂⟩, closed, finished⟩ := bind_eq_ok returned
  cases finished
  have passedList : ∃ taken, c.Passes taken c₁ ∧ ∀ a ∈ arguments, a.TakenFrom taken := by
    split at listed
    next =>
      cases listed
      exact ⟨[], .refl c, nofun⟩
    next =>
      obtain ⟨⟨values, c', h'⟩, read, finished⟩ := bind_eq_ok listed
      cases finished
      obtain ⟨taken, passed, separated⟩ :=
        Cursor.sepBy_eq_ok (fun ts a => a.TakenFrom ts) (fun _ _ _ read => readArgument_eq_ok read) read
      exact ⟨taken, passed, takenFrom_of_separated separated⟩
  obtain ⟨taken, passed, each⟩ := passedList
  exact ⟨_, passed.trans (Cursor.expect_eq_ok closed).1,
    fun a member => (each a member).widen (List.prefix_append ..).isInfix⟩

/-- An annotation starts with its sign and takes its arguments from the tokens that it spans. -/
theorem read_eq_ok {c : Cursor} {r : Consumed c Annotation} (returned : read c = .ok r) :
    ∃ at_ rest, c.Passes (at_ :: rest) r.cursor ∧ at_.kind = .atSign ∧
      r.value.TakenFrom (at_ :: rest) := by
  obtain ⟨⟨at_, c₁, h₁⟩, opened, returned⟩ := bind_eq_ok returned
  obtain ⟨⟨name, c₂, h₂⟩, named, returned⟩ := bind_eq_ok returned
  obtain ⟨⟨arguments, c₃, h₃⟩, listed, finished⟩ := bind_eq_ok returned
  cases finished
  obtain ⟨passedSign, sign⟩ := Cursor.expect_eq_ok opened
  obtain ⟨segments, passedName, _⟩ := Cursor.dottedName_eq_ok named
  obtain ⟨values, passedValues, found⟩ :=
    Cursor.clause_eq_ok (fun ts as => ∀ a ∈ as, AnnotationArgument.TakenFrom ts a)
      (fun _ _ _ read => readArguments_eq_ok read) listed
  have passed := passedSign.trans (passedName.trans passedValues)
  refine ⟨at_, segments ++ values, passed, sign, at_ :: (segments ++ values), List.infix_refl _, ?_,
    ?_, ?_⟩
  · simp [Cursor.location, passed.ahead]
  · have last : c₃.last = some ((segments ++ values).getLast?.getD at_) := by
      rw [passed.last]
      exact congrArg (·.or c.last) List.getLast?_cons
    rw [Cursor.lastStop, last, List.getLast?_cons]
    rfl
  intro a member
  rcases found with ⟨rfl, -⟩ | ⟨t, inner, as, rfl, rfl, -, each⟩
  · simp at member
  · have behind : inner <:+ at_ :: (segments ++ t :: inner) := ⟨at_ :: segments ++ [t], by simp⟩
    exact (each a member).widen behind.isInfix

/-- Where no annotation comes next, none is passed. -/
theorem pass_of_not_comesNext {c : Cursor} (none : comesNext c = false) :
    pass c = .ok ⟨(), c, c.size_le⟩ := by
  rw [pass, passFrom]
  simp only [none]
  rfl

theorem passFrom_eq_ok {origin c : Cursor} {within : c.size ≤ origin.size}
    {r : Reached origin Unit} (returned : passFrom origin c within = .ok r) :
    ∃ taken, c.Passes taken r.cursor ∧
      (taken = [] ∨ ∃ at_ rest, taken = at_ :: rest ∧ at_.kind = .atSign) := by
  induction c, within using passFrom.induct origin with
  | case1 c within next ih =>
    rw [passFrom, if_pos next] at returned
    obtain ⟨⟨marked, c₁, h₁⟩, found, returned⟩ := bind_eq_ok returned
    obtain ⟨at_, rest, passed, sign, -⟩ := read_eq_ok found
    obtain ⟨taken, passedRest, _⟩ := ih c₁ h₁ returned
    exact ⟨at_ :: rest ++ taken, passed.trans passedRest, .inr ⟨at_, rest ++ taken, rfl, sign⟩⟩
  | case2 c within none =>
    rw [passFrom, if_neg none] at returned
    cases returned
    exact ⟨[], .refl c, .inl rfl⟩

/-- What is passed as annotations is nothing or starts with the sign of one. -/
theorem pass_eq_ok {c : Cursor} {r : Reached c Unit} (returned : pass c = .ok r) :
    ∃ taken, c.Passes taken r.cursor ∧
      (taken = [] ∨ ∃ at_ rest, taken = at_ :: rest ∧ at_.kind = .atSign) :=
  passFrom_eq_ok returned

end Annotation

namespace Qualifiers

theorem passSealed?_eq_some {c : Cursor} {r : Consumed c Token} (found : passSealed? c = some r) :
    ∃ taken, c.Passes taken r.cursor := by
  simp only [passSealed?] at found
  split at found
  next word =>
    cases found
    exact ⟨_, (Cursor.acceptWord?_eq_some word).1⟩
  next =>
    split at found
    next token rest words =>
      cases found
      unfold afterNonSealed? at words
      split at words
      next t₁ t₂ t₃ others ahead =>
        split at words
        next =>
          cases words
          exact ⟨[t₁, t₂, token], ahead, rfl⟩
        next => simp at words
      next => simp at words
    next => simp at found

theorem modifier?_eq_some {c : Cursor} {r : Consumed c Modifier} (found : modifier? c = some r) :
    ∃ t, c.Passes [t] r.cursor := by
  obtain ⟨last, _ | ⟨token, rest⟩⟩ := c
  · simp [modifier?] at found
  · simp only [modifier?] at found
    split at found
    next =>
      cases found
      exact ⟨token, .one ..⟩
    next => simp at found

/-- The cursor stands where no modifier and no annotation comes next. -/
structure Ended (c : Cursor) : Prop where
  annotation : Annotation.comesNext c = false
  modifier : modifier? c = none
  sealedWord : passSealed? c = none

theorem readFrom_eq_ok {origin c : Cursor} {within : c.size ≤ origin.size}
    {modifiers : ModifierSet} {annotations : List Annotation} {r : Reached origin Qualifiers}
    (returned : readFrom origin c within modifiers annotations = .ok r) :
    ∃ taken, c.Passes taken r.cursor ∧ Ended r.cursor ∧
      ∀ a ∈ r.value.annotations, a ∈ annotations ∨ a.TakenFrom taken := by
  have behind (front : List Token) {taken : List Token} {found : List Annotation}
      {a : Annotation} (from_ : a ∈ found ∨ a.TakenFrom taken) :
      a ∈ found ∨ a.TakenFrom (front ++ taken) :=
    from_.imp_right fun taken => taken.widen (List.suffix_append ..).isInfix
  -- The annotations read so far are known already; the others are taken from later tokens.
  induction c, within, modifiers, annotations using readFrom.induct origin with
  | case1 c within modifiers annotations next ih =>
    rw [readFrom, if_pos next] at returned
    obtain ⟨⟨marked, c₁, h₁⟩, found, returned⟩ := bind_eq_ok returned
    obtain ⟨at_, rest, passed, _, here⟩ := Annotation.read_eq_ok found
    obtain ⟨taken, passedRest, ended, each⟩ := ih marked c₁ h₁ returned
    refine ⟨_, passed.trans passedRest, ended, fun a member => ?_⟩
    rcases behind (at_ :: rest) (each a member) with known | later
    · rcases List.mem_cons.mp known with rfl | before
      · exact .inr (here.widen (List.prefix_append ..).isInfix)
      · exact .inl before
    · exact .inr later
  | case2 c within modifiers annotations none m c₁ h₁ found ih =>
    rw [readFrom, if_neg none, found] at returned
    obtain ⟨t, passed⟩ := modifier?_eq_some found
    obtain ⟨taken, passedRest, ended, each⟩ := ih returned
    exact ⟨_, passed.trans passedRest, ended, fun a member => behind [t] (each a member)⟩
  | case3 c within modifiers annotations none noModifier t c₁ h₁ found ih =>
    rw [readFrom, if_neg none, noModifier, found] at returned
    obtain ⟨words, passed⟩ := passSealed?_eq_some found
    obtain ⟨taken, passedRest, ended, each⟩ := ih returned
    exact ⟨_, passed.trans passedRest, ended, fun a member => behind words (each a member)⟩
  | case4 c within modifiers annotations none noModifier notSealed =>
    rw [readFrom, if_neg none, noModifier, notSealed] at returned
    cases returned
    exact ⟨[], .refl c, ⟨by simpa using none, noModifier, notSealed⟩,
      fun a member => .inl (by simpa using member)⟩

/-- Modifiers and annotations are passed as long as there are any. -/
theorem read_eq_ok {c : Cursor} {r : Reached c Qualifiers} (returned : read c = .ok r) :
    ∃ taken, c.Passes taken r.cursor ∧ Ended r.cursor ∧
      ∀ a ∈ r.value.annotations, a.TakenFrom taken := by
  obtain ⟨taken, passed, ended, each⟩ := readFrom_eq_ok returned
  exact ⟨taken, passed, ended, fun a member => (each a member).resolve_left List.not_mem_nil⟩

end Qualifiers

end TestDouble
