import TestDouble.Proofs.BlockCuts
import TestDouble.Proofs.TypeTokens

/-!
# Where initializers end

An initializer ends at a comma behind which another declarator seems to start: a name and one of the
signs that may follow it. Angle brackets are no brackets here, so the commas of type arguments are
commas like others. Over the tokens of a type the search for the end goes on exactly when none of its
commas looks like that; otherwise the initializer ends within the type, and then there is no way to
read the tokens behind it as declarators.
-/

namespace TestDouble

namespace Declarator

/-- Whether another declarator seems to start behind some comma of the tokens. -/
def appearsIn : List Token → Bool
  | [] => false
  | t :: ts => (t.kind == .comma && comesNext ts) || appearsIn ts

theorem appearsIn_eq {ts us : List Token} (same : ts.map Token.lexeme = us.map Token.lexeme) :
    appearsIn ts = appearsIn us := by
  induction ts generalizing us with
  | nil =>
    obtain rfl : us = [] := List.map_eq_nil_iff.mp same.symm
    rfl
  | cons t ts ih =>
    obtain ⟨u, us, rfl, lexeme, later⟩ := Fragment.uncons_lexemes same
    rw [appearsIn, appearsIn, Token.kind_eq_of_lexeme lexeme, comesNext_eq later, ih later]

/-- The angle bracket that is still to be closed keeps what stands behind it out of sight. -/
theorem comesNext_append {ts : List Token} (closed : .greater ∈ ts.map Token.kind)
    (rest : List Token) : comesNext (ts ++ rest) = comesNext ts := by
  rcases ts with _ | ⟨t, _ | ⟨u, ts⟩⟩
  · simp at closed
  · have kind : t.kind = .greater := (List.mem_singleton.mp closed).symm
    cases rest <;> simp [comesNext, kind]
  · rfl

end Declarator

namespace TypeTokens

variable {ts us : List Token}

theorem of_lexemes (tokens : TypeTokens ts) (same : ts.map Token.lexeme = us.map Token.lexeme) :
    TypeTokens us := by
  induction tokens generalizing us with
  | nil =>
    obtain rfl : us = [] := List.map_eq_nil_iff.mp same.symm
    exact .nil
  | one kind _ ih =>
    obtain ⟨u, us, rfl, lexeme, later⟩ := Fragment.uncons_lexemes same
    exact .one (by rwa [← Token.kind_eq_of_lexeme lexeme]) (ih later)
  | @comma t ts kind closed _ ih =>
    obtain ⟨u, us, rfl, lexeme, later⟩ := Fragment.uncons_lexemes same
    have kinds : ts.map Token.kind = us.map Token.kind := by
      have mapped := congrArg (List.map Lexeme.kind) later
      rwa [List.map_map, List.map_map] at mapped
    exact .comma (by rwa [← Token.kind_eq_of_lexeme lexeme]) (kinds ▸ closed) (ih later)
  | pair left right _ ih =>
    obtain ⟨u, us, rfl, first, later⟩ := Fragment.uncons_lexemes same
    obtain ⟨v, us, rfl, second, later⟩ := Fragment.uncons_lexemes later
    exact .pair (by rwa [← Token.kind_eq_of_lexeme first])
      (by rwa [← Token.kind_eq_of_lexeme second]) (ih later)

end TypeTokens

/-- A token that stands in a type for itself is no bracket to a search, and nothing ends at it. -/
theorem Kind.apart_of_inType {kind : Kind} (inType : kind.inType = true) :
    kind.opens = false ∧ kind.closes = false ∧ kind ≠ .comma ∧ kind ≠ .semicolon ∧ kind ≠ .assign ∧
      kind ≠ .leftBracket := by
  cases kind <;> first
    | exact absurd inType Bool.false_ne_true
    | exact ⟨rfl, rfl, nofun, nofun, nofun, nofun⟩

namespace Fragment

open Declarator (appearsIn endsInitializer)

variable {ts : List Token}

/-- A comma ends an initializer where another declarator seems to start behind it. -/
theorem valueLength?_comma {t : Token} (kind : t.kind = .comma) (n : Nat) :
    valueLength? endsInitializer (t :: ts) 0 n =
      if Declarator.comesNext ts then some n else valueLength? endsInitializer ts 0 (n + 1) := by
  simp [valueLength?, endsInitializer, kind, Kind.opens, Kind.closes]

/-- A token that stands in a type for itself is passed. -/
theorem valueLength?_inType {t : Token} (kind : t.kind.inType = true) (n : Nat) :
    valueLength? endsInitializer (t :: ts) 0 n = valueLength? endsInitializer ts 0 (n + 1) := by
  obtain ⟨notOpen, notClosed, notComma, notSemicolon, -, -⟩ := Kind.apart_of_inType kind
  simp [valueLength?, endsInitializer, notOpen, notClosed, notComma, notSemicolon]

/-- Two brackets with nothing between them are passed. -/
theorem valueLength?_pair {t u : Token} (opens : t.kind.opens = true)
    (closes : u.kind.opens = false ∧ u.kind.closes = true) (n : Nat) :
    valueLength? endsInitializer (t :: u :: ts) 0 n = valueLength? endsInitializer ts 0 (n + 2) := by
  simp [valueLength?, opens, closes]

/-- The tokens of a type are passed when none of its commas looks like one between declarators. -/
theorem valueLength?_through (tokens : TypeTokens ts) (none : appearsIn ts = false)
    (rest : List Token) (n : Nat) : valueLength? endsInitializer (ts ++ rest) 0 n =
      valueLength? endsInitializer rest 0 (n + ts.length) := by
  induction tokens generalizing n with
  | nil => simp
  | @one t ts kind _ ih =>
    have others : appearsIn ts = false := (Bool.or_eq_false_iff.mp none).2
    rw [List.cons_append, valueLength?_inType kind, ih others, List.length_cons]
    congr 1
    omega
  | @comma t ts kind closed _ ih =>
    rw [appearsIn, kind] at none
    obtain ⟨noName, others⟩ : Declarator.comesNext ts = false ∧ appearsIn ts = false := by
      simpa using none
    rw [List.cons_append, valueLength?_comma kind, Declarator.comesNext_append closed, noName,
      if_neg (by decide), ih others, List.length_cons]
    congr 1
    omega
  | @pair t u ts left right _ ih =>
    have others : appearsIn ts = false := by simpa [appearsIn, left, right] using none
    rw [List.cons_append, List.cons_append,
      valueLength?_pair (by rw [left]; rfl) (by rw [right]; exact ⟨rfl, rfl⟩), ih others,
      List.length_cons, List.length_cons]
    congr 1
    omega

/-- Otherwise the value ends at such a comma, and the bracket that closes the type stands behind it. -/
theorem valueLength?_cut (tokens : TypeTokens ts) (some_ : appearsIn ts = true) :
    ∃ before comma after, ts = before ++ comma :: after ∧ comma.kind = .comma ∧ TypeTokens after ∧
      .greater ∈ after.map Token.kind ∧
      ∀ rest n, valueLength? endsInitializer (ts ++ rest) 0 n = some (n + before.length) := by
  induction tokens with
  | nil => cases some_
  | @one t ts kind _ ih =>
    have others : appearsIn ts = true := by
      obtain ⟨-, -, notComma, -⟩ := Kind.apart_of_inType kind
      simpa [appearsIn, notComma] using some_
    obtain ⟨before, comma, after, rfl, isComma, behind, closed, cut⟩ := ih others
    refine ⟨t :: before, comma, after, rfl, isComma, behind, closed, fun rest n => ?_⟩
    rw [List.cons_append, valueLength?_inType kind, cut, List.length_cons]
    congr 1
    omega
  | @comma t ts kind closed tokens ih =>
    by_cases name : Declarator.comesNext ts = true
    -- The search ends at the first such comma; before it the tokens are passed as above.
    · refine ⟨[], t, ts, rfl, kind, tokens, closed, fun rest n => ?_⟩
      rw [List.cons_append, valueLength?_comma kind, Declarator.comesNext_append closed, if_pos name]
      rfl
    · have others : appearsIn ts = true := by simpa [appearsIn, name] using some_
      obtain ⟨before, comma, after, rfl, isComma, behind, closedBehind, cut⟩ := ih others
      refine ⟨t :: before, comma, after, rfl, isComma, behind, closedBehind, fun rest n => ?_⟩
      rw [List.cons_append, valueLength?_comma kind, Declarator.comesNext_append closed, if_neg name,
        cut, List.length_cons]
      congr 1
      omega
  | @pair t u ts left right _ ih =>
    have others : appearsIn ts = true := by simpa [appearsIn, left, right] using some_
    obtain ⟨before, comma, after, rfl, isComma, behind, closed, cut⟩ := ih others
    refine ⟨t :: u :: before, comma, after, rfl, isComma, behind, closed, fun rest n => ?_⟩
    rw [List.cons_append, List.cons_append,
      valueLength?_pair (by rw [left]; rfl) (by rw [right]; exact ⟨rfl, rfl⟩), cut, List.length_cons,
      List.length_cons]
    congr 1
    omega

/-- The value that constructs something of a type goes up to the bracket that closes the arguments,
when the tokens of the type are passed. -/
theorem valueLength?_construction (tokens : TypeTokens ts) (none : appearsIn ts = false)
    {new left right next : Token} {rest : List Token} (isNew : new.kind = .identifier)
    (isLeft : left.kind = .leftParen) (isRight : right.kind = .rightParen)
    (notBracket : next.kind.opens = false ∧ next.kind.closes = false)
    (ends : endsInitializer (next :: rest) = true) :
    valueLength? endsInitializer (new :: (ts ++ left :: right :: next :: rest)) 0 0 =
      some (ts.length + 3) := by
  rw [valueLength?_inType (by rw [isNew]; rfl), valueLength?_through tokens none,
    valueLength?_pair (by rw [isLeft]; rfl) (by rw [isRight]; exact ⟨rfl, rfl⟩)]
  simp only [valueLength?, notBracket, ends, Bool.false_eq_true, if_false, decide_true, Bool.and_self,
    if_true, Option.some.injEq]
  omega

end Fragment

/-! ### Declarators -/

namespace Cursor

variable {ts rest : List Token}

/-- The bracket pairs that come next are passed, and what is left of a type is still closed behind
them. -/
theorem bracketPairs_of_typeTokens {origin c : Cursor} {within : c.size ≤ origin.size} {n : Nat}
    (tokens : TypeTokens ts) (closed : .greater ∈ ts.map Token.kind) (ahead : c.ahead = ts ++ rest) :
    ∃ us, (bracketPairs origin c within n).cursor.ahead = us ++ rest ∧ TypeTokens us ∧
      .greater ∈ us.map Token.kind ∧ us.length ≤ ts.length := by
  have stay {c : Cursor} {within : c.size ≤ origin.size} {n : Nat} {t : Token} {ts : List Token}
      (ahead : c.ahead = t :: ts ++ rest) (other : t.kind ≠ .leftBracket) :
      (bracketPairs origin c within n).cursor.ahead = t :: ts ++ rest := by
    rw [bracketPairs, acceptPair?_eq_none (by simp [nextKind, ahead, other]), ahead]
  induction tokens generalizing c n with
  | nil => simp at closed
  | @one t ts kind tokens _ =>
    obtain ⟨-, -, -, -, -, notBracket⟩ := Kind.apart_of_inType kind
    exact ⟨t :: ts, stay ahead notBracket, .one kind tokens, closed, Nat.le_refl _⟩
  | @comma t ts kind closedBehind tokens _ =>
    exact ⟨t :: ts, stay ahead (by simp [kind]), .comma kind closedBehind tokens, closed, Nat.le_refl _⟩
  | @pair t u ts left right _ ih =>
    have closedBehind : .greater ∈ ts.map Token.kind := by simpa [left, right] using closed
    obtain ⟨last, tokens⟩ := c
    obtain rfl : tokens = t :: u :: (ts ++ rest) := ahead
    have found : acceptPair? ⟨last, t :: u :: (ts ++ rest)⟩ .leftBracket .rightBracket =
        some ⟨u, ⟨some u, ts ++ rest⟩, by simp only [size, List.length_cons]; omega⟩ := by
      rw [acceptPair?, if_pos ⟨left, right⟩]
    rw [bracketPairs, found]
    obtain ⟨us, aheadAgain, usTokens, usClosed, bound⟩ := ih (c := ⟨some u, ts ++ rest⟩) (n := n + 1)
      closedBehind rfl
    exact ⟨us, aheadAgain, usTokens, usClosed, by simp only [List.length_cons]; omega⟩

end Cursor

namespace Declarator

section

variable {origin c c₁ c₂ : Cursor} {within : c.size ≤ origin.size} {name : String}
  {read : List Declarator} {d : Declarator} {h₁ : c₁.size ≤ c.size}

/-- A name with its dimensions and an initializer, of which it is known where it ends. -/
theorem readRest_of_dimensions {n : Nat} {c₀ : Cursor} {h₀ : c₀.size ≤ c.size}
    (counted : c.dimensions = ⟨n, c₀, h₀⟩) {assign first : Token} {more : List Token}
    (passedAssign : c₀.Passes [assign] c₁) (isAssign : assign.kind = .assign)
    (passes : c₁.Passes (first :: more) c₂)
    (ends : Fragment.valueLength? endsInitializer c₁.ahead 0 0 = some (more.length + 1))
    (name : String) : ∃ h, readRest name c =
      .ok ⟨⟨name, n, some (Fragment.ofTokens first more), c₂.lastStop⟩, c₂, h⟩ := by
  obtain ⟨h, accepted⟩ := passedAssign.accept? isAssign
  obtain ⟨h', valueRead⟩ := Fragment.readValue_of_passes passes ends "field initializer"
  refine ⟨by omega, ?_⟩
  rw [readRest, counted]
  simp only [Cursor.clause, accepted, valueRead]
  rfl

/-- A name without dimensions. -/
theorem readRest_of_passes {assign first : Token} {more : List Token}
    (passedAssign : c.Passes [assign] c₁) (isAssign : assign.kind = .assign)
    (passes : c₁.Passes (first :: more) c₂)
    (ends : Fragment.valueLength? endsInitializer c₁.ahead 0 0 = some (more.length + 1))
    (name : String) : ∃ h, readRest name c =
      .ok ⟨⟨name, 0, some (Fragment.ofTokens first more), c₂.lastStop⟩, c₂, h⟩ := by
  have next : c.nextKind = some .assign := by rw [passedAssign.nextKind, isAssign]
  exact readRest_of_dimensions (Cursor.dimensions_of_nextKind (by simp [next])) passedAssign isAssign
    passes ends name

/-- The last declarator, before the semicolon. -/
theorem readAll_of_semicolon (rested : readRest name c = .ok ⟨d, c₁, h₁⟩) {semicolon : Token}
    (passed : c₁.Passes [semicolon] c₂) (isSemicolon : semicolon.kind = .semicolon) :
    ∃ h, readAll origin c within name read = .ok ⟨(d :: read).reverse, c₂, h⟩ := by
  obtain ⟨h, accepted⟩ := passed.accept? isSemicolon
  have noComma : c₁.accept? .comma = none :=
    Cursor.accept?_eq_none (by simp [passed.nextKind, isSemicolon])
  refine ⟨by omega, ?_⟩
  rw [readAll, rested, ok_bind]
  simp only [noComma, Cursor.expect, accepted]
  rfl

/-- A declarator before a comma, behind which the name of the next one is taken. -/
theorem readAll_of_comma (rested : readRest name c = .ok ⟨d, c₁, h₁⟩) {comma next : Token}
    {c₃ : Cursor} (passedComma : c₁.Passes [comma] c₂) (isComma : comma.kind = .comma)
    (passedName : c₂.Passes [next] c₃) (isName : next.kind = .identifier) :
    ∃ h, readAll origin c within name read = readAll origin c₃ h next.text (d :: read) := by
  obtain ⟨h, accepted⟩ := passedComma.accept? isComma
  obtain ⟨h', acceptedName⟩ := passedName.accept? isName
  refine ⟨by omega, ?_⟩
  rw [readAll, rested, ok_bind]
  simp only [accepted, Cursor.identifier, Cursor.expect, acceptedName]
  rfl

end

/-- Before the tokens of a type that is still to be closed, only bracket pairs belong to a name: no
initializer starts in a type. -/
theorem readRest_of_typeTokens {ts rest : List Token} (tokens : TypeTokens ts)
    (closed : .greater ∈ ts.map Token.kind) {c : Cursor} (ahead : c.ahead = ts ++ rest)
    (name : String) : ∃ d c₁ h us, readRest name c = .ok ⟨d, c₁, h⟩ ∧ c₁.ahead = us ++ rest ∧
      TypeTokens us ∧ .greater ∈ us.map Token.kind ∧ us.length ≤ ts.length := by
  obtain ⟨us, aheadBehind, usTokens, usClosed, bound⟩ :
      ∃ us, c.dimensions.cursor.ahead = us ++ rest ∧ TypeTokens us ∧
        Kind.greater ∈ us.map Token.kind ∧ us.length ≤ ts.length :=
    Cursor.bracketPairs_of_typeTokens tokens closed ahead
  have noInitializer : c.dimensions.cursor.nextKind ≠ some .assign := by
    cases usTokens with
    | nil => simp at usClosed
    | one kind _ =>
      obtain ⟨-, -, -, -, notAssign, -⟩ := Kind.apart_of_inType kind
      simp [Cursor.nextKind, aheadBehind, notAssign]
    | comma kind _ _ | pair kind _ _ => simp [Cursor.nextKind, aheadBehind, kind]
  refine ⟨⟨name, c.dimensions.value, none, c.dimensions.cursor.lastStop⟩, c.dimensions.cursor,
    c.dimensions.notLonger, us, ?_, aheadBehind, usTokens, usClosed, bound⟩
  rw [readRest]
  simp only [Cursor.clause_of_nextKind noInitializer, ok_bind]
  rfl

/-- The tokens of a type that is still to be closed are no declarators: a comma and a name may be
passed, but the bracket that closes the type may not. -/
theorem readAll_of_typeTokens {ts rest : List Token} (tokens : TypeTokens ts)
    (closed : .greater ∈ ts.map Token.kind) {origin c c₁ : Cursor} {within : c.size ≤ origin.size}
    {name : String} {read : List Declarator} {d : Declarator} {h₁ : c₁.size ≤ c.size}
    (rested : readRest name c = .ok ⟨d, c₁, h₁⟩) (ahead : c₁.ahead = ts ++ rest) :
    ∃ e, readAll origin c within name read = .error e := by
  -- Where no comma comes next, a semicolon was expected.
  have refused {t : Token} (next : c₁.nextKind = some t.kind) (notComma : t.kind ≠ .comma)
      (notSemicolon : t.kind ≠ .semicolon) : ∃ e, readAll origin c within name read = .error e := by
    have noComma : c₁.accept? .comma = none :=
      Cursor.accept?_eq_none (by simp [next, notComma])
    rw [readAll, rested, ok_bind]
    simp only [noComma]
    rw [Cursor.expect, Cursor.accept?_eq_none (by simp [next, notSemicolon])]
    exact ⟨_, rfl⟩
  cases tokens with
  | nil => simp at closed
  | @one t ts kind _ =>
    obtain ⟨-, -, notComma, notSemicolon, -, -⟩ := Kind.apart_of_inType kind
    exact refused (t := t) (by simp [Cursor.nextKind, ahead]) notComma notSemicolon
  | @pair t u ts left _ _ =>
    exact refused (t := t) (by simp [Cursor.nextKind, ahead]) (by simp [left]) (by simp [left])
  | @comma t ts kind closedBehind tokens =>
    obtain ⟨h, found⟩ := (Cursor.passes_of_ahead ahead).accept? kind
    rw [readAll, rested, ok_bind]
    simp only [found]
    cases named : Cursor.identifier ⟨some t, ts ++ rest⟩ with
    | error e => exact ⟨e, rfl⟩
    | ok r =>
      obtain ⟨t, passedName, isName, -⟩ := Cursor.identifier_eq_ok named
      have behind : ts ++ rest = [t] ++ r.cursor.ahead := passedName.ahead
      cases tokens with
      | nil => simp at closedBehind
      | comma kind | pair kind =>
        obtain ⟨rfl, -⟩ := List.cons.inj behind
        rw [isName] at kind
        cases kind
      | @one t ts kind tokens =>
        obtain ⟨rfl, others⟩ := List.cons.inj behind
        -- A name and bracket pairs behind the comma start a declarator; less of the type is left.
        obtain ⟨d, c₂, h₂, us, restedBehind, aheadBehind, usTokens, usClosed, bound⟩ :=
          readRest_of_typeTokens tokens (by simpa [isName] using closedBehind) others.symm r.value
        exact readAll_of_typeTokens usTokens usClosed restedBehind aheadBehind
termination_by ts.length
decreasing_by
  subst_vars
  simp only [List.length_cons]
  omega

end Declarator

end TestDouble
