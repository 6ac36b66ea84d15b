import TestDouble.Proofs.Exchange
import TestDouble.Proofs.TokensDecide

/-!
# Headers of types known by name only

The header of an enumeration, a record or an annotation type is passed by counting: parentheses and
angle brackets count alike, and closing ones count for nothing where none is open. Main statement:
`CompilationUnit.read_by_name_iff`. The declaration ends at the brace behind its body exactly when the
header counts out, which headers do where angle brackets are nested with all other brackets. An angle
bracket that is an operator can spoil the count.
-/

namespace TestDouble

/-! ### Headers -/

namespace Token

/-- How many parentheses and angle brackets open. -/
def deepening (ts : List Token) : Nat := ts.countP fun t => t.kind == .leftParen || t.kind == .less

/-- How many parentheses and angle brackets close. -/
def surfacing (ts : List Token) : Nat :=
  ts.countP fun t => t.kind == .rightParen || t.kind == .greater

/-- The tokens outside all parentheses, `depth` of which are open. -/
def outside : (depth : Nat) → List Token → List Token
  | _, [] => []
  | depth, t :: ts =>
    if t.kind = .leftParen then outside (depth + 1) ts
    else if t.kind = .rightParen then outside (depth - 1) ts
    else if depth = 0 then t :: outside depth ts
    else outside depth ts

end Token

namespace Kind

/-- The pair of angle brackets. -/
def angles : List (Kind × Kind) := [(.less, .greater)]

end Kind

/-- The words that introduce a type known by name only. -/
inductive NominalKind.IntroducedBy : NominalKind → List Token → Prop where
  | enumeration {t : Token} : t.kind = .enumWord → IntroducedBy .enumeration [t]
  | annotationType {sign t : Token} : sign.kind = .atSign → t.kind = .interfaceWord →
      IntroducedBy .annotationType [sign, t]
  | record {t : Token} : t.kind = .identifier → t.text = "record" → IntroducedBy .record [t]

namespace NominalDecl

open Token (deepening surfacing outside)

/-- A header: its brackets are properly nested, and outside parentheses there is no brace and angle
brackets are properly nested too. Inside parentheses they may also be operators. -/
structure IsHeader (header : List Token) : Prop where
  nested : Token.Nested Kind.brackets [] header
  noBrace : ∀ t ∈ outside 0 header, t.kind ≠ .leftBrace
  angles : Token.Nested Kind.angles [] (outside 0 header)

instance (header : List Token) : Decidable (IsHeader header) :=
  decidable_of_iff (Token.Nested Kind.brackets [] header ∧
      (∀ t ∈ outside 0 header, t.kind ≠ .leftBrace) ∧ Token.Nested Kind.angles [] (outside 0 header))
    ⟨fun parts => ⟨parts.1, parts.2.1, parts.2.2⟩, fun h => ⟨h.nested, h.noBrace, h.angles⟩⟩

/-- A header that counts out: none of its ends has more parentheses and angle brackets that open than
such that close, and some are left open before each of its braces. -/
structure CountsOut (header : List Token) : Prop where
  even : ∀ late, late <:+ header → deepening late ≤ surfacing late
  inside : ∀ before brace after, header = before ++ brace :: after → brace.kind = .leftBrace →
    ∃ late, late <:+ before ∧ surfacing late < deepening late

/-! ### Counting -/

/-- The depth behind a token of a header. -/
def depthAfter (depth : Nat) (t : Token) : Nat :=
  if t.kind = .leftParen ∨ t.kind = .less then depth + 1
  else if t.kind = .rightParen ∨ t.kind = .greater then depth - 1
  else depth

/-- Away from a brace at no depth the scan of a header goes on. -/
theorem headerLength?_cons {t : Token} {depth : Nat} (goesOn : t.kind = .leftBrace → 0 < depth)
    (rest : List Token) (n : Nat) :
    headerLength? (t :: rest) depth n = headerLength? rest (depthAfter depth t) (n + 1) := by
  rw [headerLength?, depthAfter]
  split
  next brace =>
    rw [if_neg (Nat.ne_of_gt (goesOn brace))]
    simp [brace]
  all_goals simp_all

/-- The scan comes to the brace behind some tokens exactly when these end at no depth and each of
their braces is at some depth. -/
theorem headerLength?_append_iff {header rest : List Token} {opening : Token}
    (opens : opening.kind = .leftBrace) (depth n : Nat) :
    headerLength? (header ++ opening :: rest) depth n = some (n + header.length) ↔
      header.foldl depthAfter depth = 0 ∧
        ∀ before brace after, header = before ++ brace :: after → brace.kind = .leftBrace →
          0 < before.foldl depthAfter depth := by
  induction header generalizing depth n with
  | nil =>
    rw [List.nil_append, headerLength?, opens]
    by_cases flat : depth = 0
    · simp [flat]
    · have later : headerLength? rest depth (n + 1) ≠ some n := fun found =>
        absurd (headerLength?_ge found) (by omega)
      simp [flat, later]
  | cons t header ih =>
    -- The first brace is asked for its depth here, the others behind the first token.
    have braces : (∀ before brace after, t :: header = before ++ brace :: after →
          brace.kind = .leftBrace → 0 < before.foldl depthAfter depth) ↔
        (t.kind = .leftBrace → 0 < depth) ∧
          ∀ before brace after, header = before ++ brace :: after → brace.kind = .leftBrace →
            0 < before.foldl depthAfter (depthAfter depth t) := by
      constructor
      · intro all
        exact ⟨all [] t header rfl, fun before brace after split =>
          all (t :: before) brace after (congrArg (t :: ·) split)⟩
      · rintro ⟨first, others⟩ before brace after split
        cases before with
        | nil =>
          obtain ⟨rfl, -⟩ := List.cons.inj split
          exact first
        | cons u before =>
          obtain ⟨rfl, later⟩ := List.cons.inj split
          exact others before brace after later
    rw [braces, List.cons_append, List.foldl_cons, List.length_cons]
    by_cases goesOn : t.kind = .leftBrace → 0 < depth
    · rw [headerLength?_cons goesOn, and_iff_right goesOn, Nat.add_comm header.length,
        ← Nat.add_assoc]
      exact ih (depthAfter depth t) (n + 1)
    · -- The scan ends at this brace already.
      obtain ⟨brace, flat⟩ : t.kind = .leftBrace ∧ depth = 0 := by simpa using goesOn
      simp [headerLength?, brace, flat]

theorem deepening_concat (ts : List Token) (t : Token) : deepening (ts ++ [t]) =
    deepening ts + if t.kind = .leftParen ∨ t.kind = .less then 1 else 0 := by
  simp [deepening, List.countP_append, List.countP_singleton]

theorem surfacing_concat (ts : List Token) (t : Token) : surfacing (ts ++ [t]) =
    surfacing ts + if t.kind = .rightParen ∨ t.kind = .greater then 1 else 0 := by
  simp [surfacing, List.countP_append, List.countP_singleton]

/-- The depth behind some tokens is the greatest number of brackets that any end of them leaves
open. -/
theorem lt_depth_iff (ts : List Token) (k : Nat) :
    k < ts.foldl depthAfter 0 ↔ ∃ late, late <:+ ts ∧ surfacing late + k < deepening late := by
  induction ts using List.reverseRecOn generalizing k with
  | nil => simp [deepening, surfacing]
  | append_singleton ts t ih =>
    rw [List.foldl_concat]
    -- An end that is not empty is an end of the tokens before the last one, and this one.
    have ends : (∃ late, late <:+ ts ++ [t] ∧ surfacing late + k < deepening late) ↔
        ∃ late, late <:+ ts ∧ surfacing (late ++ [t]) + k < deepening (late ++ [t]) := by
      constructor
      · rintro ⟨late, ends, more⟩
        rcases List.suffix_concat_iff.mp ends with rfl | ⟨front, rfl, endsFront⟩
        · simp [deepening] at more
        · exact ⟨front, endsFront, more⟩
      · rintro ⟨late, ends, more⟩
        exact ⟨late ++ [t], List.suffix_concat_iff.mpr (.inr ⟨late, rfl, ends⟩), more⟩
    rw [ends]
    simp only [deepening_concat, surfacing_concat]
    rw [depthAfter]
    by_cases deeper : t.kind = .leftParen ∨ t.kind = .less
    · have notOut : ¬ (t.kind = .rightParen ∨ t.kind = .greater) := by
        rcases deeper with kind | kind <;> simp [kind]
      simp only [if_pos deeper, if_neg notOut, Nat.add_zero]
      cases k with
      | zero => exact iff_of_true (Nat.succ_pos _) ⟨[], List.nil_suffix, by simp [surfacing]⟩
      | succ k =>
        rw [Nat.add_lt_add_iff_right, ih]
        simp only [← Nat.add_assoc, Nat.add_lt_add_iff_right]
    · simp only [if_neg deeper, Nat.add_zero]
      by_cases out : t.kind = .rightParen ∨ t.kind = .greater
      · simp only [if_pos out]
        rw [Nat.lt_sub_iff_add_lt, ih]
        simp only [Nat.add_assoc, Nat.add_comm 1]
      · simp only [if_neg out, Nat.add_zero]
        exact ih k

theorem headerLength?_eq_length_iff {header rest : List Token} {opening : Token}
    (opens : opening.kind = .leftBrace) :
    headerLength? (header ++ opening :: rest) 0 0 = some header.length ↔ CountsOut header := by
  have scanned := @headerLength?_append_iff header rest opening opens 0 0
  rw [Nat.zero_add] at scanned
  rw [scanned]
  constructor
  · rintro ⟨flat, braces⟩
    constructor
    · intro late ends
      by_contra more
      have deep := (lt_depth_iff header 0).mpr ⟨late, ends, by omega⟩
      omega
    · intro before brace after split kind
      exact (lt_depth_iff before 0).mp (braces before brace after split kind)
  · rintro ⟨even, inside⟩
    refine ⟨?_, fun before brace after split kind => ?_⟩
    · have none : ¬ 0 < header.foldl depthAfter 0 := by
        rintro deep
        obtain ⟨late, ends, more⟩ := (lt_depth_iff header 0).mp deep
        have bound := even late ends
        omega
      omega
    · exact (lt_depth_iff before 0).mpr (inside before brace after split kind)

/-- How many of the closing brackets that are awaited the scan of a header counts. -/
def counted (awaited : List Kind) : Nat :=
  awaited.countP fun kind => kind == .rightParen || kind == .greater

/-- The four pairs of brackets. -/
def allBrackets : List (Kind × Kind) := Kind.angles ++ Kind.brackets

/-- What a token does to all closing brackets that are awaited, it does to the depth and to the number
of open parentheses. -/
theorem depthAfter_of_nests {awaited awaited' : List Kind} {t : Token}
    (nests : Kind.Nests allBrackets awaited t.kind awaited') :
    depthAfter (counted awaited) t = counted awaited' ∧
      awaited'.count .rightParen =
        if t.kind = .leftParen then awaited.count .rightParen + 1
        else if t.kind = .rightParen then awaited.count .rightParen - 1
        else awaited.count .rightParen := by
  rw [depthAfter]
  generalize t.kind = k at nests
  cases nests with
  | @opens _ closer _ found =>
    have listed := Kind.mem_of_lookup found
    simp only [allBrackets, Kind.angles, Kind.brackets, List.cons_append, List.nil_append,
      List.mem_cons, Prod.mk.injEq, List.not_mem_nil, or_false] at listed
    rcases listed with ⟨rfl, rfl⟩ | ⟨rfl, rfl⟩ | ⟨rfl, rfl⟩ | ⟨rfl, rfl⟩ <;> simp [counted]
  | closes notOpen closes =>
    simp only [allBrackets, Kind.angles, Kind.brackets, List.cons_append, List.nil_append,
      List.map_cons, List.map_nil, List.mem_cons, List.not_mem_nil, or_false] at closes
    rcases closes with rfl | rfl | rfl | rfl <;> simp [counted]
  | passes notOpen notClosed =>
    have notOpen := Kind.not_mem_of_lookup notOpen
    simp only [allBrackets, Kind.angles, Kind.brackets, List.cons_append, List.nil_append,
      List.map_cons, List.map_nil, List.mem_cons, List.not_mem_nil, or_false, not_or] at notOpen notClosed
    simp [notOpen, notClosed]

/-- The scan comes to the brace behind nested tokens whose braces are all inside parentheses. -/
theorem headerLength?_of_nested {awaited : List Kind} {header rest : List Token} {opening : Token}
    (nested : Token.Nested allBrackets awaited header)
    (noBrace : ∀ t ∈ outside (awaited.count .rightParen) header, t.kind ≠ .leftBrace)
    (opens : opening.kind = .leftBrace) (n : Nat) :
    headerLength? (header ++ opening :: rest) (counted awaited) n = some (n + header.length) := by
  induction header generalizing awaited n with
  | nil =>
    obtain rfl := Token.nested_nil_iff.mp nested
    rw [List.nil_append, headerLength?, opens]
    rfl
  | cons t header ih =>
    obtain ⟨awaited', nests, later⟩ := Token.nested_cons_iff.mp nested
    obtain ⟨depth, parens⟩ := depthAfter_of_nests nests
    have inside : t.kind = .leftBrace → 0 < counted awaited := by
      intro brace
      have deep : 0 < awaited.count .rightParen := by
        by_contra flat
        refine noBrace t ?_ brace
        rw [outside, if_neg (by simp [brace]), if_neg (by simp [brace]), if_pos (by omega)]
        exact List.mem_cons_self
      rw [List.count_pos_iff] at deep
      exact List.countP_pos_iff.mpr ⟨_, deep, rfl⟩
    have noBraceLater : ∀ u ∈ outside (awaited'.count .rightParen) header, u.kind ≠ .leftBrace := by
      intro u member
      apply noBrace u
      rw [parens] at member
      rw [outside]
      split_ifs at member ⊢ <;> simp_all
    rw [List.cons_append, headerLength?_cons inside, depth, ih later noBraceLater, List.length_cons,
      Nat.add_assoc, Nat.add_comm 1]

/-- A header counts out when angle brackets are properly nested with all its other brackets, inside
parentheses too. -/
theorem IsHeader.countsOut {header : List Token} (isHeader : IsHeader header)
    (nested : Token.Nested allBrackets [] header) : CountsOut header := by
  let opening : Token := ⟨.leftBrace, "\x7b", .origin, ""⟩
  have scanned := @headerLength?_of_nested [] header [] opening nested isHeader.noBrace rfl 0
  rw [Nat.zero_add] at scanned
  exact (headerLength?_eq_length_iff rfl).mp scanned

/-! ### Reading -/

section

variable {header body after : List Token} {opening closing : Token}

theorem skip_around (last : Option Token) (header body after : List Token) (opening closing : Token) :
    ∃ within, Cursor.skip ⟨last, header ++ opening :: (body ++ closing :: after)⟩
      (header.length + 1 + (body.length + 1)) within = ⟨some closing, after⟩ := by
  have passes : Cursor.Passes ⟨last, header ++ opening :: (body ++ closing :: after)⟩
      (header ++ opening :: body ++ [closing]) ⟨some closing, after⟩ :=
    ⟨by simp, by rw [List.getLast?_concat, Option.some_or]⟩
  have length : (header ++ opening :: body ++ [closing]).length =
      header.length + 1 + (body.length + 1) := by
    simp [Nat.add_assoc, Nat.add_comm 1]
  obtain ⟨within, place⟩ := passes.eq_skip
  simp only [length] at within place
  exact ⟨within, place.symm⟩

/-- What stands behind the name is passed up to the brace that closes the body exactly when the header
counts out. -/
theorem passBody_iff (opens : opening.kind = .leftBrace) (nested : Token.Nested Kind.braces [] body)
    (closes : closing.kind = .rightBrace) (last : Option Token) :
    (∃ h, passBody ⟨last, header ++ opening :: (body ++ closing :: after)⟩ =
      .ok ⟨(), ⟨some closing, after⟩, h⟩) ↔ CountsOut header := by
  have closed := bodyLength?_of_closed nested closes after
  rw [passBody_eq_ok_iff,
    ← @headerLength?_eq_length_iff header (body ++ closing :: after) opening opens]
  dsimp only
  constructor
  · rintro ⟨n, m, counted, bodyCounted, within, skipped⟩
    obtain ⟨front, brace, rest, whole, rfl, isBrace⟩ := headerLength?_eq_some counted
    rw [Nat.zero_add] at counted bodyCounted
    rw [whole, List.append_cons, List.drop_left' (by simp)] at bodyCounted
    obtain ⟨inside, last', rest', rfl, rfl, -⟩ := bodyLength?_eq_some bodyCounted
    rw [Nat.zero_add] at bodyCounted
    obtain ⟨_, around⟩ := skip_around last front inside rest' brace last'
    simp only [whole, Nat.zero_add, around] at skipped
    obtain ⟨sameClosing, sameAfter⟩ := Cursor.mk.inj skipped
    obtain rfl := Option.some.inj sameClosing
    subst sameAfter
    have same : front ++ brace :: inside = header ++ opening :: body := by
      have around : (front ++ brace :: inside) ++ last' :: rest' =
          (header ++ opening :: body) ++ last' :: rest' := by simpa using whole.symm
      exact List.append_cancel_right around
    -- Both braces open what the last one closes, so they are the same.
    obtain ⟨rfl, rfl⟩ := bodyLength?_opening same isBrace opens bodyCounted closed
    rw [counted, List.append_cancel_right same]
  · intro counted
    refine ⟨header.length, body.length + 1, counted, ?_, skip_around ..⟩
    rwa [List.append_cons, List.drop_left' (by simp)]

end

end NominalDecl

namespace NominalKind.IntroducedBy

variable {kind : NominalKind} {words : List Token} {name : Token}

/-- The words that introduce a type known by name only are no modifiers or annotations. -/
theorem qualifiers (introduced : kind.IntroducedBy words) (named : name.kind = .identifier)
    (last : Option Token) (rest : List Token) :
    Qualifiers.read ⟨last, words ++ name :: rest⟩ =
      .ok ⟨⟨.empty, []⟩, ⟨last, words ++ name :: rest⟩, Cursor.size_le _⟩ := by
  have noMark : Annotation.comesNext ⟨last, words ++ name :: rest⟩ = false := by
    cases introduced <;> simp_all [Cursor.sees, Annotation.comesNext]
  have noModifier : Qualifiers.modifier? ⟨last, words ++ name :: rest⟩ = none := by
    cases introduced <;> simp_all [Qualifiers.modifier?]
  have noSealed : Cursor.acceptWord? ⟨last, words ++ name :: rest⟩ "sealed" = none := by
    cases introduced <;> simp_all [Cursor.acceptWord?]
  have noNonSealed : Qualifiers.afterNonSealed? (words ++ name :: rest) = none := by
    cases introduced <;> cases rest <;> simp_all [Qualifiers.afterNonSealed?]
  rw [Qualifiers.read, Qualifiers.readFrom, if_neg (by simp [noMark]), noModifier,
    Qualifiers.passSealed?_of_none noSealed noNonSealed]
  rfl

/-- The words are taken for what they introduce. -/
theorem kind? (introduced : kind.IntroducedBy words) (last : Option Token) (rest : List Token) :
    Cursor.accept? ⟨last, words ++ rest⟩ .classWord = none ∧
    Cursor.accept? ⟨last, words ++ rest⟩ .interfaceWord = none ∧
    ∃ t h, NominalDecl.kind? ⟨last, words ++ rest⟩ = some ⟨kind, ⟨some t, rest⟩, h⟩ := by
  cases introduced with
  | @enumeration t isEnum =>
    have next : Cursor.nextKind ⟨last, t :: rest⟩ = some .enumWord := congrArg some isEnum
    refine ⟨Cursor.accept?_eq_none (by simp [next]), Cursor.accept?_eq_none (by simp [next]), t,
      Cursor.size_tail_lt .., ?_⟩
    simp [NominalDecl.kind?, Cursor.accept?, isEnum]
  | @annotationType sign t isSign isInterface =>
    have next : Cursor.nextKind ⟨last, sign :: t :: rest⟩ = some .atSign := congrArg some isSign
    refine ⟨Cursor.accept?_eq_none (by simp [next]), Cursor.accept?_eq_none (by simp [next]), t,
      by simp only [Cursor.size, List.length_append, List.length_cons]; omega, ?_⟩
    simp [NominalDecl.kind?, Cursor.accept?, Cursor.acceptPair?, isSign, isInterface]
  | @record t isWord spelled =>
    have next : Cursor.nextKind ⟨last, t :: rest⟩ = some .identifier := congrArg some isWord
    refine ⟨Cursor.accept?_eq_none (by simp [next]), Cursor.accept?_eq_none (by simp [next]), t,
      Cursor.size_tail_lt .., ?_⟩
    have noPair : Cursor.acceptPair? ⟨last, t :: rest⟩ .atSign .interfaceWord = none :=
      Cursor.acceptPair?_eq_none (by simp [next])
    rw [NominalDecl.kind?, Cursor.accept?_eq_none (by simp [next])]
    simp [noPair, Cursor.acceptWord?, isWord, spelled]

end NominalKind.IntroducedBy

/-- Where the words that introduce a type known by name only come next, with its name behind them, the
type is what reading passes the header and the body of. -/
theorem TypeDecl.read_of_introduced {kind : NominalKind} {words rest : List Token} {name : Token}
    (introduced : kind.IntroducedBy words) (named : name.kind = .identifier) (last : Option Token)
    {decl : TypeDecl} {d : Cursor} :
    (∃ h, TypeDecl.read ⟨last, words ++ name :: rest⟩ = .ok ⟨decl, d, h⟩) ↔
      (∃ h, NominalDecl.passBody ⟨some name, rest⟩ = .ok ⟨(), d, h⟩) ∧
        decl = .nominal ⟨kind, .empty, [], name.text,
          ⟨Cursor.location ⟨last, words ++ name :: rest⟩, d.lastStop⟩⟩ := by
  obtain ⟨noClass, noInterface, t, h, found⟩ := introduced.kind? last (name :: rest)
  have taken : Cursor.identifier ⟨some t, name :: rest⟩ =
      .ok ⟨name.text, ⟨some name, rest⟩, Cursor.size_tail_lt ..⟩ := by
    simp [Cursor.identifier, Cursor.expect, Cursor.accept?, named]
  rw [TypeDecl.read, introduced.qualifiers named last rest, ok_bind]
  dsimp only
  rw [TypeDecl.readRest, noClass, noInterface, found]
  simp only [NominalDecl.readRest, taken, ok_bind]
  cases NominalDecl.passBody ⟨some name, rest⟩ with
  | error e =>
    constructor
    · rintro ⟨_, read⟩
      cases read
    · rintro ⟨⟨_, passed⟩, -⟩
      cases passed
  | ok r =>
    constructor
    · rintro ⟨_, read⟩
      cases read
      exact ⟨⟨r.notLonger, rfl⟩, rfl⟩
    · rintro ⟨⟨notLonger, passed⟩, rfl⟩
      cases passed
      simp only [Cursor.size, List.length_append, List.length_cons] at notLonger h
      exact ⟨by simp only [Cursor.size, List.length_append, List.length_cons]; omega, rfl⟩

theorem TypeDecl.read_nominal_iff {kind : NominalKind} {words header body : List Token}
    {name opening closing : Token} (introduced : kind.IntroducedBy words)
    (named : name.kind = .identifier) (opens : opening.kind = .leftBrace)
    (nested : Token.Nested Kind.braces [] body) (closes : closing.kind = .rightBrace)
    (last : Option Token) (after : List Token) :
    let c : Cursor := ⟨last, words ++ name :: (header ++ opening :: (body ++ closing :: after))⟩
    (∃ h, TypeDecl.read c = .ok ⟨.nominal ⟨kind, .empty, [], name.text, ⟨c.location, closing.stop⟩⟩,
      ⟨some closing, after⟩, h⟩) ↔ NominalDecl.CountsOut header := by
  intro c
  rw [TypeDecl.read_of_introduced introduced named last, NominalDecl.passBody_iff opens nested closes]
  exact and_iff_left rfl

/-! ### A type alone -/

/-- No type is listed exactly where nothing but semicolons comes. -/
theorem TypeDecl.listed_nil_iff {c : Cursor} :
    (∃ d, Listed c [] d) ↔ ∀ t ∈ c.ahead, t.kind = .semicolon := by
  constructor
  · rintro ⟨d, listed⟩
    generalize none_ : ([] : List TypeDecl) = types at listed
    induction listed with
    | ended ended => simp [List.isEmpty_iff.mp ended]
    | semicolon found _ ih =>
      obtain ⟨passes, kind⟩ := Cursor.accept?_eq_some found
      rw [passes.ahead]
      exact List.forall_mem_cons.mpr ⟨kind, ih none_⟩
    | more => cases none_
  · intro semicolons
    obtain ⟨last, ahead⟩ := c
    induction ahead generalizing last with
    | nil => exact ⟨_, .ended rfl⟩
    | cons t ahead ih =>
      obtain ⟨kind, others⟩ := List.forall_mem_cons.mp semicolons
      obtain ⟨d, listed⟩ := ih (some t) others
      have found : Cursor.accept? ⟨last, t :: ahead⟩ .semicolon =
          some ⟨t, ⟨some t, ahead⟩, Cursor.size_tail_lt ..⟩ := by rw [Cursor.accept?, if_pos kind]
      exact ⟨d, .semicolon found listed⟩

/-- Tokens that start a type are a unit with this type alone exactly when the type is read and only
semicolons are left. -/
theorem CompilationUnit.ofTokens_single_iff {tokens : List Token} {decl : TypeDecl}
    (next : ∀ kind, (Cursor.start tokens).nextKind = some kind →
      kind ∉ [Kind.packageWord, .importWord, .semicolon]) :
    (∃ unit, (ofTokens tokens).2 = .ok unit ∧ unit.package = none ∧ unit.imports = [] ∧
        unit.types = [decl]) ↔
      ∃ d h, TypeDecl.read (Cursor.start tokens) = .ok ⟨decl, d, h⟩ ∧
        ∀ t ∈ d.ahead, t.kind = .semicolon := by
  have preamble := Preamble.read_of_nextKind (c := .start tokens) (fun same => by simpa using next _ same)
    (fun same => by simpa using next _ same)
  have notSemicolon : (Cursor.start tokens).accept? .semicolon = none :=
    Cursor.accept?_eq_none fun same => by simpa using next _ same
  simp only [ofTokens_eq_ok_iff, ReadAs]
  constructor
  · rintro ⟨unit, ⟨d, preamble', c₁, h₁, types, preambleRead, listed, rfl⟩, -, -, same⟩
    rw [preamble] at preambleRead
    cases preambleRead
    obtain rfl : types = [decl] := same
    cases listed with
    | semicolon found => simp [notSemicolon] at found
    | more _ read later => exact ⟨_, _, read, TypeDecl.listed_nil_iff.mp ⟨d, later⟩⟩
  · rintro ⟨d, h, read, semicolons⟩
    obtain ⟨e, listed⟩ := TypeDecl.listed_nil_iff.mpr semicolons
    exact ⟨_, ⟨e, _, _, _, _, preamble, .more notSemicolon read listed, rfl⟩, rfl, rfl, rfl⟩

/-- A type that ends before nothing but semicolons ends before nothing, when no semicolon is last. -/
theorem TypeDecl.read_to_end {tokens front : List Token} {last : Token} (ends : tokens = front ++ [last])
    (notSemicolon : last.kind ≠ .semicolon) {r : Consumed (.start tokens) TypeDecl}
    (read : TypeDecl.read (.start tokens) = .ok r)
    (semicolons : ∀ t ∈ r.cursor.ahead, t.kind = .semicolon) : r.cursor = ⟨some last, []⟩ := by
  obtain ⟨taken, passes⟩ := (TypeDecl.read_tells (fun _ word => word) read).leads
  have whole : front ++ [last] = taken ++ r.cursor.ahead := ends.symm.trans passes.ahead
  have ended : r.cursor.ahead = [] := by
    by_contra some_
    have same : last = r.cursor.ahead.getLast some_ := by
      have lasts := congrArg List.getLast? whole
      rw [List.getLast?_concat, List.getLast?_append_of_ne_nil _ some_,
        List.getLast?_eq_some_getLast some_] at lasts
      exact Option.some.inj lasts
    exact notSemicolon (same ▸ semicolons _ (List.getLast_mem some_))
  have lastTaken := passes.last
  rw [ended, List.append_nil] at whole
  rw [← whole, List.getLast?_concat, Option.some_or] at lastTaken
  change Cursor.mk r.cursor.last r.cursor.ahead = _
  rw [lastTaken, ended]

/-- Behind the words that introduce a type known by name only and its name, any header and any body with
nested braces are passed as what they are exactly when the header counts out, and then a source made of
them holds this type and nothing else. A header counts out where its angle brackets are properly nested
with all other brackets. -/
theorem CompilationUnit.read_by_name_iff {kind : NominalKind} {words header body : List Token}
    {name opening closing : Token} (introduced : kind.IntroducedBy words)
    (named : name.kind = .identifier) (opens : opening.kind = .leftBrace)
    (nested : Token.Nested Kind.braces [] body) (closes : closing.kind = .rightBrace) :
    (∀ last after,
      let c : Cursor := ⟨last, words ++ name :: (header ++ opening :: (body ++ closing :: after))⟩
      (∃ h, TypeDecl.read c = .ok ⟨.nominal ⟨kind, .empty, [], name.text, ⟨c.location, closing.stop⟩⟩,
        ⟨some closing, after⟩, h⟩) ↔ NominalDecl.CountsOut header) ∧
    (∀ source tokens, tokens = words ++ name :: (header ++ opening :: (body ++ [closing])) →
      Token.ofSource source = .ok tokens →
      ((∃ unit, (read source).outcome = .ok unit ∧ unit.package = none ∧ unit.imports = [] ∧
        unit.types = [.nominal ⟨kind, .empty, [], name.text,
          ⟨(Cursor.start tokens).location, closing.stop⟩⟩]) ↔ NominalDecl.CountsOut header)) ∧
    (NominalDecl.IsHeader header → Token.Nested NominalDecl.allBrackets [] header →
      NominalDecl.CountsOut header) := by
  refine ⟨TypeDecl.read_nominal_iff introduced named opens nested closes, ?_,
    NominalDecl.IsHeader.countsOut⟩
  rintro source tokens rfl lexed
  have declared := @TypeDecl.read_nominal_iff kind words header body name opening closing introduced
    named opens nested closes none []
  -- Such a unit starts with its type, so it has no package and no import.
  have next : ∀ k, (Cursor.start (words ++ name :: (header ++ opening :: (body ++ [closing])))).nextKind =
      some k → k ∉ [Kind.packageWord, .importWord, .semicolon] := by
    cases introduced <;> simp_all [Cursor.start, Cursor.nextKind]
  have ends : words ++ name :: (header ++ opening :: (body ++ [closing])) =
      (words ++ name :: (header ++ opening :: body)) ++ [closing] := by simp
  constructor
  · rintro ⟨unit, unitRead, parts⟩
    rw [outcome_read lexed] at unitRead
    obtain ⟨d, h, read, semicolons⟩ :=
      (ofTokens_single_iff next).mp ⟨unit, mapError_eq_ok unitRead, parts⟩
    obtain rfl : d = ⟨some closing, []⟩ :=
      TypeDecl.read_to_end ends (by simp [closes]) read semicolons
    exact declared.mp ⟨h, read⟩
  · intro countsOut
    obtain ⟨h, read⟩ := declared.mpr countsOut
    obtain ⟨unit, unitRead, parts⟩ :=
      (ofTokens_single_iff next).mpr ⟨_, h, read, List.forall_mem_nil _⟩
    exact ⟨unit, (outcome_read lexed).trans (mapError_of_ok unitRead), parts⟩

/-- The tokens of a record that stands alone. -/
private structure RecordAlone where
  word : Token
  name : Token
  header : List Token
  opening : Token
  body : List Token
  closing : Token

namespace RecordAlone

private def tokens (r : RecordAlone) : List Token :=
  [r.word] ++ r.name :: (r.header ++ r.opening :: (r.body ++ [r.closing]))

/-- The record that a source is, given how many tokens its header has. -/
private def cut (source : String) (n : Nat) : RecordAlone :=
  let tokens := (Token.ofSource source).toOption.getD []
  ⟨tokens[0]!, tokens[1]!, (tokens.drop 2).take n, tokens[n + 2]!, (tokens.drop (n + 3)).dropLast,
    tokens.getLast?.getD default⟩

private structure Fits (source : String) (r : RecordAlone) : Prop where
  lexed : (Token.ofSource source).toOption = some r.tokens
  word : r.word.kind = .identifier ∧ r.word.text = "record"
  name : r.name.kind = .identifier ∧ r.name.text = "P"
  opens : r.opening.kind = .leftBrace
  nested : Token.Nested Kind.braces [] r.body
  closes : r.closing.kind = .rightBrace
  isHeader : NominalDecl.IsHeader r.header

private instance (source : String) (r : RecordAlone) : Decidable (Fits source r) :=
  decidable_of_iff (_ ∧ _ ∧ _ ∧ _ ∧ _ ∧ _ ∧ _)
    ⟨fun ⟨lexed, word, name, opens, nested, closes, isHeader⟩ =>
      ⟨lexed, word, name, opens, nested, closes, isHeader⟩,
      fun f => ⟨f.lexed, f.word, f.name, f.opens, f.nested, f.closes, f.isHeader⟩⟩

end RecordAlone

/-- A record with angle brackets and braces in parentheses. -/
private def genericRecord : String :=
  "record P<T>(@A(x = \x7b1\x7d) List<T> a) implements Q<T> \x7b void m() \x7b \x7d \x7d"

/-- A record with a comparison in parentheses. -/
private def comparingRecord : String := "record P(@A(1 < 2) int a) \x7b \x7d"

open NominalDecl in
/-- Angle brackets of types in parentheses do not disturb the count, nor do braces there. An operator
does, and the record is not read then. -/
theorem CompilationUnit.read_by_name_iff_of_records :
    (∃ unit span, (read genericRecord).outcome = .ok unit ∧
      unit.types = [.nominal ⟨.record, .empty, [], "P", span⟩]) ∧
    ∃ words name header rest, Token.ofSource comparingRecord = .ok (words ++ name :: (header ++ rest)) ∧
      IsHeader header ∧ ¬ CountsOut header ∧ (read comparingRecord).outcome.isOk = false := by
  constructor
  · obtain ⟨r, fits, nested⟩ :
        ∃ r : RecordAlone, r.Fits genericRecord ∧ Token.Nested allBrackets [] r.header :=
      ⟨.cut genericRecord 24, by decide +kernel⟩
    obtain ⟨lexed, ⟨word, spelled⟩, ⟨named, isP⟩, opens, nestedBody, closes, isHeader⟩ := fits
    obtain ⟨-, alone, countsOut⟩ := @read_by_name_iff _ _ r.header _ _ _ _ (.record word spelled) named
      opens nestedBody closes
    obtain ⟨unit, unitRead, -, -, types⟩ :=
      (alone _ _ rfl (toOption_eq_some lexed)).mpr (countsOut isHeader nested)
    exact ⟨unit, _, unitRead, isP ▸ types⟩
  · obtain ⟨r, fits, more⟩ : ∃ r : RecordAlone, r.Fits comparingRecord ∧
        Token.surfacing r.header < Token.deepening r.header :=
      ⟨.cut comparingRecord 11, by decide +kernel⟩
    refine ⟨_, _, _, _, toOption_eq_some fits.lexed, fits.isHeader, fun countsOut => ?_,
      by decide +kernel⟩
    exact absurd (countsOut.even _ (List.suffix_refl _)) (Nat.not_le.mpr more)

end TestDouble
