import TestDouble.Proofs.Acceptance
import TestDouble.Proofs.DeclarationReading
import TestDouble.Proofs.Tiling
import TestDouble.Proofs.Written

/-!
# Reading stays within its tokens

Cursors stand at an index of the tokens of a source. Every reader that succeeds moves the index on
and not beyond the end, what is kept as source text is a slice of the source between two tokens, no
count of open brackets falls below zero, and the limit on the size of blocks is not what makes
reading end.
-/

namespace TestDouble

/-! ### The index of a cursor -/

/-- The cursor stands before the token of the given index, or behind the last one. -/
structure Cursor.At (tokens : List Token) (i : Nat) (c : Cursor) : Prop where
  bound : i ≤ tokens.length
  ahead : c.ahead = tokens.drop i
  last : c.last = (tokens.take i).getLast?

/-- The reader takes at least one token wherever it succeeds, and none that is not there. -/
def Advances {α : Type} (tokens : List Token) (read : (c : Cursor) → Reading α c) : Prop :=
  ∀ i c r, c.At tokens i → read c = .ok r → ∃ j, i < j ∧ j ≤ tokens.length ∧ r.cursor.At tokens j

/-- The reader does not go back wherever it succeeds, and takes no token that is not there. -/
def Keeps {α : Type} (tokens : List Token) (pass : (c : Cursor) → Passing α c) : Prop :=
  ∀ i c r, c.At tokens i → pass c = .ok r → ∃ j, i ≤ j ∧ j ≤ tokens.length ∧ r.cursor.At tokens j

theorem Cursor.at_start (tokens : List Token) : (Cursor.start tokens).At tokens 0 :=
  ⟨Nat.zero_le _, rfl, rfl⟩

theorem Cursor.Passes.at_of_at {tokens taken : List Token} {i : Nat} {c c' : Cursor}
    (passes : c.Passes taken c') (stands : c.At tokens i) : c'.At tokens (i + taken.length) := by
  have rest : tokens.drop i = taken ++ c'.ahead := by rw [← stands.ahead, passes.ahead]
  have length := congrArg List.length rest
  rw [List.length_drop, List.length_append] at length
  have bound := stands.bound
  have prior : tokens.take (i + taken.length) = tokens.take i ++ taken := by
    rw [List.take_add, rest, List.take_left]
  refine ⟨by omega, ?_, ?_⟩
  · rw [← List.drop_drop, rest, List.drop_left]
  · rw [passes.last, prior, List.getLast?_append, stands.last]

/-- A reader whose result stands behind tokens passed advances. -/
theorem advances_of_passes {α : Type} (tokens : List Token) {read : (c : Cursor) → Reading α c}
    (passes : ∀ c r, read c = .ok r → ∃ taken, c.Passes taken r.cursor) : Advances tokens read := by
  intro i c r stands returned
  obtain ⟨taken, passed⟩ := passes c r returned
  have reached := passed.at_of_at stands
  have size := passed.size_eq
  have shorter := r.shorter
  exact ⟨i + taken.length, by omega, reached.bound, reached⟩

theorem keeps_of_passes {α : Type} (tokens : List Token) {pass : (c : Cursor) → Passing α c}
    (passes : ∀ c r, pass c = .ok r → ∃ taken, c.Passes taken r.cursor) : Keeps tokens pass := by
  intro i c r stands returned
  obtain ⟨taken, passed⟩ := passes c r returned
  have reached := passed.at_of_at stands
  exact ⟨i + taken.length, Nat.le_add_right _ _, reached.bound, reached⟩

/-! ### Fragments are slices -/

/-- The fragment covers the tokens from index `i` up to index `j`: both ends are there, and its text
is what the source holds from the start of the first of them to the end of the last. -/
def Fragment.Covers (source : String) (tokens : List Token) (i j : Nat) (f : Fragment) : Prop :=
  i < j ∧ ∃ first last, tokens[i]? = some first ∧ tokens[j - 1]? = some last ∧
    f.span = ⟨first.location, last.location⟩ ∧
    ∃ before after, source = before ++ f.text ++ after ∧
      before.utf8ByteSize = first.location.offset ∧
      (before ++ f.text).utf8ByteSize = last.stopOffset

namespace Token

/-- A tiling cut in two tiles the two parts of the text. -/
theorem Tiles.split {location : Location} {source : List Char} {before after : List Token}
    (tiles : Tiles location source (before ++ after)) :
    ∃ first second, source = first ++ second ∧ Tiles (location.after first) second after := by
  induction before generalizing location source with
  | nil => exact ⟨[], source, rfl, tiles⟩
  | cons t before ih =>
    cases tiles with
    | @cons _ leading text _ _ _ later =>
      obtain ⟨first, second, rfl, rest⟩ := ih later
      refine ⟨leading ++ text ++ first, second, by simp, ?_⟩
      rw [Location.after_append _ (leading ++ text)]
      exact rest

/-- The text of the first tokens of a tiling, behind what is skipped before them. -/
theorem Tiles.quote {location : Location} {source : List Char} {first : Token}
    {more after : List Token} (tiles : Tiles location source (first :: more ++ after)) :
    ∃ leading rest, source = leading ++ (Mark.quote ((first :: more).map mark)).toList ++ rest ∧
      first.location = location.after leading ∧ first.leading = String.ofList leading ∧
      (more.getLast?.getD first).stopOffset = location.offset +
        (String.ofList leading ++ Mark.quote ((first :: more).map mark)).utf8ByteSize := by
  induction more generalizing location source first with
  | nil =>
    cases tiles with
    | @cons _ leading text rest _ _ _ =>
      refine ⟨leading, rest, by simp [Mark.quote, Token.mark], rfl, rfl, ?_⟩
      simp [Mark.quote, Token.mark, stopOffset, Location.offset_after, String.utf8ByteSize_append,
        Nat.add_assoc]
  | cons next more ih =>
    have unfolded : Mark.quote ((first :: next :: more).map mark) =
        first.text ++ next.leading ++ Mark.quote ((next :: more).map mark) :=
      Mark.quote_cons_cons ..
    have last : (next :: more).getLast?.getD first = more.getLast?.getD next := by
      rw [List.getLast?_cons]
      rfl
    rw [unfolded, last]
    cases tiles with
    | @cons _ leading text rest _ _ later =>
      obtain ⟨between, others, rfl, placed, skipped, stop⟩ := ih later
      refine ⟨leading, others, by simp [skipped], rfl, rfl, ?_⟩
      rw [stop, skipped]
      simp [Location.offset_after, String.ofList_append, String.utf8ByteSize_append, Nat.add_assoc]

end Token

section

variable {source : String} {tokens : List Token} {i : Nat} {c : Cursor}

/-- The fragment of the next tokens covers them. -/
theorem Cursor.At.covers (tiles : Token.Tiles .origin source.toList tokens) (stands : c.At tokens i)
    {first : Token} {more dropped : List Token} {c' : Cursor}
    (passes : c.Passes (first :: more ++ dropped) c') :
    (Fragment.ofTokens first more).Covers source tokens i (i + (more.length + 1)) := by
  have rest : tokens = tokens.take i ++ (first :: more ++ (dropped ++ c'.ahead)) := by
    rw [← List.append_assoc (first :: more), ← passes.ahead, stands.ahead, List.take_append_drop]
  have length : (tokens.take i).length = i := List.length_take_of_le stands.bound
  rw [rest] at tiles
  obtain ⟨before, behind, whole, later⟩ := tiles.split
  obtain ⟨leading, after, rfl, placed, -, stop⟩ := later.quote
  refine ⟨by omega, first, more.getLast?.getD first, ?_, ?_, rfl,
    String.ofList (before ++ leading), String.ofList after, ?_, ?_, ?_⟩
  · rw [rest, List.getElem?_append_right (by omega), length]
    simp
  · rw [rest, List.getElem?_append_right (by omega), length]
    have index : i + (more.length + 1) - 1 - i = (first :: more).length - 1 := by
      simp only [List.length_cons]
      omega
    rw [index, List.getElem?_append_left (by simp), ← List.getLast?_eq_getElem?,
      List.getLast?_cons]
  · rw [Fragment.text_ofTokens, ← String.toList_inj]
    simp [whole]
  · rw [placed]
    simp [Location.offset_after, Location.origin, String.ofList_append, String.utf8ByteSize_append]
  · rw [stop, Fragment.text_ofTokens]
    simp [Location.offset_after, Location.origin, String.ofList_append, String.utf8ByteSize_append,
      Nat.add_assoc]

/-- A value covers the tokens it was read from, as many as the scan counted. -/
theorem Fragment.readValue_covers (tiles : Token.Tiles .origin source.toList tokens)
    (stands : c.At tokens i) {what : String} {stops : List Token → Bool} {r : Consumed c Fragment}
    (returned : readValue c what stops = .ok r) :
    ∃ n, valueLength? stops c.ahead 0 0 = some n ∧ r.cursor.At tokens (i + n) ∧
      r.value.Covers source tokens i (i + n) := by
  obtain ⟨first, more, passes, value, counted⟩ := readValue_eq_ok returned
  have passed : c.Passes (first :: more ++ []) r.cursor := by rwa [List.append_nil]
  exact ⟨more.length + 1, counted, passes.at_of_at stands, value ▸ stands.covers tiles passed⟩

/-- A statement covers the tokens it was read from, as many as the scan counted, but for a semicolon
that ends it. -/
theorem Fragment.readStatement_covers (tiles : Token.Tiles .origin source.toList tokens)
    (stands : c.At tokens i) {r : Consumed c Fragment} (returned : readStatement c = .ok r) :
    ∃ n ended, statementLength? (c.seesWord "do") c.ahead 0 0 = some (n, ended) ∧
      r.value.Covers source tokens i (i + n) ∧ r.cursor.At tokens (i + n + ended.toNat) ∧
      (ended = true → ∃ t, tokens[i + n]? = some t ∧ t.kind = .semicolon) := by
  obtain ⟨first, more, dropped, ended, passes, value, counted, ends⟩ := readStatement_eq_ok returned
  have reached := passes.at_of_at stands
  rw [List.length_append, ends.length_eq, ← Nat.add_assoc] at reached
  refine ⟨more.length + 1, ended, counted, value ▸ stands.covers tiles passes, reached, ?_⟩
  rintro rfl
  obtain ⟨t, rfl, kind⟩ := ends.eq_semicolon
  refine ⟨t, ?_, kind⟩
  have ahead : tokens.drop i = (first :: more) ++ t :: r.cursor.ahead := by
    rw [← stands.ahead, passes.ahead]
    simp
  rw [← List.getElem?_drop, ahead, List.getElem?_append_right (by simp)]
  simp

end

/-- The body of a type known by name only is passed together with its header, as many tokens as the
two scans counted. -/
theorem NominalDecl.passBody_reaches {tokens : List Token} {i : Nat} {c : Cursor}
    (stands : c.At tokens i) {r : Reached c Unit} (returned : passBody c = .ok r) :
    ∃ n m, headerLength? c.ahead 0 0 = some n ∧
      bodyLength? (c.ahead.drop (n + 1)) 0 0 = some m ∧ r.cursor.At tokens (i + (n + 1 + m)) := by
  obtain ⟨n, m, header, body, within, place⟩ := passBody_eq_ok_iff.mp ⟨r.notLonger, returned⟩
  have reached := (Cursor.Passes.skip c within).at_of_at stands
  rw [List.length_take_of_le within, place] at reached
  exact ⟨n, m, header, body, reached⟩

/-! ### Counts of open brackets -/

/-- What a scan does at a token: it stops, or it passes the token and changes its count of open
brackets. Lowering the count, unlike letting go of a bracket, asks for one that is open; the scan
may end with the count that it leaves. -/
inductive Move (α : Type) where
  | stop (value : α)
  | raise
  | lower (ends : Nat → Option α)
  | letGo
  | pass

/-- Scan tokens, `n` of which were passed before. Nothing at all comes out when the count of open
brackets would fall below zero. -/
def scan {α : Type} (move : List Token → (depth n : Nat) → Move α) :
    List Token → (depth n : Nat) → Option (Option α)
  | [], _, _ => some none
  | token :: rest, depth, n =>
    match move (token :: rest) depth n with
    | .stop value => some (some value)
    | .raise => scan move rest (depth + 1) (n + 1)
    | .lower ends =>
      match depth with
      | 0 => none
      | left + 1 =>
        match ends left with
        | some value => some (some value)
        | none => scan move rest left (n + 1)
    | .letGo => scan move rest (depth - 1) (n + 1)
    | .pass => scan move rest depth (n + 1)

/-- The moves of a scan for the end of a value. -/
def Fragment.valueMove (stops : List Token → Bool) (ahead : List Token) (depth n : Nat) : Move Nat :=
  match ahead with
  | [] => .pass
  | token :: _ =>
    if token.kind.opens then .raise
    else if token.kind.closes then if depth = 0 then .stop n else .lower fun _ => none
    else if depth = 0 && stops ahead then .stop n
    else .pass

/-- The moves of a scan for the end of a statement. -/
def Fragment.statementMove (afterDo : Bool) (ahead : List Token) (depth n : Nat) :
    Move (Nat × Bool) :=
  match ahead with
  | [] => .pass
  | token :: rest =>
    match token.kind with
    | .leftParen | .leftBracket | .leftBrace => .raise
    | .rightParen | .rightBracket => .letGo
    | .rightBrace =>
      if depth = 0 then .stop (n, false)
      else .lower fun left => if left = 0 && !goesOn afterDo rest then some (n + 1, false) else none
    | .semicolon => if depth = 0 then .stop (n, true) else .pass
    | _ => .pass

/-- The moves of a scan for the brace that closes a body. -/
def NominalDecl.bodyMove (ahead : List Token) (_depth n : Nat) : Move Nat :=
  match ahead with
  | [] => .pass
  | token :: _ =>
    match token.kind with
    | .leftBrace => .raise
    | .rightBrace => .lower fun left => if left = 0 then some (n + 1) else none
    | _ => .pass

/-- The count of open brackets in a value never falls below zero. -/
theorem Fragment.scan_valueMove (stops : List Token → Bool) (tokens : List Token) (depth n : Nat) :
    scan (valueMove stops) tokens depth n = some (valueLength? stops tokens depth n) := by
  fun_induction valueLength? stops tokens depth n with
  | case1 => rfl
  | case2 depth n token rest opens ih => simp [scan, valueMove, opens, ih]
  | case3 n token rest opens closes => simp [scan, valueMove, opens, closes]
  | case4 depth n token rest opens closes inside ih =>
    obtain ⟨left, rfl⟩ := Nat.exists_eq_succ_of_ne_zero inside
    simpa [scan, valueMove, opens, closes] using ih
  | case5 depth n token rest opens closes stop => simp [scan, valueMove, opens, closes, stop]
  | case6 depth n token rest opens closes going ih =>
    simp only [scan, valueMove, opens, closes, going]
    exact ih

/-- The count of open brackets in a statement never falls below zero. -/
theorem Fragment.scan_statementMove (afterDo : Bool) (tokens : List Token) (depth n : Nat) :
    scan (statementMove afterDo) tokens depth n = some (statementLength? afterDo tokens depth n) := by
  fun_induction statementLength? afterDo tokens depth n with
  | case1 => rfl
  | case2 token rest depth n kind ih | case3 token rest depth n kind ih
  | case4 token rest depth n kind ih | case5 token rest depth n kind ih
  | case6 token rest depth n kind ih => simp [scan, statementMove, kind, ih]
  | case7 token rest n kind => simp [scan, statementMove, kind]
  | case8 token rest depth n kind inside ends =>
    obtain ⟨left, rfl⟩ := Nat.exists_eq_succ_of_ne_zero inside
    have ended : left = 0 ∧ goesOn afterDo rest = false := by simpa using ends
    simp [scan, statementMove, kind, ended]
  | case9 token rest depth n kind inside goes ih =>
    obtain ⟨left, rfl⟩ := Nat.exists_eq_succ_of_ne_zero inside
    have going : ¬(left = 0 ∧ goesOn afterDo rest = false) := by simpa using goes
    simpa [scan, statementMove, kind, going] using ih
  | case10 token rest n kind => simp [scan, statementMove, kind]
  | case11 token rest depth n kind inside ih => simp [scan, statementMove, kind, inside, ih]
  | case12 token rest depth n _ _ _ _ _ _ _ ih => simp_all [scan, statementMove]

/-- The count of open braces in a body never falls below zero. -/
theorem NominalDecl.scan_bodyMove (tokens : List Token) (depth n : Nat) :
    scan bodyMove tokens (depth + 1) n = some (bodyLength? tokens depth n) := by
  fun_induction bodyLength? tokens depth n with
  | case1 => rfl
  | case2 token rest depth n kind ih => simp [scan, bodyMove, kind, ih]
  | case3 token rest n kind => simp [scan, bodyMove, kind]
  | case4 token rest depth n kind inside ih =>
    obtain ⟨left, rfl⟩ := Nat.exists_eq_succ_of_ne_zero inside
    simpa [scan, bodyMove, kind] using ih
  | case5 token rest depth n _ _ ih => simp_all [scan, bodyMove]

/-! ### Blocks without a limit -/

/-- A statement that is kept as text may come next: a token that is no brace and no semicolon. -/
def Cursor.AtStatement (c : Cursor) : Prop :=
  ∃ kind, c.nextKind = some kind ∧ kind ≠ .leftBrace ∧ kind ≠ .rightBrace ∧ kind ≠ .semicolon

/-- Where a block finds neither its end nor an empty statement nor a block, a statement may come. -/
theorem Cursor.atStatement_of_refused {c : Cursor} (more : ¬c.ahead.isEmpty = true)
    (notClosing : c.accept? .rightBrace = none) (notEmpty : c.accept? .semicolon = none)
    (notNested : ¬c.sees [.leftBrace] = true) : c.AtStatement := by
  obtain ⟨kind, next⟩ : ∃ kind, c.nextKind = some kind := by
    cases ahead : c.ahead with
    | nil => simp [ahead] at more
    | cons token rest => exact ⟨token.kind, by simp [Cursor.nextKind, ahead]⟩
  rw [Cursor.sees_one, next] at notNested
  have notClosed := Cursor.nextKind_ne_of_accept? notClosing
  have notEnded := Cursor.nextKind_ne_of_accept? notEmpty
  rw [next] at notClosed notEnded
  exact ⟨kind, next, by simpa using notNested, by simpa using notClosed, by simpa using notEnded⟩

/-- A statement that starts with a token of its own takes that token at least. -/
theorem Cursor.AtStatement.statementLength? {c : Cursor} (stands : c.AtStatement)
    {length : Nat} {ended : Bool}
    (found : Fragment.statementLength? (c.seesWord "do") c.ahead 0 0 = some (length, ended)) :
    0 < length := by
  obtain ⟨kind, next, notOpen, notClosed, notEnded⟩ := stands
  obtain ⟨before, _ | ⟨token, rest⟩⟩ := c
  · simp [nextKind] at next
  obtain rfl : token.kind = kind := Option.some.inj next
  have later : ∀ depth, Fragment.statementLength? (Cursor.seesWord ⟨before, token :: rest⟩ "do")
      rest depth 1 = some (length, ended) → 0 < length := by
    intro depth counted
    obtain ⟨k, rfl, -⟩ := Fragment.statementLength?_endsWithin counted
    omega
  simp only [Fragment.statementLength?] at found
  split at found
  all_goals first | exact later _ found | contradiction

namespace Block

mutual

/-- Read a block of any size, with a reader for the statements that are kept as text. -/
def readWith (statement : (c : Cursor) → Reading Fragment c) (c : Cursor) : Reading Block c := do
  let ⟨_, c₁, h₁⟩ ← c.expect .leftBrace "'\x7b' to open block"
  let ⟨statements, c₂, h₂⟩ ← readStatementsWith statement c c₁ h₁ []
  return ⟨⟨statements, ⟨c.location, c₂.lastStop⟩⟩, c₂, h₂⟩
termination_by 2 * c.size + 0

/-- Read statements up to the closing brace, which is passed, behind those read so far (last one
first). -/
def readStatementsWith (statement : (c : Cursor) → Reading Fragment c) (origin c : Cursor)
    (within : c.size < origin.size) (read : List BodyStatement) :
    Reading (List BodyStatement) origin :=
  match c.accept? .rightBrace with
  | some ⟨_, c₁, h₁⟩ => .ok ⟨read.reverse, c₁, by omega⟩
  | none =>
    match c.accept? .semicolon with
    | some ⟨_, c₁, h₁⟩ => readStatementsWith statement origin c₁ (by omega) (.empty :: read)
    | none =>
      if c.ahead.isEmpty then .error (c.expected "'\x7d' to close block")
      else if c.sees [.leftBrace] then do
        let ⟨block, c₁, h₁⟩ ← readWith statement c
        readStatementsWith statement origin c₁ (by omega) (.block block :: read)
      else do
        let ⟨fragment, c₁, h₁⟩ ← statement c
        readStatementsWith statement origin c₁ (by omega) (.fragment fragment :: read)
termination_by 2 * c.size + 1

end

/-- The outcome is the complaint about a block too large, with so many tokens ahead. -/
def TooLarge {α : Type} (size : Nat) (outcome : Except ParseError α) : Prop :=
  limit < size ∧ ∃ start, outcome = .error (.located start (.invalid "block too large"))

private theorem TooLarge.bind {α β : Type} {size size' : Nat} {outcome : Except ParseError α}
    (large : TooLarge size outcome) (f : α → Except ParseError β) (le : size ≤ size') :
    TooLarge size' (outcome >>= f) := by
  obtain ⟨bound, start, rfl⟩ := large
  exact ⟨Nat.lt_of_lt_of_le bound le, start, rfl⟩

private theorem bind_eq_or_tooLarge {α β : Type} {size size' : Nat} {a b : Except ParseError α}
    {f g : α → Except ParseError β} (first : a = b ∨ TooLarge size a) (le : size ≤ size')
    (then_ : ∀ x, f x = g x ∨ TooLarge size' (f x)) :
    a >>= f = b >>= g ∨ TooLarge size' (a >>= f) := by
  obtain rfl | large := first
  · cases a with
    | error => exact .inl rfl
    | ok x => exact then_ x
  · exact .inr (large.bind f le)

private theorem read_and_readStatements_eq {statement : (c : Cursor) → Reading Fragment c}
    (agrees : ∀ c, c.AtStatement → statement c = Fragment.readStatement c) :
    (∀ c, Block.read c = readWith statement c ∨ TooLarge c.size (Block.read c)) ∧
    ∀ origin start c within count read,
      readStatements origin start c within count read =
          readStatementsWith statement origin c within read ∨
        TooLarge (count + c.size + 1) (readStatements origin start c within count read) := by
  apply Block.read.mutual_induct
  case case1 =>
    intro c ih
    rw [Block.read, readWith]
    refine bind_eq_or_tooLarge (.inl rfl) (Nat.le_refl _) fun opened => ?_
    obtain ⟨brace, c₁, h₁⟩ := opened
    exact bind_eq_or_tooLarge (ih c₁ h₁) (by omega) fun _ => .inl rfl
  case case2 =>
    intro origin start c within count read full
    rw [readStatements, if_pos full]
    exact .inr ⟨by omega, start, rfl⟩
  case case3 =>
    intro origin start c within count read open_ brace c₁ h₁ closing
    rw [readStatements, readStatementsWith, if_neg open_, closing]
    exact .inl rfl
  case case4 =>
    intro origin start c within count read open_ notClosing semicolon c₁ h₁ found ih
    rw [readStatements, readStatementsWith, if_neg open_, notClosing, found]
    obtain same | ⟨bound, large⟩ := ih
    · exact .inl same
    · exact .inr ⟨by omega, large⟩
  case case5 =>
    intro origin start c within count read open_ notClosing notEmpty ended
    rw [readStatements, readStatementsWith, if_neg open_, notClosing, notEmpty]
    exact .inl (by simp [ended])
  case case6 =>
    intro origin start c within count read open_ notClosing notEmpty more nested ih ihRest
    rw [readStatements, readStatementsWith, if_neg open_, notClosing, notEmpty]
    simp only [more, nested, if_true]
    refine bind_eq_or_tooLarge ih (by omega) fun found => ?_
    obtain ⟨block, c₁, h₁⟩ := found
    obtain same | ⟨bound, large⟩ := ihRest block c₁ h₁
    · exact .inl same
    · exact .inr ⟨by omega, large⟩
  case case7 =>
    intro origin start c within count read open_ notClosing notEmpty more notNested ihRest
    have stands := Cursor.atStatement_of_refused more notClosing notEmpty notNested
    rw [readStatements, readStatementsWith, if_neg open_, notClosing, notEmpty]
    simp only [more, notNested]
    refine bind_eq_or_tooLarge (.inl (agrees c stands).symm) (Nat.le_refl _) fun found => ?_
    obtain ⟨fragment, c₁, h₁⟩ := found
    obtain same | ⟨bound, large⟩ := ihRest fragment c₁ h₁
    · exact .inl same
    · exact .inr ⟨by omega, large⟩

/-- Reading a block asks for a statement only where one may start, and its limit is met only where
there are more tokens than that. -/
theorem read_eq_readWith {statement : (c : Cursor) → Reading Fragment c}
    (agrees : ∀ c, c.AtStatement → statement c = Fragment.readStatement c) (c : Cursor) :
    Block.read c = readWith statement c ∨ TooLarge c.size (Block.read c) :=
  (read_and_readStatements_eq agrees).1 c

end Block

/-! ### Whole runs -/

section

variable (tokens : List Token)

theorem TypeRef.read_advances : Advances tokens TypeRef.read :=
  advances_of_passes tokens fun _ _ returned => (read_tells (fun _ word => word) returned).passes

theorem TypeDecl.read_advances : Advances tokens TypeDecl.read :=
  advances_of_passes tokens fun _ _ returned => (read_tells (fun _ word => word) returned).passes

theorem BodyMember.read_advances : Advances tokens BodyMember.read :=
  advances_of_passes tokens fun _ _ returned => (read_tells (fun _ word => word) returned).passes

theorem Annotation.read_advances : Advances tokens Annotation.read := by
  refine advances_of_passes tokens fun c r returned => ?_
  obtain ⟨sign, rest, passes, -⟩ := read_eq_ok returned
  exact ⟨_, passes⟩

theorem Block.read_advances : Advances tokens Block.read :=
  advances_of_passes tokens fun _ _ returned => read_eq_ok returned

theorem Fragment.readStatement_advances : Advances tokens readStatement := by
  refine advances_of_passes tokens fun c r returned => ?_
  obtain ⟨first, more, dropped, ended, passes, -⟩ := readStatement_eq_ok returned
  exact ⟨_, passes⟩

theorem Fragment.readValue_advances (what : String) (stops : List Token → Bool) :
    Advances tokens fun c => readValue c what stops := by
  refine advances_of_passes tokens fun c r returned => ?_
  obtain ⟨first, more, passes, -⟩ := readValue_eq_ok returned
  exact ⟨_, passes⟩

theorem Qualifiers.read_keeps : Keeps tokens Qualifiers.read :=
  keeps_of_passes tokens fun _ _ returned => (read_eq_ok returned).imp fun _ passed => passed.1

theorem Preamble.read_keeps : Keeps tokens Preamble.read :=
  keeps_of_passes tokens fun c r returned =>
    (read_tells returned : c.Tells IsWord r.cursor _).passes

end

/-- Reading the types of a source ends behind its last token, or before a token at which no type
can be read. -/
theorem TypeDecl.readAll_ends {tokens : List Token} {i : Nat} {c : Cursor} {read : List TypeDecl}
    (stands : c.At tokens i) :
    (∃ c', (TypeDecl.readAll c read).2 = .ok c' ∧ c'.At tokens tokens.length) ∨
      ∃ j c' error, i ≤ j ∧ j < tokens.length ∧ c'.At tokens j ∧
        TypeDecl.read c' = .error error ∧ (TypeDecl.readAll c read).2 = .error error := by
  induction c, read using TypeDecl.readAll.induct generalizing i with
  | case1 c read ended =>
    have behind : tokens.drop i = [] := by rw [← stands.ahead, List.isEmpty_iff.mp ended]
    obtain rfl : i = tokens.length :=
      Nat.le_antisymm stands.bound (List.drop_eq_nil_iff.mp behind)
    exact .inl ⟨c, by rw [TypeDecl.readAll, if_pos ended], stands⟩
  | case2 c read more semicolon c₁ h₁ found ih =>
    have reached := (Cursor.accept?_eq_some found).1.at_of_at stands
    rw [TypeDecl.readAll, if_neg more, found]
    refine (ih reached).imp_right ?_
    rintro ⟨j, c', error, le, rest⟩
    exact ⟨j, c', error, Nat.le_of_succ_le le, rest⟩
  | case3 c read more notEmpty decl c₁ h₁ declRead ih =>
    obtain ⟨k, before, -, reached⟩ := TypeDecl.read_advances tokens i c _ stands declRead
    rw [TypeDecl.readAll, if_neg more, notEmpty, declRead]
    refine (ih reached).imp_right ?_
    rintro ⟨j, c', error, le, rest⟩
    exact ⟨j, c', error, Nat.le_trans (Nat.le_of_lt before) le, rest⟩
  | case4 c read more notEmpty error failed =>
    refine .inr ⟨i, c, error, Nat.le_refl i, ?_, stands, failed, ?_⟩
    · by_contra beyond
      have nothing : c.ahead = [] := by rw [stands.ahead, List.drop_eq_nil_iff]; omega
      simp [nothing] at more
    · rw [TypeDecl.readAll, if_neg more, notEmpty, failed]

/-- Reading the tokens of a source is safe: readers that succeed move on and stay within the tokens,
text is cut out of the source between two tokens that are there, counts of open brackets stay above
zero, and blocks need no limit to end. -/
structure SafelyRead (source : String) (tokens : List Token) : Prop where
  types : Advances tokens TypeDecl.read
  members : Advances tokens BodyMember.read
  typeRefs : Advances tokens TypeRef.read
  annotations : Advances tokens Annotation.read
  blocks : Advances tokens Block.read
  statements : Advances tokens Fragment.readStatement
  values : ∀ what stops, Advances tokens fun c => Fragment.readValue c what stops
  qualifiers : Keeps tokens Qualifiers.read
  preamble : Keeps tokens Preamble.read
  /-- The run as a whole, behind package and imports. -/
  run : ∀ r, Preamble.read (.start tokens) = .ok r →
    (∃ c, (TypeDecl.readAll r.cursor []).2 = .ok c ∧ c.At tokens tokens.length) ∨
      ∃ j c error, j < tokens.length ∧ c.At tokens j ∧ TypeDecl.read c = .error error ∧
        (TypeDecl.readAll r.cursor []).2 = .error error
  valueSlices : ∀ i c what stops r, c.At tokens i → Fragment.readValue c what stops = .ok r →
    ∃ n, Fragment.valueLength? stops c.ahead 0 0 = some n ∧ r.cursor.At tokens (i + n) ∧
      r.value.Covers source tokens i (i + n)
  statementSlices : ∀ i c r, c.At tokens i → Fragment.readStatement c = .ok r →
    ∃ n ended, Fragment.statementLength? (c.seesWord "do") c.ahead 0 0 = some (n, ended) ∧
      r.value.Covers source tokens i (i + n) ∧ r.cursor.At tokens (i + n + ended.toNat) ∧
      (ended = true → ∃ t, tokens[i + n]? = some t ∧ t.kind = .semicolon)
  /-- The bodies that are passed unread end where the scans over header and body end. -/
  bodyEnds : ∀ i c r, c.At tokens i → NominalDecl.passBody c = .ok r →
    ∃ n m, NominalDecl.headerLength? c.ahead 0 0 = some n ∧
      NominalDecl.bodyLength? (c.ahead.drop (n + 1)) 0 0 = some m ∧
      r.cursor.At tokens (i + (n + 1 + m))
  /-- Where a block asks for a statement, the statement found has a first token. -/
  statementStarts : ∀ c : Cursor, c.AtStatement → ∀ length ended,
    Fragment.statementLength? (c.seesWord "do") c.ahead 0 0 = some (length, ended) → 0 < length
  blockStarts : ∀ statement, (∀ c, c.AtStatement → statement c = Fragment.readStatement c) →
    ∀ c, Block.read c = Block.readWith statement c ∨ Block.TooLarge c.size (Block.read c)
  valueCounts : ∀ stops ahead, scan (Fragment.valueMove stops) ahead 0 0 =
    some (Fragment.valueLength? stops ahead 0 0)
  statementCounts : ∀ afterDo ahead, scan (Fragment.statementMove afterDo) ahead 0 0 =
    some (Fragment.statementLength? afterDo ahead 0 0)
  bodyCounts : ∀ ahead, scan NominalDecl.bodyMove ahead 1 0 = some (NominalDecl.bodyLength? ahead 0 0)

/-- Whatever its tokens are, a source that has tokens is read safely. -/
theorem CompilationUnit.safely_read_of_lexed {source : String} {tokens : List Token}
    (lexed : Token.ofSource source = .ok tokens) : SafelyRead source tokens := by
  have tiles := Token.ofSource_tiles lexed
  exact {
    types := TypeDecl.read_advances tokens
    members := BodyMember.read_advances tokens
    typeRefs := TypeRef.read_advances tokens
    annotations := Annotation.read_advances tokens
    blocks := Block.read_advances tokens
    statements := Fragment.readStatement_advances tokens
    values := Fragment.readValue_advances tokens
    qualifiers := Qualifiers.read_keeps tokens
    preamble := Preamble.read_keeps tokens
    run := by
      intro r returned
      obtain ⟨i, -, -, stands⟩ :=
        Preamble.read_keeps tokens 0 _ r (Cursor.at_start tokens) returned
      refine (TypeDecl.readAll_ends stands).imp_right ?_
      rintro ⟨j, c, error, -, rest⟩
      exact ⟨j, c, error, rest⟩
    valueSlices := fun _ _ _ _ _ stands => Fragment.readValue_covers tiles stands
    statementSlices := fun _ _ _ stands => Fragment.readStatement_covers tiles stands
    bodyEnds := fun _ _ _ stands => NominalDecl.passBody_reaches stands
    statementStarts := fun _ stands _ _ => stands.statementLength?
    blockStarts := fun _ agrees => Block.read_eq_readWith agrees
    valueCounts := fun stops ahead => Fragment.scan_valueMove stops ahead 0 0
    statementCounts := fun afterDo ahead => Fragment.scan_statementMove afterDo ahead 0 0
    bodyCounts := fun ahead => NominalDecl.scan_bodyMove ahead 0 0 }

theorem CompilationUnit.safely_read_unclosed :
    ∃ tokens, Token.ofSource "{ a(]; }" = .ok tokens ∧ SafelyRead "{ a(]; }" tokens := by
  have lexed : (Token.ofSource "{ a(]; }").toBool = true := by decide +kernel
  cases outcome : Token.ofSource "{ a(]; }" with
  | error piece => simp [outcome, Except.toBool] at lexed
  | ok tokens => exact ⟨tokens, rfl, safely_read_of_lexed outcome⟩

end TestDouble
