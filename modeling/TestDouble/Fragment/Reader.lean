import TestDouble.Body
import TestDouble.Cursor

/-!
# Reading source text as it stands

Values of annotations, initializers of fields and statements are not analysed: a scan over the
tokens ahead finds where they end, and the text of the tokens passed is kept.
-/

namespace TestDouble

namespace Fragment

/-- How many tokens a value takes, beyond the `n` counted so far: it ends before a bracket that
closes more than was opened, or where `stops` holds of the tokens ahead outside all brackets. -/
def valueLength? (stops : List Token → Bool) : List Token → (depth n : Nat) → Option Nat
  | [], _, _ => none
  | token :: rest, depth, n =>
    if token.kind.opens then valueLength? stops rest (depth + 1) (n + 1)
    else if token.kind.closes then
      if depth = 0 then some n else valueLength? stops rest (depth - 1) (n + 1)
    else if depth = 0 && stops (token :: rest) then some n
    else valueLength? stops rest depth (n + 1)

/-- Whether a statement goes on behind a closing brace: with `else` and the like, with what
completes an expression, or with the `while` of a `do`. -/
def goesOn (afterDo : Bool) : List Token → Bool
  | [] => false
  | token :: _ =>
    match token.kind with
    | .identifier =>
      token.text == "else" || token.text == "catch" || token.text == "finally" ||
        (afterDo && token.text == "while")
    | .semicolon | .rightParen | .comma | .dot | .operator | .assign | .less | .greater
    | .question | .ampersand | .star | .leftBracket => true
    | _ => false

/-- How many tokens a statement takes, beyond the `n` counted so far, and whether a semicolon ends
it. It ends at a semicolon outside all brackets, behind its last closing brace, or before a brace
that closes the block around it. A round or square bracket too many closes nothing. -/
def statementLength? (afterDo : Bool) : List Token → (depth n : Nat) → Option (Nat × Bool)
  | [], _, _ => none
  | token :: rest, depth, n =>
    match token.kind with
    | .leftParen | .leftBracket | .leftBrace => statementLength? afterDo rest (depth + 1) (n + 1)
    | .rightParen | .rightBracket => statementLength? afterDo rest (depth - 1) (n + 1)
    | .rightBrace =>
      if depth = 0 then some (n, false)
      else if depth = 1 && !goesOn afterDo rest then some (n + 1, false)
      else statementLength? afterDo rest (depth - 1) (n + 1)
    | .semicolon =>
      if depth = 0 then some (n, true) else statementLength? afterDo rest depth (n + 1)
    | _ => statementLength? afterDo rest depth (n + 1)

/-- A value takes no more tokens than there are. -/
theorem valueLength?_le {stops : List Token → Bool} {tokens : List Token} {depth n m : Nat}
    (found : valueLength? stops tokens depth n = some m) : m ≤ n + tokens.length := by
  fun_induction valueLength? stops tokens depth n with
  | case1 => simp at found
  | case2 depth n token rest opens ih | case4 depth n token rest _ closes inside ih
  | case6 depth n token rest _ _ going ih =>
    have bound := ih found
    simp only [List.length_cons]
    omega
  | case3 n token rest | case5 depth n token rest =>
    cases found
    omega

/-- Where a statement that takes `m` tokens, of which `n` were counted before, ends among the
tokens ahead: a semicolon comes next where it ends at one. -/
def EndsWithin (tokens : List Token) (n m : Nat) (ended : Bool) : Prop :=
  ∃ k, m = n + k ∧ k ≤ tokens.length ∧
    (ended = true → ∃ t rest, tokens.drop k = t :: rest ∧ t.kind = .semicolon)

private theorem EndsWithin.later {rest : List Token} {n m : Nat} {ended : Bool} (token : Token)
    (ends : EndsWithin rest (n + 1) m ended) : EndsWithin (token :: rest) n m ended := by
  obtain ⟨k, rfl, bound, semicolon⟩ := ends
  exact ⟨k + 1, by omega, by simpa using bound, by simpa using semicolon⟩

/-- A statement takes no more tokens than there are. -/
theorem statementLength?_endsWithin {afterDo : Bool} {tokens : List Token} {depth n m : Nat}
    {ended : Bool} (found : statementLength? afterDo tokens depth n = some (m, ended)) :
    EndsWithin tokens n m ended := by
  fun_induction statementLength? afterDo tokens depth n with
  | case1 => simp at found
  | case7 token rest n =>
    cases found
    exact ⟨0, rfl, Nat.zero_le _, by simp⟩
  | case8 token rest depth n =>
    cases found
    exact ⟨1, rfl, by simp, by simp⟩
  | case10 token rest n semicolon =>
    cases found
    exact ⟨0, rfl, Nat.zero_le _, fun _ => ⟨token, rest, rfl, semicolon⟩⟩
  | case2 token rest depth n _ ih | case3 token rest depth n _ ih | case4 token rest depth n _ ih
  | case5 token rest depth n _ ih | case6 token rest depth n _ ih
  | case9 token rest depth n _ _ _ ih | case11 token rest depth n _ _ ih
  | case12 token rest depth n _ _ _ _ _ _ _ ih => exact (ih found).later token

/-- What a statement takes is there, and the semicolon that ends it too. -/
theorem statementLength?_le {afterDo : Bool} {c : Cursor} {m : Nat} {ended : Bool}
    (found : statementLength? afterDo c.ahead 0 0 = some (m, ended)) :
    m + ended.toNat ≤ c.size := by
  obtain ⟨k, counted, bound, semicolon⟩ := statementLength?_endsWithin found
  obtain rfl : m = k := by omega
  cases ended with
  | false => exact bound
  | true =>
    obtain ⟨t, rest, dropped, -⟩ := semicolon rfl
    have length := congrArg List.length dropped
    rw [List.length_drop, List.length_cons] at length
    rw [Cursor.size, Bool.toNat_true]
    omega

/-- The next `n + 1` tokens, all of which are there, as a fragment. -/
def ofNext (c : Cursor) (n : Nat) (within : n + 1 ≤ c.size) : Fragment :=
  ofTokens (c.ahead.head (List.ne_nil_of_length_pos (Nat.lt_of_lt_of_le (Nat.succ_pos n) within)))
    (c.ahead.tail.take n)

/-- Read a value up to where `stops` holds; `what` names it in errors. -/
def readValue (c : Cursor) (what : String) (stops : List Token → Bool) : Reading Fragment c :=
  match counted : valueLength? stops c.ahead 0 0 with
  | none => .error (c.expectedAtEnd what)
  | some 0 => .error (c.expected what)
  | some (n + 1) =>
    have within : n + 1 ≤ c.size := Nat.zero_add c.size ▸ valueLength?_le counted
    .ok ⟨ofNext c n within, c.skip (n + 1) within, Cursor.size_skip_lt within (Nat.succ_pos n)⟩

/-- Read a statement. The semicolon that ends it is passed but not kept. -/
def readStatement (c : Cursor) : Reading Fragment c :=
  match counted : statementLength? (c.seesWord "do") c.ahead 0 0 with
  | none => .error (c.expectedAtEnd "';' to end statement")
  | some (0, _) => .error (c.expected "statement")
  | some (n + 1, ended) =>
    have within : n + 1 + ended.toNat ≤ c.size := statementLength?_le counted
    .ok ⟨ofNext c n (Nat.le_of_add_right_le within), c.skip (n + 1 + ended.toNat) within,
      Cursor.size_skip_lt within (Nat.add_pos_left (Nat.succ_pos n) _)⟩

end Fragment

end TestDouble
