import TestDouble.Proofs.Nesting

/-!
# The tokens of a block

A block whose brackets are properly nested is read up to the brace that matches its first one, unless
it is or holds a block that is too large. Whatever the brackets, a block that is read loses no token:
what stands between its braces is the tokens of its statements, one behind the other.
-/

namespace TestDouble

/-! ### The brace that matches -/

namespace Block

/-- Properly nested tokens between braces are cut in one way only, up to the second brace. If no block
so cut is too large, this is what is read; else a complaint about one that is too large is all that
comes of it. -/
theorem read_ends_at_matching_brace {ts : List Token} (nested : Token.Nested Kind.brackets [] ts)
    {opening closing : Token} (opens : opening.kind = .leftBrace) (closes : closing.kind = .rightBrace)
    {after : List Token} {c : Cursor} (ahead : c.ahead = opening :: (ts ++ closing :: after)) :
    ∃ block, (∀ other d, Cuts c other d ↔ other = block ∧ d = ⟨some closing, after⟩) ∧
      ((∀ b ∈ block.blocks, b.statements.length < limit) →
        ∃ h, Block.read c = .ok ⟨block, ⟨some closing, after⟩, h⟩) ∧
      ((∃ b ∈ block.blocks, limit ≤ b.statements.length) →
        ∃ b ∈ block.blocks, limit ≤ b.statements.length ∧
          Block.read c = .error (.located b.span.start (.invalid "block too large"))) := by
  obtain ⟨block, cuts⟩ := cuts_of_nested nested opens closes ahead
  refine ⟨block, ?_, cuts.read, ?_⟩
  · intro other d
    constructor
    · exact cuts.unique
    · rintro ⟨rfl, rfl⟩
      exact cuts
  · rintro ⟨b, member, large⟩
    apply cuts.read_of_large
    intro small
    exact absurd (small b member) (Nat.not_lt.mpr large)

/-- A brace or a semicolon by itself. -/
private def sign (kind : Kind) : Token := ⟨kind, kind.spelling?.getD "", .origin, ""⟩

/-- Brackets of all kinds around semicolons, a nested block, and a statement that goes on behind its
closing brace. -/
private def mixedRun : List Token :=
  ((Token.ofSource "a(; [b\x7b;\x7d]); \x7b c ; \x7d ; do \x7b x[0] \x7d while (d)").toOption).getD []

private theorem nested_semicolons (n : Nat) :
    Token.Nested Kind.brackets [] (List.replicate n (sign .semicolon)) := by
  induction n with
  | zero => rfl
  | succ n ih => exact Token.nested_cons_iff.mpr ⟨[], .passes rfl (by decide), ih⟩

private theorem cutsInto_semicolons (n : Nat) (last : Option Token) :
    CutsInto ⟨last, List.replicate n (sign .semicolon) ++ [sign .rightBrace]⟩
      (List.replicate n .empty) ⟨some (sign .rightBrace), []⟩ := by
  induction n generalizing last with
  | zero => exact .closed (Cursor.passes_of_ahead rfl) rfl
  | succ n ih => exact .empty (Cursor.passes_of_ahead rfl) rfl (ih _)

/-- Such a block is read to its end, and one of too many empty statements is refused. -/
theorem read_ends_at_matching_brace_of_mixed_and_full :
    (20 < mixedRun.length ∧ ∃ block h,
      Block.read ⟨none, sign .leftBrace :: (mixedRun ++ [sign .rightBrace])⟩ =
        .ok ⟨block, ⟨some (sign .rightBrace), []⟩, h⟩) ∧
    ∃ start, Block.read ⟨none, sign .leftBrace ::
        (List.replicate limit (sign .semicolon) ++ [sign .rightBrace])⟩ =
      .error (.located start (.invalid "block too large")) := by
  have opens : (sign .leftBrace).kind = .leftBrace := rfl
  have closes : (sign .rightBrace).kind = .rightBrace := rfl
  constructor
  · have nested : Token.Nested Kind.brackets [] mixedRun := by decide +kernel
    have length : 20 < mixedRun.length ∧ mixedRun.length < 200 := by decide +kernel
    obtain ⟨block, unique, read, -⟩ :=
      read_ends_at_matching_brace (c := ⟨none, _⟩) nested opens closes rfl
    have cuts := (unique block _).mpr ⟨rfl, rfl⟩
    refine ⟨length.1, block, read (cuts.small ?_)⟩
    simp only [Cursor.size, List.length_cons, List.length_append, List.length_nil, limit]
    omega
  · obtain ⟨block, unique, -, refused⟩ :=
      read_ends_at_matching_brace (c := ⟨none, _⟩) (nested_semicolons limit) opens closes rfl
    have cuts := cutsInto_semicolons limit (some (sign .leftBrace))
    obtain ⟨rfl, -⟩ :=
      (unique ⟨_, _⟩ _).mp ⟨⟨_, _, Cursor.passes_of_ahead rfl, opens, cuts⟩, rfl⟩
    obtain ⟨b, -, -, error⟩ := refused ⟨_, by rw [Block.blocks_mk]; exact List.mem_cons_self,
      Nat.le_of_eq List.length_replicate.symm⟩
    exact ⟨_, error⟩

end Block

/-! ### One step of the scan for the end of a statement -/

/-- The depth of brackets behind a token, given the depth before it: it never falls below zero. -/
def Kind.depthBehind (depth : Nat) (kind : Kind) : Nat :=
  if kind.opens then depth + 1 else if kind.closes then depth - 1 else depth

/-- The depth of brackets behind tokens, given the depth before them. -/
def Token.depthBehind (depth : Nat) (ts : List Token) : Nat :=
  (ts.map Token.kind).foldl Kind.depthBehind depth

namespace Fragment

/-- The statement does not end at the token: neither with a semicolon or a closing brace outside of
all brackets, nor behind a closing brace. -/
structure PassesOn (afterDo : Bool) (t : Token) (rest : List Token) (depth : Nat) : Prop where
  semicolon : t.kind = .semicolon → 0 < depth
  brace : t.kind = .rightBrace → 0 < depth ∧ (depth = 1 → goesOn afterDo rest = true)

variable {afterDo : Bool} {t : Token} {rest : List Token} {depth n m : Nat} {ended : Bool}

/-- There the scan goes on behind the token. -/
theorem PassesOn.statementLength?_eq (on : PassesOn afterDo t rest depth) (n : Nat) :
    statementLength? afterDo (t :: rest) depth n =
      statementLength? afterDo rest (t.kind.depthBehind depth) (n + 1) := by
  obtain ⟨semicolon, brace⟩ := on
  rw [statementLength?]
  generalize t.kind = kind at semicolon brace ⊢
  cases kind with
  | semicolon =>
    have inside : depth ≠ 0 := Nat.pos_iff_ne_zero.mp (semicolon rfl)
    exact if_neg inside
  | rightBrace =>
    obtain ⟨inside, goes⟩ := brace rfl
    have noEnd : ¬(depth = 1 && !goesOn afterDo rest) = true := by simpa using goes
    exact (if_neg (Nat.pos_iff_ne_zero.mp inside)).trans (if_neg noEnd)
  | _ => rfl

/-- A statement ends before a token, with it, or behind it. -/
theorem statementLength?_cons
    (found : statementLength? afterDo (t :: rest) depth n = some (m, ended)) :
    (m = n ∧ depth = 0) ∨ (m = n + 1 ∧ depth = 1 ∧ t.kind = .rightBrace) ∨
      (PassesOn afterDo t rest depth ∧
        statementLength? afterDo rest (t.kind.depthBehind depth) (n + 1) = some (m, ended)) := by
  by_cases on : PassesOn afterDo t rest depth
  · exact .inr (.inr ⟨on, on.statementLength?_eq n ▸ found⟩)
  rw [statementLength?] at found
  split at found
  case h_6 kind =>
    by_cases outside : depth = 0
    · rw [if_pos outside] at found
      cases found
      exact .inl ⟨rfl, outside⟩
    · rw [if_neg outside] at found
      by_cases last : (depth = 1 && !goesOn afterDo rest) = true
      · rw [if_pos last] at found
        cases found
        rw [Bool.and_eq_true, decide_eq_true_eq] at last
        exact .inr (.inl ⟨rfl, last.1, kind⟩)
      · refine absurd ⟨by simp [kind], fun _ => ⟨Nat.pos_of_ne_zero outside, ?_⟩⟩ on
        simpa using last
  case h_7 kind =>
    by_cases outside : depth = 0
    · rw [if_pos outside] at found
      cases found
      exact .inl ⟨rfl, outside⟩
    · exact absurd ⟨fun _ => Nat.pos_of_ne_zero outside, by simp [kind]⟩ on
  all_goals exact absurd ⟨by simp_all, by simp_all⟩ on

/-- No semicolon of a statement stands outside of its brackets. -/
theorem statementLength?_inside {ts : List Token}
    (found : statementLength? afterDo (ts ++ rest) depth n = some (n + ts.length, ended))
    {before after : List Token} (split : ts = before ++ t :: after) (kind : t.kind = .semicolon) :
    0 < Token.depthBehind depth before := by
  -- The scan passes every token of the statement but the last one, and counts brackets as it goes.
  induction before generalizing ts depth n with
  | nil =>
    subst split
    rw [List.nil_append, List.cons_append] at found
    rcases statementLength?_cons found with ⟨none, -⟩ | ⟨-, -, brace⟩ | ⟨on, -⟩
    · simp at none
    · simp [kind] at brace
    · exact on.semicolon kind
  | cons u before ih =>
    subst split
    rw [List.cons_append, List.cons_append] at found
    rcases statementLength?_cons found with ⟨none, -⟩ | ⟨one, -⟩ | ⟨-, later⟩
    · simp at none
    · simp at one
    · rw [List.length_cons, ← Nat.add_assoc, Nat.add_right_comm] at later
      exact ih later rfl

/-- What goes on behind a brace goes on with the same lexemes before a semicolon. -/
private theorem goesOn_before_semicolon {ts us : List Token} (same : us.map Token.lexeme = ts.map Token.lexeme)
    (goes : goesOn afterDo (ts ++ rest) = true) {semicolon : Token}
    (isSemicolon : semicolon.kind = .semicolon) (after : List Token) :
    goesOn afterDo (us ++ semicolon :: after) = true := by
  cases ts with
  | nil =>
    obtain rfl := List.map_eq_nil_iff.mp same
    simp [goesOn, isSemicolon]
  | cons t ts =>
    obtain ⟨u, us, rfl, lexeme, -⟩ := List.map_eq_cons_iff.mp same
    have kind : u.kind = t.kind := congrArg Lexeme.kind lexeme
    have text : u.text = t.text := congrArg Lexeme.text lexeme
    rw [List.cons_append, goesOn] at goes ⊢
    rwa [kind, text]

/-- A statement that is written again, with a semicolon behind it, ends there. -/
theorem statementLength?_before_semicolon {ts us : List Token}
    (found : statementLength? afterDo (ts ++ rest) depth n = some (n + ts.length, ended))
    (same : us.map Token.lexeme = ts.map Token.lexeme) {semicolon : Token}
    (isSemicolon : semicolon.kind = .semicolon) (after : List Token) :
    statementLength? afterDo (us ++ semicolon :: after) depth n = some (n + us.length, true) := by
  have stops (n : Nat) :
      statementLength? afterDo (semicolon :: after) 0 n = some (n, true) := by
    rw [statementLength?, isSemicolon]
    rfl
  -- The scan passes the same tokens with the same depth, and the depth behind the last one is zero.
  induction ts generalizing us depth n with
  | nil =>
    obtain rfl := List.map_eq_nil_iff.mp same
    cases rest with
    | nil => simp [statementLength?] at found
    | cons t rest =>
      rcases statementLength?_cons found with ⟨-, outside⟩ | ⟨one, -⟩ | ⟨-, later⟩
      · subst outside
        exact stops n
      · simp at one
      · obtain ⟨k, counted, -⟩ := statementLength?_endsWithin later
        simp only [List.length_nil] at counted
        omega
  | cons t ts ih =>
    obtain ⟨u, us, rfl, lexeme, others⟩ := List.map_eq_cons_iff.mp same
    have kind : u.kind = t.kind := congrArg Lexeme.kind lexeme
    have count : n + (us.length + 1) = n + 1 + us.length := by omega
    rw [List.cons_append] at found ⊢
    rw [List.length_cons] at found ⊢
    rw [count]
    rcases statementLength?_cons found with ⟨none, -⟩ | ⟨one, outside, brace⟩ | ⟨on, later⟩
    · omega
    · -- The statement ended behind its last brace; now it goes on there, to the semicolon.
      obtain rfl : ts = [] := List.length_eq_zero_iff.mp (by omega)
      obtain rfl := List.map_eq_nil_iff.mp others
      have isBrace : u.kind = .rightBrace := kind.trans brace
      subst outside
      have on : PassesOn afterDo u (semicolon :: after) 1 := by
        refine ⟨by simp [isBrace], fun _ => ⟨Nat.one_pos, fun _ => ?_⟩⟩
        simp [goesOn, isSemicolon]
      rw [List.nil_append, on.statementLength?_eq, isBrace]
      exact stops (n + 1)
    · have onAgain : PassesOn afterDo u (us ++ semicolon :: after) depth := by
        refine ⟨fun isEnd => on.semicolon (kind ▸ isEnd), fun isBrace => ?_⟩
        obtain ⟨inside, goes⟩ := on.brace (kind ▸ isBrace)
        exact ⟨inside, fun last => goesOn_before_semicolon others (goes last) isSemicolon after⟩
      rw [onAgain.statementLength?_eq, kind]
      exact ih (by rw [later]; congr 2; omega) others

end Fragment

/-! ### Statements and their tokens -/

/-- The text is what the source holds from the start of the first token to the end of the last. -/
def Token.Quotes (source : String) (ts : List Token) (text : String) : Prop :=
  ∃ first last, ts.head? = some first ∧ ts.getLast? = some last ∧
    Text.Stands source first.location.offset last.stopOffset text

/-- The fragment is cut from the tokens: it holds their source text, does not start with a brace or a
semicolon, and has no semicolon outside of its brackets. -/
structure Fragment.CutFrom (source : String) (ts : List Token) (f : Fragment) : Prop where
  quotes : Token.Quotes source ts f.text
  starts : ∀ t, ts.head? = some t → t.kind ∉ [Kind.leftBrace, .rightBrace, .semicolon]
  inside : ∀ before t after, ts = before ++ t :: after → t.kind = .semicolon →
    0 < Token.depthBehind 0 before

/-- The tokens are those of the statements, one behind the other: a nested block has its own between
its braces, an empty statement has one semicolon, and a fragment has a run of tokens, with or without
a semicolon that is dropped. -/
inductive BodyStatement.Cover (Cut : List Token → Fragment → Prop) :
    List Token → List BodyStatement → Prop where
  | nil : Cover Cut [] []
  | empty {t : Token} {ts : List Token} {rest : List BodyStatement} :
      t.kind = .semicolon → Cover Cut ts rest → Cover Cut (t :: ts) (.empty :: rest)
  | block {opening closing : Token} {inner ts : List Token} {statements rest : List BodyStatement}
      {span : Span} : opening.kind = .leftBrace → closing.kind = .rightBrace →
      Cover Cut inner statements → Cover Cut ts rest →
      Cover Cut (opening :: inner ++ closing :: ts) (.block ⟨statements, span⟩ :: rest)
  | fragment {own dropped ts : List Token} {f : Fragment} {rest : List BodyStatement} :
      Cut own f → (dropped = [] ∨ ∃ t : Token, dropped = [t] ∧ t.kind = .semicolon) →
      Cover Cut ts rest → Cover Cut (own ++ dropped ++ ts) (.fragment f :: rest)

/-- Tokens that are cut into statements are the tokens of these statements, and a closing brace. -/
theorem Block.CutsInto.cover {tokens : List Token} {Cut : List Token → Fragment → Prop}
    (each : ∀ (c : Cursor) (r : Consumed c Fragment), c.ahead <:+ tokens → c.AtStatement →
      Fragment.readStatement c = .ok r → ∃ own dropped, c.Passes (own ++ dropped) r.cursor ∧
        Cut own r.value ∧ (dropped = [] ∨ ∃ t : Token, dropped = [t] ∧ t.kind = .semicolon))
    {c c' : Cursor} {statements : List BodyStatement} (cuts : CutsInto c statements c')
    (within : c.ahead <:+ tokens) :
    ∃ inner closing, c.Passes (inner ++ [closing]) c' ∧ closing.kind = .rightBrace ∧
      BodyStatement.Cover Cut inner statements := by
  have later {c c' : Cursor} {taken : List Token} (passes : c.Passes taken c')
      (within : c.ahead <:+ tokens) : c'.ahead <:+ tokens :=
    .trans ⟨taken, passes.ahead.symm⟩ within
  induction cuts with
  | @closed c c' t passes isBrace => exact ⟨[], t, passes, isBrace, .nil⟩
  | @empty c c₁ c' t rest passes isSemicolon _ ih =>
    obtain ⟨inner, closing, others, isBrace, cover⟩ := ih (later passes within)
    exact ⟨t :: inner, closing, passes.trans others, isBrace, .empty isSemicolon cover⟩
  | @block c c₁ c₂ c' t statements rest passes isBrace _ _ ihInner ihRest =>
    obtain ⟨inner, closing, passesInner, closes, coverInner⟩ := ihInner (later passes within)
    have passesBlock := passes.trans passesInner
    obtain ⟨ts, last, others, closesLast, cover⟩ := ihRest (later passesBlock within)
    refine ⟨t :: inner ++ closing :: ts, last, ?_, closesLast, .block isBrace closes coverInner cover⟩
    simpa using passesBlock.trans others
  | @fragment c c₁ c' f h rest stands statement _ ih =>
    obtain ⟨own, dropped, passes, cut, ending⟩ := each c _ within stands statement
    obtain ⟨ts, last, others, closesLast, cover⟩ := ih (later passes within)
    refine ⟨own ++ dropped ++ ts, last, ?_, closesLast, .fragment cut ending cover⟩
    simpa using passes.trans others

/-- A run of tokens of a source is quoted by its fragment. -/
theorem Token.quotes_ofTokens {source : String} {before more after : List Token} {first : Token}
    (tiles : Tiles .origin source.toList (before ++ (first :: more ++ after))) :
    Quotes source (first :: more) (Fragment.ofTokens first more).text := by
  obtain ⟨front, back, whole, later⟩ := tiles.split
  obtain ⟨leading, rest, rfl, placed, -, stop⟩ := later.quote
  refine ⟨first, more.getLast?.getD first, rfl, List.getLast?_cons, String.ofList (front ++ leading),
    String.ofList rest, ?_, ?_, ?_⟩
  · rw [Fragment.text_ofTokens, ← String.toList_inj]
    simp [whole]
  · rw [placed, ← Location.after_append, Location.offset_after]
    simp [Location.origin]
  · rw [stop, Location.offset_after, Fragment.text_ofTokens]
    simp [Location.origin, String.ofList_append, String.utf8ByteSize_append, Nat.add_assoc]

/-- So is a run of the tokens that a source is taken apart into. -/
theorem Token.quotes_of_run {source : String} {tokens more : List Token} {first : Token}
    (lexed : ofSource source = .ok tokens) (run : first :: more <:+: tokens) :
    Quotes source (first :: more) (Fragment.ofTokens first more).text := by
  obtain ⟨before, after, rfl⟩ := run
  have tiles := ofSource_tiles lexed
  rw [List.append_assoc] at tiles
  exact quotes_ofTokens tiles

/-- A statement is cut from the tokens passed. -/
theorem Fragment.cutFrom_of_readStatement {source : String} {tokens : List Token}
    (lexed : Token.ofSource source = .ok tokens) {c : Cursor} {r : Consumed c Fragment}
    (within : c.ahead <:+ tokens) (stands : c.AtStatement) (returned : readStatement c = .ok r) :
    ∃ own dropped, c.Passes (own ++ dropped) r.cursor ∧ CutFrom source own r.value ∧
      (dropped = [] ∨ ∃ t : Token, dropped = [t] ∧ t.kind = .semicolon) := by
  obtain ⟨first, more, dropped, ended, passes, value, length, ending⟩ := readStatement_eq_ok returned
  refine ⟨first :: more, dropped, passes, ?_, ?_⟩
  swap
  · cases ending with
    | nothing => exact .inl rfl
    | semicolon kind => exact .inr ⟨_, rfl, kind⟩
  rw [value]
  constructor
  · have run : first :: more <:+: c.ahead := by
      rw [passes.ahead, List.append_assoc]
      exact (List.prefix_append ..).isInfix
    exact Token.quotes_of_run lexed (run.trans within.isInfix)
  · intro t isFirst
    obtain ⟨kind, next, notOpen, notClosed, notEnded⟩ := stands
    obtain rfl : first = t := Option.some.inj isFirst
    rw [Cursor.nextKind, passes.ahead] at next
    obtain rfl : first.kind = kind := Option.some.inj next
    simp [notOpen, notClosed, notEnded]
  · intro before t after split kind
    rw [passes.ahead, List.append_assoc, ← Nat.zero_add (more.length + 1)] at length
    exact statementLength?_inside length split kind

/-- A block that is read loses no token. -/
theorem Block.tokens_of_read {source : String} {tokens : List Token}
    (lexed : Token.ofSource source = .ok tokens) {i : Nat} {c : Cursor} (stands : c.At tokens i)
    {r : Consumed c Block} (returned : Block.read c = .ok r) :
    ∃ opening inner closing, c.Passes (opening :: inner ++ [closing]) r.cursor ∧
      opening.kind = .leftBrace ∧ closing.kind = .rightBrace ∧
      BodyStatement.Cover (Fragment.CutFrom source) inner r.value.statements := by
  obtain ⟨⟨opening, c₁, passes, opens, cuts⟩, -⟩ := cuts_of_read returned
  have within : c₁.ahead <:+ tokens := by
    have ahead : c.ahead <:+ tokens := stands.ahead ▸ List.drop_suffix i tokens
    exact .trans ⟨[opening], passes.ahead.symm⟩ ahead
  obtain ⟨inner, closing, others, closes, cover⟩ :=
    cuts.cover (fun _ _ => Fragment.cutFrom_of_readStatement lexed) within
  exact ⟨opening, inner, closing, passes.trans others, opens, closes, cover⟩

/-- A statement with mismatched brackets, one that goes on behind a brace, an empty one, a block. -/
private def looseBlock : String :=
  "\x7b a(]; if (x) \x7b y; \x7d else z; ; \x7b w \x7d \x7d"

private def statementCount (source : String) : Option Nat :=
  (Token.ofSource source).toOption.bind fun tokens =>
    (Block.read (.start tokens)).toOption.map (·.value.statements.length)

theorem Block.tokens_of_read_loose :
    ∃ tokens, Token.ofSource looseBlock = .ok tokens ∧
      ∃ r, Block.read (.start tokens) = .ok r ∧ r.value.statements.length = 4 ∧
        ∃ opening inner closing, (Cursor.start tokens).Passes (opening :: inner ++ [closing]) r.cursor ∧
          opening.kind = .leftBrace ∧ closing.kind = .rightBrace ∧
          BodyStatement.Cover (Fragment.CutFrom looseBlock) inner r.value.statements := by
  have counted : statementCount looseBlock = some 4 := by decide +kernel
  obtain ⟨tokens, found, read⟩ := Option.bind_eq_some_iff.mp counted
  obtain ⟨r, returned, length⟩ := Option.map_eq_some_iff.mp read
  have lexed : Token.ofSource looseBlock = .ok tokens := toOption_eq_some found
  have returned : Block.read (.start tokens) = .ok r := toOption_eq_some returned
  exact ⟨tokens, lexed, r, returned, length,
    Block.tokens_of_read lexed (Cursor.at_start tokens) returned⟩

end TestDouble
