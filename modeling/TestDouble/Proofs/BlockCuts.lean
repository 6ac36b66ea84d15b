import TestDouble.Proofs.ReadingSafety

/-!
# How blocks are cut

`Block.Cuts` says how the tokens of a block are cut into statements, however many there are. The
reader of blocks finds these cuts and no others. It returns them unless some block has as many
statements as the limit, and then it complains about such a block and about nothing else.
-/

namespace TestDouble

/-! ### Blocks inside blocks -/

mutual

/-- A block and the blocks inside it, at any depth. -/
def Block.blocks : Block → List Block
  | ⟨statements, span⟩ => ⟨statements, span⟩ :: BodyStatement.allBlocks statements

/-- The blocks a statement is or holds. -/
def BodyStatement.blocks : BodyStatement → List Block
  | .block block => block.blocks
  | .fragment _ => []
  | .empty => []

/-- The blocks that several statements are or hold. -/
def BodyStatement.allBlocks : List BodyStatement → List Block
  | [] => []
  | statement :: rest => statement.blocks ++ BodyStatement.allBlocks rest

end

@[simp] theorem Block.blocks_mk (statements : List BodyStatement) (span : Span) :
    Block.blocks ⟨statements, span⟩ = ⟨statements, span⟩ :: BodyStatement.allBlocks statements := by
  rw [Block.blocks]

namespace BodyStatement

@[simp] theorem allBlocks_nil : allBlocks [] = [] := by rw [allBlocks]

@[simp] theorem allBlocks_empty (rest : List BodyStatement) :
    allBlocks (.empty :: rest) = allBlocks rest := by rw [allBlocks, blocks, List.nil_append]

@[simp] theorem allBlocks_fragment (f : Fragment) (rest : List BodyStatement) :
    allBlocks (.fragment f :: rest) = allBlocks rest := by rw [allBlocks, blocks, List.nil_append]

@[simp] theorem allBlocks_block (block : Block) (rest : List BodyStatement) :
    allBlocks (.block block :: rest) = block.blocks ++ allBlocks rest := by rw [allBlocks, blocks]

end BodyStatement

/-! ### Cuts -/

theorem bind_of_error {ε α β : Type} {x : Except ε α} {e : ε} (failed : x = .error e)
    {f : α → Except ε β} : (x >>= f) = .error e := by
  subst failed
  rfl

theorem Cursor.passes_of_ahead {c : Cursor} {t : Token} {rest : List Token}
    (ahead : c.ahead = t :: rest) : c.Passes [t] ⟨some t, rest⟩ := ⟨ahead, rfl⟩

theorem Cursor.Passes.accept? {c c' : Cursor} {t : Token} (passes : c.Passes [t] c') {kind : Kind}
    (isKind : t.kind = kind) : ∃ h, c.accept? kind = some ⟨t, c', h⟩ := by
  obtain ⟨last, ahead⟩ := c
  obtain ⟨last', rest⟩ := c'
  obtain ⟨ahead, last⟩ := passes
  simp only [List.singleton_append, List.getLast?_singleton, Option.some_or] at ahead last
  subst ahead last
  rw [Cursor.accept?, if_pos isKind]
  exact ⟨_, rfl⟩

theorem Cursor.Passes.nextKind {c c' : Cursor} {t : Token} (passes : c.Passes [t] c') :
    c.nextKind = some t.kind := by
  rw [Cursor.nextKind, passes.ahead]
  rfl

namespace Block

/-- How tokens are cut into statements, up to the brace that closes the block around them and is
passed. A nested block is cut in the same way, so no block is too large here. -/
inductive CutsInto : Cursor → List BodyStatement → Cursor → Prop where
  | closed {c c' : Cursor} {t : Token} : c.Passes [t] c' → t.kind = .rightBrace → CutsInto c [] c'
  | empty {c c₁ c' : Cursor} {t : Token} {rest : List BodyStatement} :
      c.Passes [t] c₁ → t.kind = .semicolon → CutsInto c₁ rest c' → CutsInto c (.empty :: rest) c'
  | block {c c₁ c₂ c' : Cursor} {t : Token} {inner rest : List BodyStatement} :
      c.Passes [t] c₁ → t.kind = .leftBrace → CutsInto c₁ inner c₂ → CutsInto c₂ rest c' →
      CutsInto c (.block ⟨inner, ⟨c.location, c₂.lastStop⟩⟩ :: rest) c'
  | fragment {c c₁ c' : Cursor} {f : Fragment} {h : c₁.size < c.size} {rest : List BodyStatement} :
      c.AtStatement → Fragment.readStatement c = .ok ⟨f, c₁, h⟩ → CutsInto c₁ rest c' →
      CutsInto c (.fragment f :: rest) c'

/-- How a block is cut, from its opening brace to the brace that closes it. -/
structure Cuts (c : Cursor) (block : Block) (c' : Cursor) : Prop where
  opened : ∃ t c₁, c.Passes [t] c₁ ∧ t.kind = .leftBrace ∧ CutsInto c₁ block.statements c'
  span : block.span = ⟨c.location, c'.lastStop⟩

theorem Cuts.cons {c c₁ c' : Cursor} {block : Block} {rest : List BodyStatement}
    (first : Cuts c block c₁) (later : CutsInto c₁ rest c') :
    CutsInto c (.block block :: rest) c' := by
  obtain ⟨statements, placed⟩ := block
  obtain ⟨⟨t, c₀, passes, isBrace, inner⟩, span⟩ := first
  obtain rfl : placed = ⟨c.location, c₁.lastStop⟩ := span
  exact .block passes isBrace inner later

/-! ### What is read is cut -/

private theorem read_and_readStatements_cut :
    (∀ c r, Block.read c = .ok r → Cuts c r.value r.cursor) ∧
    ∀ origin start c within count read r,
      readStatements origin start c within count read = .ok r →
        ∃ statements, r.value = read.reverse ++ statements ∧ CutsInto c statements r.cursor := by
  apply Block.read.mutual_induct
  case case1 =>
    intro c ih r returned
    rw [Block.read] at returned
    obtain ⟨⟨brace, c₁, h₁⟩, opened, returned⟩ := bind_eq_ok returned
    obtain ⟨⟨found, c₂, h₂⟩, closed, finished⟩ := bind_eq_ok returned
    cases finished
    obtain ⟨passed, isBrace⟩ := Cursor.expect_eq_ok opened
    obtain ⟨statements, rfl, cuts⟩ := ih c₁ h₁ _ closed
    exact ⟨⟨brace, c₁, passed, isBrace, cuts⟩, rfl⟩
  case case2 =>
    intro origin start c within count read full r returned
    simp [readStatements, full] at returned
  case case3 =>
    intro origin start c within count read open_ brace c₁ h₁ closing r returned
    rw [readStatements, if_neg open_, closing] at returned
    cases returned
    obtain ⟨passed, isBrace⟩ := Cursor.accept?_eq_some closing
    exact ⟨[], (List.append_nil _).symm, .closed passed isBrace⟩
  case case4 =>
    intro origin start c within count read open_ notClosing semicolon c₁ h₁ found ih r returned
    rw [readStatements, if_neg open_, notClosing, found] at returned
    obtain ⟨rest, value, cuts⟩ := ih r returned
    obtain ⟨passed, isSemicolon⟩ := Cursor.accept?_eq_some found
    exact ⟨.empty :: rest, by simpa using value, .empty passed isSemicolon cuts⟩
  case case5 =>
    intro origin start c within count read open_ notClosing notEmpty ended r returned
    simp [readStatements, open_, notClosing, notEmpty, ended] at returned
  case case6 =>
    intro origin start c within count read open_ notClosing notEmpty more nested ih ihRest r returned
    rw [readStatements, if_neg open_, notClosing, notEmpty] at returned
    simp only [more, nested, if_true] at returned
    obtain ⟨⟨block, c₁, h₁⟩, inner, returned⟩ := bind_eq_ok returned
    obtain ⟨rest, value, cuts⟩ := ihRest block c₁ h₁ r returned
    exact ⟨.block block :: rest, by simpa using value, (ih _ inner).cons cuts⟩
  case case7 =>
    intro origin start c within count read open_ notClosing notEmpty more notNested ihRest r returned
    have stands := Cursor.atStatement_of_refused more notClosing notEmpty notNested
    rw [readStatements, if_neg open_, notClosing, notEmpty] at returned
    simp only [more, notNested] at returned
    obtain ⟨⟨fragment, c₁, h₁⟩, statement, returned⟩ := bind_eq_ok returned
    obtain ⟨rest, value, cuts⟩ := ihRest fragment c₁ h₁ r returned
    exact ⟨.fragment fragment :: rest, by simpa using value, .fragment stands statement cuts⟩

/-- A block that is read is cut so. -/
theorem cuts_of_read {c : Cursor} {r : Consumed c Block} (returned : Block.read c = .ok r) :
    Cuts c r.value r.cursor :=
  read_and_readStatements_cut.1 c r returned

/-! ### What is cut is read

One step of the reader for each way to cut, as long as the block is not too large. -/

section

variable {origin c c₁ : Cursor} (start : Location) (within : c.size < origin.size) {count : Nat}
  (read : List BodyStatement) {t : Token}

/-- The complaint about a block too large that starts at the given place. -/
def tooLarge (start : Location) : ParseError := .located start (.invalid "block too large")

theorem readStatements_of_limit (full : limit ≤ count) :
    readStatements origin start c within count read = .error (tooLarge start) := by
  rw [readStatements, if_pos full]
  rfl

private theorem readStatements_closed (few : count < limit) (passes : c.Passes [t] c₁)
    (isBrace : t.kind = .rightBrace) :
    ∃ h, readStatements origin start c within count read = .ok ⟨read.reverse, c₁, h⟩ := by
  obtain ⟨h₁, closing⟩ := passes.accept? isBrace
  rw [readStatements, if_neg (Nat.not_le.mpr few), closing]
  exact ⟨by omega, rfl⟩

private theorem readStatements_empty (few : count < limit) (passes : c.Passes [t] c₁)
    (isSemicolon : t.kind = .semicolon) :
    ∃ h, readStatements origin start c within count read =
      readStatements origin start c₁ h (count + 1) (.empty :: read) := by
  obtain ⟨h₁, found⟩ := passes.accept? isSemicolon
  have notClosing : c.accept? .rightBrace = none := by
    apply Cursor.accept?_eq_none
    simp [passes.nextKind, isSemicolon]
  rw [readStatements, if_neg (Nat.not_le.mpr few), notClosing, found]
  exact ⟨by omega, rfl⟩

private theorem readStatements_block (few : count < limit) (passes : c.Passes [t] c₁)
    (isBrace : t.kind = .leftBrace) :
    readStatements origin start c within count read = (do
      let ⟨block, c₂, h₂⟩ ← Block.read c
      readStatements origin start c₂ (Cursor.lt_of_lt_lt within h₂) (count + 1)
        (.block block :: read)) := by
  have next : c.nextKind = some .leftBrace := by rw [passes.nextKind, isBrace]
  have notClosing : c.accept? .rightBrace = none := Cursor.accept?_eq_none (by simp [next])
  have notEmpty : c.accept? .semicolon = none := Cursor.accept?_eq_none (by simp [next])
  rw [readStatements, if_neg (Nat.not_le.mpr few), notClosing, notEmpty]
  simp [passes.ahead, Cursor.sees_one, next]

private theorem readStatements_fragment (few : count < limit) (stands : c.AtStatement) {f : Fragment}
    {h₁ : c₁.size < c.size} (statement : Fragment.readStatement c = .ok ⟨f, c₁, h₁⟩) :
    ∃ h, readStatements origin start c within count read =
      readStatements origin start c₁ h (count + 1) (.fragment f :: read) := by
  obtain ⟨kind, next, notOpen, notClosed, notEnded⟩ := stands
  have notClosing : c.accept? .rightBrace = none :=
    Cursor.accept?_eq_none (by simpa [next] using notClosed)
  have notEmpty : c.accept? .semicolon = none :=
    Cursor.accept?_eq_none (by simpa [next] using notEnded)
  have more : c.ahead.isEmpty = false := Cursor.isEmpty_of_nextKind (by simp [next])
  rw [readStatements, if_neg (Nat.not_le.mpr few), notClosing, notEmpty]
  simp only [more, Cursor.sees_one, next, Option.some.injEq, notOpen, decide_false,
    Bool.false_eq_true, if_false]
  exact ⟨by omega, bind_of_ok statement rfl⟩

end

/-! ### Blocks that are not too large -/

/-- Each of the blocks has fewer statements than the limit. -/
def Small (blocks : List Block) : Prop := ∀ b ∈ blocks, b.statements.length < limit

theorem small_append_iff {first second : List Block} :
    Small (first ++ second) ↔ Small first ∧ Small second :=
  List.forall_mem_append

theorem small_blocks_iff {statements : List BodyStatement} {span : Span} :
    Small (Block.blocks ⟨statements, span⟩) ↔
      statements.length < limit ∧ Small (BodyStatement.allBlocks statements) := by
  rw [Block.blocks_mk]
  exact List.forall_mem_cons

/-- A block whose statements are read is read. -/
private theorem read_of_readStatements {c c₁ c' : Cursor} {t : Token} (passes : c.Passes [t] c₁)
    (isBrace : t.kind = .leftBrace) {statements : List BodyStatement}
    (listed : ∀ within, ∃ h, readStatements c c.location c₁ within 0 [] = .ok ⟨statements, c', h⟩) :
    ∃ h, Block.read c = .ok ⟨⟨statements, ⟨c.location, c'.lastStop⟩⟩, c', h⟩ := by
  obtain ⟨h₁, opened⟩ := passes.accept? isBrace
  obtain ⟨h, listed⟩ := listed h₁
  rw [Block.read, Cursor.expect, opened]
  exact ⟨h, bind_of_ok rfl (bind_of_ok listed rfl)⟩

/-- Statements that are cut are read, when neither they nor those of a block inside are too many. -/
theorem readStatements_of_cuts {c c' : Cursor} {statements : List BodyStatement}
    (cuts : CutsInto c statements c') {origin : Cursor} (start : Location)
    (within : c.size < origin.size) (count : Nat) (read : List BodyStatement)
    (few : count + statements.length < limit) (small : Small (BodyStatement.allBlocks statements)) :
    ∃ h, readStatements origin start c within count read = .ok ⟨read.reverse ++ statements, c', h⟩ := by
  -- By induction on the cuts; the counter grows by one with each statement.
  induction cuts generalizing origin start count read with
  | closed passes isBrace =>
    rw [List.append_nil]
    exact readStatements_closed start within read few passes isBrace
  | empty passes isSemicolon _ ih =>
    rw [List.length_cons] at few
    rw [BodyStatement.allBlocks_empty] at small
    obtain ⟨h, step⟩ := readStatements_empty start within read (by omega : count < limit) passes
      isSemicolon
    rw [step]
    simpa using ih start h (count + 1) (.empty :: read) (by omega) small
  | @block c c₁ c₂ c' t inner rest passes isBrace _ _ ihInner ihRest =>
    rw [List.length_cons] at few
    rw [BodyStatement.allBlocks_block, small_append_iff, small_blocks_iff] at small
    obtain ⟨⟨fewInner, smallInner⟩, smallRest⟩ := small
    obtain ⟨h₂, blockRead⟩ := read_of_readStatements passes isBrace
      fun within => ihInner c.location within 0 [] (by omega) smallInner
    have inside : c₂.size < origin.size := Nat.lt_trans h₂ within
    obtain ⟨h, listed⟩ := ihRest start inside (count + 1) (.block _ :: read) (by omega) smallRest
    rw [readStatements_block start within read (by omega) passes isBrace]
    exact ⟨h, bind_of_ok blockRead (by simpa using listed)⟩
  | fragment stands statement _ ih =>
    rw [List.length_cons] at few
    rw [BodyStatement.allBlocks_fragment] at small
    obtain ⟨h, step⟩ := readStatements_fragment start within read (by omega : count < limit) stands
      statement
    rw [step]
    simpa using ih start h (count + 1) (.fragment _ :: read) (by omega) small

/-! ### Blocks that are too large -/

/-- The outcome complains about a block too large: the one that starts at the place given, which has
so many statements, or one of the blocks. -/
def Refuses {α : Type} (start : Location) (count : Nat) (blocks : List Block)
    (outcome : Except ParseError α) : Prop :=
  (limit ≤ count ∧ outcome = .error (tooLarge start)) ∨
    ∃ b ∈ blocks, limit ≤ b.statements.length ∧ outcome = .error (tooLarge b.span.start)

/-- A complaint about the statements of a block is passed on. -/
private theorem read_of_refuses {c c₁ : Cursor} {t : Token} (passes : c.Passes [t] c₁)
    (isBrace : t.kind = .leftBrace) {statements : List BodyStatement}
    (refuses : ∀ within, Refuses c.location (0 + statements.length)
      (BodyStatement.allBlocks statements) (readStatements c c.location c₁ within 0 []))
    (stop : Location) :
    ∃ b ∈ Block.blocks ⟨statements, ⟨c.location, stop⟩⟩, limit ≤ b.statements.length ∧
      Block.read c = .error (tooLarge b.span.start) := by
  obtain ⟨h₁, opened⟩ := passes.accept? isBrace
  have passedOn {e : ParseError} (refused : readStatements c c.location c₁ h₁ 0 [] = .error e) :
      Block.read c = .error e := by
    rw [Block.read, Cursor.expect, opened]
    exact bind_of_ok rfl (bind_of_error refused)
  rw [Block.blocks_mk]
  rcases refuses h₁ with ⟨tooMany, refused⟩ | ⟨b, member, big, refused⟩
  · exact ⟨_, List.mem_cons_self, by simpa using tooMany, passedOn refused⟩
  · exact ⟨b, List.mem_cons_of_mem _ member, big, passedOn refused⟩

/-- Statements that are cut are refused, when they or those of a block inside are too many. -/
theorem readStatements_of_large {c c' : Cursor} {statements : List BodyStatement}
    (cuts : CutsInto c statements c') {origin : Cursor} (start : Location)
    (within : c.size < origin.size) (count : Nat) (read : List BodyStatement)
    (large : count + statements.length < limit → ¬Small (BodyStatement.allBlocks statements)) :
    Refuses start (count + statements.length) (BodyStatement.allBlocks statements)
      (readStatements origin start c within count read) := by
  induction cuts generalizing origin start count read with
  | closed passes isBrace =>
    have full : limit ≤ count := by
      by_contra open_
      exact large (Nat.not_le.mp open_) fun b member => by simp at member
    exact .inl ⟨full, readStatements_of_limit start within read full⟩
  -- Where the limit is reached already, nothing is read; else one statement is read as in the cut.
  | @empty c c₁ c' t rest passes isSemicolon _ ih =>
    by_cases full : limit ≤ count
    · exact .inl ⟨by omega, readStatements_of_limit start within read full⟩
    have more : count + (rest.length + 1) = count + 1 + rest.length := by omega
    rw [List.length_cons, more, BodyStatement.allBlocks_empty] at large ⊢
    obtain ⟨h, step⟩ := readStatements_empty start within read (Nat.not_le.mp full) passes isSemicolon
    rw [step]
    exact ih start h (count + 1) (.empty :: read) large
  | @block c c₁ c₂ c' t inner rest passes isBrace cutsInner _ ihInner ihRest =>
    by_cases full : limit ≤ count
    · exact .inl ⟨by omega, readStatements_of_limit start within read full⟩
    have more : count + (rest.length + 1) = count + 1 + rest.length := by omega
    rw [List.length_cons, more, BodyStatement.allBlocks_block] at large ⊢
    rw [small_append_iff, small_blocks_iff] at large
    rw [readStatements_block start within read (Nat.not_le.mp full) passes isBrace]
    by_cases few : inner.length < limit ∧ Small (BodyStatement.allBlocks inner)
    · -- The nested block is read, so the one that is too large comes later or is the outer one.
      obtain ⟨h₂, blockRead⟩ := read_of_readStatements passes isBrace
        fun within => readStatements_of_cuts cutsInner c.location within 0 [] (by omega) few.2
      have inside : c₂.size < origin.size := Nat.lt_trans h₂ within
      rcases ihRest start inside (count + 1) (.block _ :: read)
        (fun fewRest smallRest => large fewRest ⟨few, smallRest⟩) with
        ⟨tooMany, refused⟩ | ⟨b, member, big, refused⟩
      · exact .inl ⟨tooMany, bind_of_ok blockRead refused⟩
      · exact .inr ⟨b, List.mem_append_right _ member, big, bind_of_ok blockRead refused⟩
    · -- The nested block is or holds one that is too large, and the complaint is passed on.
      obtain ⟨b, member, big, refused⟩ := read_of_refuses passes isBrace
        (fun within => ihInner c.location within 0 [] fun fewInner smallInner =>
          few ⟨by omega, smallInner⟩) c₂.lastStop
      exact .inr ⟨b, List.mem_append_left _ member, big, bind_of_error refused⟩
  | @fragment c c₁ c' f h rest stands statement _ ih =>
    by_cases full : limit ≤ count
    · exact .inl ⟨by omega, readStatements_of_limit start within read full⟩
    have more : count + (rest.length + 1) = count + 1 + rest.length := by omega
    rw [List.length_cons, more, BodyStatement.allBlocks_fragment] at large ⊢
    obtain ⟨h, step⟩ := readStatements_fragment start within read (Nat.not_le.mp full) stands statement
    rw [step]
    exact ih start h (count + 1) (.fragment f :: read) large

/-! ### Blocks -/

/-- There is a token for every statement and one more for the closing brace, also in blocks inside. -/
theorem CutsInto.length_lt {c c' : Cursor} {statements : List BodyStatement}
    (cuts : CutsInto c statements c') :
    statements.length + c'.size < c.size ∧
      ∀ b ∈ BodyStatement.allBlocks statements, b.statements.length + c'.size < c.size := by
  induction cuts with
  | @closed c c' t passes _ =>
    have size : c.size = 1 + c'.size := passes.size_eq
    rw [BodyStatement.allBlocks_nil]
    exact ⟨by simp only [List.length_nil]; omega, fun b member => absurd member List.not_mem_nil⟩
  | @empty c c₁ c' t rest passes _ _ ih =>
    have size : c.size = 1 + c₁.size := passes.size_eq
    rw [BodyStatement.allBlocks_empty, List.length_cons]
    refine ⟨by omega, fun b member => ?_⟩
    have inside := ih.2 b member
    omega
  | @block c c₁ c₂ c' t inner rest passes _ _ _ ihInner ihRest =>
    have size : c.size = 1 + c₁.size := passes.size_eq
    rw [BodyStatement.allBlocks_block, Block.blocks_mk, List.length_cons]
    refine ⟨by omega, fun b member => ?_⟩
    rcases List.mem_append.mp member with member | member
    · rcases List.mem_cons.mp member with rfl | member
      · change inner.length + c'.size < c.size
        omega
      · have inside := ihInner.2 b member
        omega
    · have later := ihRest.2 b member
      omega
  | @fragment c c₁ c' f shorter rest _ _ _ ih =>
    rw [BodyStatement.allBlocks_fragment, List.length_cons]
    refine ⟨by omega, fun b member => ?_⟩
    have inside := ih.2 b member
    omega

variable {c c' : Cursor} {block : Block}

/-- A block of few tokens is not too large. -/
theorem Cuts.small (cuts : Cuts c block c') (few : c.size ≤ limit + c'.size + 1) :
    Small block.blocks := by
  obtain ⟨statements, placed⟩ := block
  obtain ⟨⟨t, c₁, passes, -, inner⟩, -⟩ := cuts
  have size : c.size = 1 + c₁.size := passes.size_eq
  obtain ⟨direct, nested⟩ : statements.length + c'.size < c₁.size ∧ _ := inner.length_lt
  rw [small_blocks_iff]
  refine ⟨by omega, fun b member => ?_⟩
  have inside := nested b member
  omega

/-- A block that is cut is read when no block in it is too large. -/
theorem Cuts.read (cuts : Cuts c block c') (small : Small block.blocks) :
    ∃ h, Block.read c = .ok ⟨block, c', h⟩ := by
  obtain ⟨statements, placed⟩ := block
  obtain ⟨⟨t, c₁, passes, isBrace, inner⟩, span⟩ := cuts
  obtain rfl : placed = ⟨c.location, c'.lastStop⟩ := span
  obtain ⟨few, smallInner⟩ := small_blocks_iff.mp small
  apply read_of_readStatements passes isBrace
  intro within
  exact readStatements_of_cuts inner c.location within 0 [] (by simpa using few) smallInner

/-- A block that is cut is refused when some block in it is too large, and the complaint is about such
a block. -/
theorem Cuts.read_of_large (cuts : Cuts c block c') (large : ¬Small block.blocks) :
    ∃ b ∈ block.blocks, limit ≤ b.statements.length ∧
      Block.read c = .error (tooLarge b.span.start) := by
  obtain ⟨statements, placed⟩ := block
  obtain ⟨⟨t, c₁, passes, isBrace, inner⟩, span⟩ := cuts
  obtain rfl : placed = ⟨c.location, c'.lastStop⟩ := span
  apply read_of_refuses passes isBrace
  intro within
  apply readStatements_of_large inner c.location within 0 []
  intro few small
  exact large (small_blocks_iff.mpr ⟨by simpa using few, small⟩)

/-- The blocks that are read are those that are cut and not too large. -/
theorem read_eq_ok_iff :
    (∃ h, Block.read c = .ok ⟨block, c', h⟩) ↔ Cuts c block c' ∧ Small block.blocks := by
  constructor
  · rintro ⟨h, returned⟩
    have cuts : Cuts c block c' := cuts_of_read returned
    refine ⟨cuts, ?_⟩
    by_contra large
    obtain ⟨b, -, -, refused⟩ := cuts.read_of_large large
    cases refused.symm.trans returned
  · rintro ⟨cuts, small⟩
    exact cuts.read small

/-! ### There is one way to cut -/

/-- The kind of the next token decides how the next statement is cut. -/
theorem CutsInto.unique {c c' d' : Cursor} {statements others : List BodyStatement}
    (cuts : CutsInto c statements c') (again : CutsInto c others d') :
    others = statements ∧ d' = c' := by
  -- The kinds of statement differ in the token they start with: brace, semicolon or neither.
  induction cuts generalizing others d' with
  | closed passes isBrace =>
    have next := passes.nextKind
    cases again with
    | closed passes' _ => exact ⟨rfl, passes'.unique passes rfl⟩
    | empty passes' isKind _ | block passes' isKind _ _ => simp_all [passes'.nextKind]
    | fragment stands _ _ =>
      obtain ⟨kind, next', _⟩ := stands
      simp_all
  | empty passes isSemicolon _ ih =>
    have next := passes.nextKind
    cases again with
    | empty passes' _ later =>
      obtain rfl := passes'.unique passes rfl
      obtain ⟨rfl, rfl⟩ := ih later
      exact ⟨rfl, rfl⟩
    | closed passes' isKind | block passes' isKind _ _ => simp_all [passes'.nextKind]
    | fragment stands _ _ =>
      obtain ⟨kind, next', _⟩ := stands
      simp_all
  | block passes isBrace _ _ ihInner ihRest =>
    have next := passes.nextKind
    cases again with
    | block passes' _ inner later =>
      obtain rfl := passes'.unique passes rfl
      obtain ⟨rfl, rfl⟩ := ihInner inner
      obtain ⟨rfl, rfl⟩ := ihRest later
      exact ⟨rfl, rfl⟩
    | closed passes' isKind | empty passes' isKind _ => simp_all [passes'.nextKind]
    | fragment stands _ _ =>
      obtain ⟨kind, next', _⟩ := stands
      simp_all
  | fragment stands statement _ ih =>
    obtain ⟨kind, next, notOpen, notClosed, notEnded⟩ := stands
    cases again with
    | fragment _ statement' later =>
      cases statement'.symm.trans statement
      obtain ⟨rfl, rfl⟩ := ih later
      exact ⟨rfl, rfl⟩
    | closed passes' isKind | empty passes' isKind _ | block passes' isKind _ _ =>
      simp_all [passes'.nextKind]

theorem Cuts.unique {d' : Cursor} {other : Block} (cuts : Cuts c block c') (again : Cuts c other d') :
    other = block ∧ d' = c' := by
  obtain ⟨statements, placed⟩ := block
  obtain ⟨others, placed'⟩ := other
  obtain ⟨⟨t, c₁, passes, -, inner⟩, span⟩ := cuts
  obtain ⟨⟨t', c₁', passes', -, inner'⟩, span'⟩ := again
  obtain rfl : c₁' = c₁ := passes'.unique passes rfl
  obtain ⟨same, rfl⟩ := inner.unique inner'
  exact ⟨congrArg₂ Block.mk same (span'.trans span.symm), rfl⟩

end Block

end TestDouble
