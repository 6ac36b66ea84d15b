import TestDouble.Proofs.Exchange
import TestDouble.Proofs.TokensDecide

/-!
# Bodies do not matter

When the tokens between the braces of a body, or of a type known by name only, are exchanged for
others with properly nested brackets, a source is still read, to the same unit but for that body, and
the same subclasses are generated.
-/

namespace TestDouble

/-! ### Places of tokens -/

/-- In a list that is ordered by some measure, the measure of an item tells where it stands. -/
theorem eq_of_increasing {α : Type} {measure : α → Nat} {as bs as' bs' : List α} {a a' : α}
    (increasing : (as ++ a :: bs).Pairwise (measure · < measure ·))
    (again : as ++ a :: bs = as' ++ a' :: bs') (same : measure a = measure a') :
    as = as' ∧ a = a' ∧ bs = bs' := by
  rcases List.append_eq_append_iff.mp again with ⟨mid, rfl, later⟩ | ⟨mid, rfl, later⟩
  · cases mid with
    | nil => simpa using later
    | cons b mid =>
      -- The first item would stand before the second.
      obtain ⟨rfl, rfl⟩ := List.cons.inj later
      have less : measure a < measure a' := by
        have ordered := (List.pairwise_append.mp increasing).2.1
        exact (List.pairwise_cons.mp ordered).1 a' (by simp)
      omega
  · cases mid with
    | nil => simpa [eq_comm] using later
    | cons b mid =>
      obtain ⟨rfl, rfl⟩ := List.cons.inj later
      have less : measure a' < measure a := by
        rw [List.append_assoc] at increasing
        have ordered := (List.pairwise_append.mp increasing).2.1
        exact (List.pairwise_cons.mp ordered).1 a (by simp)
      omega

namespace Token

/-- Tokens are not empty, since pieces are not. -/
theorem keep_nonempty {pieces : List Piece} {skipped : String} {kept tokens : List Token}
    (nonempty : ∀ p ∈ pieces, p.text ≠ "") (before : ∀ t ∈ kept, t.text ≠ "")
    (returned : keep pieces skipped kept = .ok tokens) : ∀ t ∈ tokens, t.text ≠ "" := by
  induction pieces generalizing skipped kept with
  | nil =>
    cases returned
    simpa using before
  | cons p pieces ih =>
    obtain ⟨first, later⟩ := List.forall_mem_cons.mp nonempty
    simp only [keep] at returned
    split at returned
    next => cases returned
    next kind _ =>
      split at returned
      next => exact ih later before returned
      next => exact ih later (List.forall_mem_cons.mpr ⟨first, before⟩) returned

theorem Tiles.offset_le {location : Location} {source : List Char} {tokens : List Token}
    (tiles : Tiles location source tokens) : ∀ t ∈ tokens, location.offset ≤ t.location.offset := by
  induction tiles with
  | nil => simp
  | @cons location leading text rest kind tokens _ ih =>
    refine List.forall_mem_cons.mpr ⟨?_, fun t member => ?_⟩
    · rw [Location.offset_after]
      exact Nat.le_add_right ..
    · have later := ih t member
      rw [Location.offset_after] at later
      omega

theorem Tiles.ordered {location : Location} {source : List Char} {tokens : List Token}
    (tiles : Tiles location source tokens) :
    tokens.Pairwise (fun t u => t.stopOffset ≤ u.location.offset) := by
  induction tiles with
  | nil => exact .nil
  | @cons location leading text rest kind tokens later ih =>
    refine List.pairwise_cons.mpr ⟨fun u member => ?_, ih⟩
    have behind := later.offset_le u member
    rw [Location.after_append, Location.offset_after] at behind
    exact behind

/-- Tokens start one behind the other, and so they end. -/
theorem increasing_of_ofSource {source : String} {tokens : List Token}
    (lexed : ofSource source = .ok tokens) :
    tokens.Pairwise (fun t u => t.location.offset < u.location.offset) ∧
      tokens.Pairwise (fun t u => t.stopOffset < u.stopOffset) := by
  have nonempty := keep_nonempty (Piece.ofSource_tiles source).nonempty (by simp) lexed
  have positive : ∀ t ∈ tokens, t.location.offset < t.stopOffset := by
    intro t member
    have some : t.text.utf8ByteSize ≠ 0 := mt String.utf8ByteSize_eq_zero_iff.mp (nonempty t member)
    rw [stopOffset]
    omega
  have ordered := (ofSource_tiles lexed).ordered
  constructor
  · refine ordered.imp_of_mem fun first _ le => ?_
    exact Nat.lt_of_lt_of_le (positive _ first) le
  · refine ordered.imp_of_mem fun _ second le => ?_
    exact Nat.lt_of_le_of_lt le (positive _ second)

theorem matching_of_marks {ts ts' : List Token} (same : ts.map mark = ts'.map mark)
    (view : String → String) : Matching view ts ts' := by
  refine ⟨?_, fun i n => ?_⟩
  · have lexemes := congrArg (List.map Mark.lexeme) same
    simpa only [List.map_map, Function.comp_def, lexeme_mark] using lexemes
  · rw [List.map_take, List.map_take, List.map_drop, List.map_drop, same]

end Token

/-! ### What stands between two braces -/

/-- Two braces among the tokens of a source. -/
structure Bracing where
  before : List Token
  opening : Token
  inside : List Token
  closing : Token
  after : List Token
  opens : opening.kind = .leftBrace
  closes : closing.kind = .rightBrace

namespace Bracing

/-- The tokens of the source. -/
def tokens (b : Bracing) : List Token := b.before ++ b.opening :: (b.inside ++ b.closing :: b.after)

/-- Outside the two braces the tokens are the same, with the same text between them. -/
structure SameAround (b b' : Bracing) : Prop where
  before : (b.before ++ [b.opening]).map Token.mark = (b'.before ++ [b'.opening]).map Token.mark
  after : b.after.map Token.mark = b'.after.map Token.mark

instance (b b' : Bracing) : Decidable (b.SameAround b') :=
  decidable_of_iff (_ ∧ _) ⟨fun same => ⟨same.1, same.2⟩, fun same => ⟨same.before, same.after⟩⟩

/-- The brace behind the first `i` tokens of a source and the brace behind the next `n` ones. -/
def find? (source : String) (i n : Nat) : Option Bracing := do
  let tokens ← (Token.ofSource source).toOption
  match tokens.drop i with
  | [] => none
  | opening :: rest =>
    match rest.drop n with
    | [] => none
    | closing :: after =>
      if h : opening.kind = .leftBrace ∧ closing.kind = .rightBrace then
        some ⟨tokens.take i, opening, rest.take n, closing, after, h.1, h.2⟩
      else none

theorem ofSource_of_find? {source : String} {i n : Nat} {b : Bracing}
    (found : find? source i n = some b) : Token.ofSource source = .ok b.tokens := by
  rw [find?, Option.bind_eq_bind, Option.bind_eq_some_iff] at found
  obtain ⟨ts, lexed, found⟩ := found
  have lexed : Token.ofSource source = .ok ts := by
    cases outcome : Token.ofSource source with
    | error => simp [outcome, Except.toOption] at lexed
    | ok => simpa [outcome, Except.toOption] using lexed
  split at found
  next => cases found
  next opening rest first =>
    split at found
    next => cases found
    next closing after second =>
      split at found
      next =>
        cases found
        rw [lexed, tokens, ← second, List.take_append_drop, ← first, List.take_append_drop]
      next => cases found

end Bracing

theorem Cursor.ahead_of_nextKind {c : Cursor} {kind : Kind} (next : c.nextKind = some kind) :
    ∃ t rest, c.ahead = t :: rest ∧ t.kind = kind := by
  rw [nextKind, Option.map_eq_some_iff] at next
  obtain ⟨t, first, kindIs⟩ := next
  obtain ⟨rest, ahead⟩ := List.head?_eq_some_iff.mp first
  exact ⟨t, rest, ahead, kindIs⟩

/-- A body that is read starts at a brace and ends with the last token passed. -/
theorem Block.read_ends {c d : Cursor} {block : Block} {h : d.size < c.size}
    (read : Block.read c = .ok ⟨block, d, h⟩) :
    ∃ opening rest, c.ahead = opening :: rest ∧ block.span.start = opening.location ∧
      ∃ front last, c.Passes (front ++ [last]) d ∧ block.span.stop = last.stop := by
  obtain ⟨taken, passes⟩ := Block.read_eq_ok read
  rw [Block.read] at read
  obtain ⟨⟨opening, c₁, h₁⟩, opened, read⟩ := bind_eq_ok read
  obtain ⟨⟨statements, c₂, h₂⟩, -, finished⟩ := bind_eq_ok read
  cases finished
  have ahead := (Cursor.expect_eq_ok opened).1.ahead
  refine ⟨opening, c₁.ahead, ahead, ?_, ?_⟩
  · rw [Cursor.location, ahead]
    rfl
  · -- Some tokens are passed.
    have nonempty : taken ≠ [] := by
      rintro rfl
      have size := passes.size_eq
      simp only [List.length_nil, Nat.zero_add] at size
      omega
    refine ⟨taken.dropLast, taken.getLast nonempty, ?_, ?_⟩
    · rwa [List.dropLast_append_getLast]
    · rw [Cursor.lastStop, passes.last, List.getLast?_eq_getLast_of_ne_nil nonempty]
      rfl

namespace Enclosure

/-- The braces are those of the enclosure. A body has its braces at its ends; the last brace of a type
known by name only closes the one behind its header. -/
def Between (b : Bracing) : Enclosure → Prop
  | .body block => block.span = ⟨b.opening.location, b.closing.stop⟩
  | .nominal decl => decl.span.stop = b.closing.stop ∧ Token.Nested Kind.braces [] b.inside

/-- The tokens may stand between the braces of the enclosure: in a body all brackets are properly
nested, and there are not too many tokens; elsewhere the braces are. -/
def Admits (inside : List Token) : Enclosure → Prop
  | .body _ => Token.Nested Kind.brackets [] inside ∧ inside.length < Block.limit
  | .nominal _ => Token.Nested Kind.braces [] inside

instance (b : Bracing) : (site : Enclosure) → Decidable (site.Between b)
  | .body _ => inferInstanceAs (Decidable (_ = _))
  | .nominal _ => inferInstanceAs (Decidable (_ ∧ _))

instance (inside : List Token) : (site : Enclosure) → Decidable (site.Admits inside)
  | .body _ => inferInstanceAs (Decidable (_ ∧ _))
  | .nominal _ => inferInstanceAs (Decidable (Token.Nested _ _ _))

/-- Admitted tokens are read as an enclosure of the same kind. -/
theorem exists_of_admits {site : Enclosure} {opening closing : Token} {inside : List Token}
    (admits : site.Admits inside) (opens : opening.kind = .leftBrace)
    (closes : closing.kind = .rightBrace) (last : Option Token) (after : List Token) :
    ∃ site' : Enclosure, site'.Encloses ⟨last, opening :: (inside ++ closing :: after)⟩
      ⟨some closing, after⟩ ∧ site'.Like site := by
  cases site with
  | body block =>
    obtain ⟨nested, few⟩ := admits
    have ahead : Cursor.ahead ⟨last, opening :: (inside ++ closing :: after)⟩ =
        opening :: (inside ++ closing :: after) := rfl
    obtain ⟨block', h, read⟩ := Block.read_of_nested nested opens closes ahead few
    exact ⟨.body block', ⟨h, read⟩, .body block' block⟩
  | nominal decl =>
    refine ⟨.nominal { decl with span := ⟨decl.span.start, closing.stop⟩ }, ⟨?_, rfl, ?_⟩, .nominal rfl⟩
    · simp [Cursor.nextKind, opens]
    · refine ⟨inside.length + 1, by simp [Cursor.size], ?_, ?_⟩
      · exact NominalDecl.bodyLength?_of_closed admits closes after
      · have passes : Cursor.Passes ⟨last, opening :: (inside ++ closing :: after)⟩
            (opening :: (inside ++ [closing])) ⟨some closing, after⟩ := by
          constructor
          · simp
          · rw [← List.cons_append, List.getLast?_concat]
            rfl
        obtain ⟨within, skipped⟩ := passes.eq_skip
        simpa only [List.length_cons, List.length_append, List.length_nil, Nat.zero_add] using skipped

/-- An enclosure between two braces is read from the first to the second. -/
theorem Encloses.located {source : String} {b : Bracing} {site : Enclosure} {d₀ e : Cursor}
    (lexed : Token.ofSource source = .ok b.tokens) (leads : (Cursor.start b.tokens).Leads d₀)
    (encloses : site.Encloses d₀ e) (between : site.Between b) :
    d₀.ahead = b.opening :: (b.inside ++ b.closing :: b.after) ∧ e.ahead = b.after := by
  obtain ⟨starts, stops⟩ := Token.increasing_of_ofSource lexed
  obtain ⟨taken, passes⟩ := leads
  have whole : b.tokens = taken ++ d₀.ahead := passes.ahead
  have bracing : b.tokens = (b.before ++ b.opening :: b.inside) ++ b.closing :: b.after := by
    simp [Bracing.tokens]
  cases site with
  | body block =>
    obtain ⟨h, read⟩ := encloses
    obtain ⟨opening, rest, ahead, start, front, last, passed, stop⟩ := Block.read_ends read
    rw [between] at start stop
    constructor
    · rw [whole, ahead] at starts
      have found := eq_of_increasing starts (by rw [← ahead, ← whole]; rfl)
        (congrArg Location.offset start.symm)
      rw [ahead, found.2.1, found.2.2]
    · have ends : b.tokens = (taken ++ front) ++ last :: e.ahead := by
        rw [whole, passed.ahead]
        simp
      rw [ends] at stops
      exact (eq_of_increasing stops (ends.symm.trans bracing)
        (congrArg Location.offset stop.symm)).2.2
  | nominal decl =>
    obtain ⟨stop, nested⟩ := between
    obtain ⟨opens, stop', n, within, counted, rfl⟩ := encloses
    obtain ⟨opening, rest, ahead, opens⟩ := Cursor.ahead_of_nextKind opens
    rw [ahead, List.tail_cons] at counted
    obtain ⟨front, last, later, rfl, rfl, -⟩ := NominalDecl.bodyLength?_eq_some counted
    simp only [Nat.zero_add] at counted stop' ⊢
    have within : front.length + 1 + 1 ≤ d₀.size := by omega
    have passed : d₀.Passes (opening :: (front ++ [last])) (d₀.skip (front.length + 1 + 1) within) := by
      have skipped := Cursor.Passes.skip d₀ within
      rwa [ahead, List.take_succ_cons, List.append_cons, List.take_left' (by simp)] at skipped
    have behind : (d₀.skip (front.length + 1 + 1) within).ahead = later := by
      rw [Cursor.skip, ahead, List.drop_succ_cons, List.append_cons, List.drop_left' (by simp)]
    have lastStop : (d₀.skip (front.length + 1 + 1) within).lastStop = last.stop := by
      rw [Cursor.lastStop, passed.last, ← List.cons_append, List.getLast?_concat]
      rfl
    have ends : b.tokens = (taken ++ opening :: front) ++ last :: later := by
      rw [whole, ahead]
      simp
    rw [ends] at stops
    obtain ⟨same, rfl, rfl⟩ := eq_of_increasing stops (ends.symm.trans bracing)
      (congrArg Location.offset (lastStop.symm.trans (stop'.symm.trans stop)))
    have closed : NominalDecl.bodyLength? (b.inside ++ b.closing :: b.after) 0 0 =
        some (b.inside.length + 1) := NominalDecl.bodyLength?_of_closed nested b.closes b.after
    -- Both braces open what the last one closes, so they are the same.
    obtain ⟨rfl, rfl⟩ := NominalDecl.bodyLength?_opening same opens b.opens counted closed
    exact ⟨ahead, behind⟩

end Enclosure

namespace CompilationUnit

theorem enclosures_through (text : String → String) (unit : CompilationUnit) :
    (unit.through (.full text)).enclosures = unit.enclosures.map (Enclosure.through text) := by
  simp only [enclosures, through, List.flatMap_map, TypeDecl.enclosures_through, ← List.map_flatMap]

/-- On tokens with the same marks the same unit is read, whatever is seen of it. -/
theorem ofTokens_of_marks {ts ts' : List Token} (same : ts.map Token.mark = ts'.map Token.mark)
    {unit : CompilationUnit} (read : (ofTokens ts).2 = .ok unit) :
    ∃ unit', (ofTokens ts').2 = .ok unit' ∧
      ∀ v : View, v.Coarse → unit'.through v = unit.through v := by
  have echo (v : View) (coarse : v.Coarse) :=
    ofTokens_echo coarse (Token.matching_of_marks same v.text)
  rw [read] at echo
  obtain ⟨unit', read', -⟩ := (echo (.full id) (View.full_coarse id)).of_ok
  refine ⟨unit', read', fun v coarse => ?_⟩
  obtain ⟨_, again, alike⟩ := (echo v coarse).of_ok
  obtain rfl := Except.ok.inj (again.symm.trans read')
  exact alike.symm

end CompilationUnit

namespace GeneratedUnit

/-- Bodies do not matter. A source that can be read still can be when the tokens between the braces of
one of its enclosures are exchanged for others that may stand there. The unit read then looks the same
from outside all bodies, all other enclosures are the same, and under every configuration the same
subclasses are generated, or generation fails with the same error. -/
theorem generation_of_sameAround {source source' : String} {b b' : Bracing}
    (lexed : Token.ofSource source = .ok b.tokens) (lexed' : Token.ofSource source' = .ok b'.tokens)
    (around : b.SameAround b') {unit : CompilationUnit}
    (read : (CompilationUnit.read source).outcome = .ok unit)
    {pre post : List Enclosure} {site : Enclosure} (split : unit.enclosures = pre ++ site :: post)
    (between : site.Between b) (admits : site.Admits b'.inside) :
    ∃ (unit' : CompilationUnit) (site' : Enclosure), (CompilationUnit.read source').outcome = .ok unit' ∧
      unit'.through (.outside id) = unit.through (.outside id) ∧
      unit'.enclosures.map (Enclosure.through id) = pre.map (Enclosure.through id) ++
        site'.through id :: post.map (Enclosure.through id) ∧ site'.Like site ∧
      ∀ config, (ofSource config .forwarding source').outcome.map (List.map written) =
        (ofSource config .forwarding source).outcome.map (List.map written) := by
  have readTokens : (CompilationUnit.ofTokens b.tokens).2 = .ok unit := by
    rw [CompilationUnit.outcome_read lexed] at read
    exact mapError_eq_ok read
  obtain ⟨d, readAs⟩ := CompilationUnit.ofTokens_eq_ok_iff.mp readTokens
  obtain ⟨d₀, e, leads, encloses, -, exchange⟩ := readAs.exchanges split
  obtain ⟨ahead, behind⟩ := Enclosure.Encloses.located lexed leads encloses between
  -- First the tokens from the opening brace on are exchanged, and then those before it.
  let g : Graft := ⟨b.opening, b.inside ++ b.closing :: b.after, b'.inside ++ b'.closing :: b'.after,
    Kind.bars_iff.mpr (.inl b.opens)⟩
  have exchanged : g.At (Cursor.start b.tokens) (Cursor.start (b.before ++ g.bar :: g.new)) :=
    ⟨rfl, b.before, rfl, rfl⟩
  obtain ⟨site', encloses', like⟩ :=
    Enclosure.exists_of_admits admits b.opens b'.closes d₀.last b'.after
  have sameBehind : e.Matches id ⟨some b'.closing, b'.after⟩ := by
    rw [Cursor.Matches, behind]
    exact Token.matching_of_marks around.after id
  obtain ⟨unit₁, d₁, readAs₁, outside₁, seen₁, -⟩ := exchange ahead exchanged encloses' like sameBehind
  have read₁ := CompilationUnit.ofTokens_eq_ok_iff.mpr ⟨d₁, readAs₁⟩
  have sameMarks : (b.before ++ g.bar :: g.new).map Token.mark = b'.tokens.map Token.mark := by
    have same := congrArg (· ++ g.new.map Token.mark) around.before
    simpa [Bracing.tokens, g] using same
  obtain ⟨unit', read', alike⟩ := CompilationUnit.ofTokens_of_marks sameMarks read₁
  have outside : unit'.through (.outside id) = unit.through (.outside id) :=
    (alike _ (View.outside_coarse id)).trans outside₁
  have readSource : (CompilationUnit.read source').outcome = .ok unit' := by
    rw [CompilationUnit.outcome_read lexed', read']
    rfl
  refine ⟨unit', site', readSource, outside, ?_, like, fun config => ?_⟩
  · rw [← seen₁, ← CompilationUnit.enclosures_through, ← CompilationUnit.enclosures_through,
      alike _ (View.full_coarse id)]
  · rw [ofSource_outcome, ofSource_outcome, readSource, read]
    exact ofDecls_eq_of_through outside config

/-- A class with a method and an enumeration. -/
private def plainSource : String := "class A\x7bint f()\x7bg();\x7denum E\x7b\x7d\x7d"

/-- The same class with another body of the method. -/
private def otherBody : String := "class A\x7bint f()\x7b \x7bx[0]\x7d \x7denum E\x7b\x7d\x7d"

/-- The same class with another enumeration, of which only the braces are balanced. -/
private def otherEnum : String := "class A\x7bint f()\x7bg();\x7denum E\x7bX(\x7b\x7d\x7d\x7d"

/-- The enclosure of the given number stands between the braces, and the new tokens may stand there. -/
private def fits (source source' : String) (k i n n' : Nat) : Bool :=
  match (CompilationUnit.read source).outcome, Bracing.find? source i n, Bracing.find? source' i n' with
  | .ok unit, some b, some b' =>
    match unit.enclosures[k]? with
    | some site => decide (b.SameAround b' ∧ site.Between b ∧ site.Admits b'.inside)
    | none => false
  | _, _, _ => false

private theorem exists_of_fits (source source' : String) (k i n n' : Nat)
    (fit : fits source source' k i n n' = true) :
    ∃ (unit : CompilationUnit) (b b' : Bracing) (pre post : List Enclosure) (site : Enclosure),
      Token.ofSource source = .ok b.tokens ∧ Token.ofSource source' = .ok b'.tokens ∧
      b.SameAround b' ∧ (CompilationUnit.read source).outcome = .ok unit ∧
      unit.enclosures = pre ++ site :: post ∧ site.Between b ∧ site.Admits b'.inside := by
  rw [fits] at fit
  split at fit
  next unit b b' read found found' =>
    split at fit
    next site listed =>
      obtain ⟨around, between, admits⟩ := of_decide_eq_true fit
      obtain ⟨inRange, rfl⟩ := List.getElem?_eq_some_iff.mp listed
      exact ⟨unit, b, b', unit.enclosures.take k, unit.enclosures.drop (k + 1), _,
        Bracing.ofSource_of_find? found, Bracing.ofSource_of_find? found', around, read,
        by rw [← List.drop_eq_getElem_cons, List.take_append_drop], between, admits⟩
    next => cases fit
  next => cases fit

/-- Neither the other body nor the other enumeration changes what is generated. -/
theorem generation_of_sameAround_other_body_and_enum :
    (∃ unit, (CompilationUnit.read otherBody).outcome = .ok unit) ∧
    (∃ unit, (CompilationUnit.read otherEnum).outcome = .ok unit) ∧
    (∀ config, (ofSource config .forwarding otherBody).outcome.map (List.map written) =
      (ofSource config .forwarding plainSource).outcome.map (List.map written)) ∧
    (∀ config, (ofSource config .forwarding otherEnum).outcome.map (List.map written) =
      (ofSource config .forwarding plainSource).outcome.map (List.map written)) ∧
    (ofSource {} .forwarding plainSource).outcome.isOk = true := by
  obtain ⟨_, _, _, _, _, _, lexed, lexed', around, read, split, between, admits⟩ :=
    exists_of_fits plainSource otherBody 0 7 4 6 (by decide +kernel)
  obtain ⟨unit₁, -, read₁, -, -, -, same₁⟩ :=
    generation_of_sameAround lexed lexed' around read split between admits
  obtain ⟨_, _, _, _, _, _, lexed, lexed', around, read, split, between, admits⟩ :=
    exists_of_fits plainSource otherEnum 1 15 0 4 (by decide +kernel)
  obtain ⟨unit₂, -, read₂, -, -, -, same₂⟩ :=
    generation_of_sameAround lexed lexed' around read split between admits
  exact ⟨⟨unit₁, read₁⟩, ⟨unit₂, read₂⟩, same₁, same₂, by decide +kernel⟩

end GeneratedUnit

end TestDouble
