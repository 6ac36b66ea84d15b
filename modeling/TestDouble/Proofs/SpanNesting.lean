import TestDouble.Proofs.BodiesApart
import TestDouble.Proofs.ReadingSafety
import TestDouble.Proofs.SpanReading

/-!
# Spans nest

The main result is `CompilationUnit.spans_nest`: in what is read from a source, every span runs from
one token's edge to another's, the parts of a node lie within it, and parts that follow each other do
not overlap. `SpanReading` says where each tree stands among the tokens; what is left is that tokens
of a source stand in the order of their offsets.
-/

namespace TestDouble

open SpanTree (Between AllBetween)

/-! ### Tokens in order -/

/-- Tokens stand one behind the other, each of them takes some room, and none ends behind the size.
-/
structure Token.InOrder (tokens : List Token) (size : Nat) : Prop where
  positive : ∀ t ∈ tokens, t.location.offset < t.stopOffset
  ordered : tokens.Pairwise fun t u => t.stopOffset ≤ u.location.offset
  bounded : ∀ t ∈ tokens, t.stopOffset ≤ size

private theorem Token.Tiles.stopOffset_le {location : Location} {source : List Char}
    {tokens : List Token} (tiles : Tiles location source tokens) :
    ∀ t ∈ tokens, t.stopOffset ≤ location.offset + (String.ofList source).utf8ByteSize := by
  induction tiles with
  | nil => simp
  | @cons location leading text rest kind tokens _ ih =>
    rw [List.forall_mem_cons]
    simp only [Location.after_append, Location.offset_after] at ih
    simp only [stopOffset, Location.offset_after, String.ofList_append, String.utf8ByteSize_append]
    refine ⟨by omega, fun t member => ?_⟩
    have later := ih t member
    simp only [stopOffset] at later
    omega

theorem Token.inOrder_of_ofSource {source : String} {tokens : List Token}
    (lexed : Token.ofSource source = .ok tokens) : InOrder tokens source.utf8ByteSize := by
  have tiles := ofSource_tiles lexed
  refine ⟨?_, tiles.ordered, fun t member => ?_⟩
  · have nonempty := keep_nonempty (Piece.ofSource_tiles source).nonempty (by simp) lexed
    intro t member
    have some : t.text.utf8ByteSize ≠ 0 := mt String.utf8ByteSize_eq_zero_iff.mp (nonempty t member)
    rw [stopOffset]
    omega
  · have bound := tiles.stopOffset_le t member
    rw [String.ofList_toList] at bound
    simpa [Location.origin] using bound

/-- The cursor stands between two of the tokens, or before or behind all of them. -/
def Cursor.StandsIn (tokens : List Token) (c : Cursor) : Prop := ∃ i, c.At tokens i

section

variable {tokens : List Token} {size : Nat} {c d : Cursor}

namespace Cursor.StandsIn

theorem leads (stands : c.StandsIn tokens) (leads : c.Leads d) : d.StandsIn tokens := by
  obtain ⟨i, at_⟩ := stands
  obtain ⟨taken, passes⟩ := leads
  exact ⟨_, passes.at_of_at at_⟩

theorem mem_of_ahead (stands : c.StandsIn tokens) {t : Token} (ahead : t ∈ c.ahead) :
    t ∈ tokens := by
  obtain ⟨i, -, aheadEq, -⟩ := stands
  rw [aheadEq] at ahead
  exact List.mem_of_mem_drop ahead

/-- Where tokens are passed, there is a first one and a last one. -/
theorem edges (stands : c.StandsIn tokens) (leads : c.Leads d) (shorter : d.size < c.size) :
    (∃ t ∈ tokens, c.location = t.location) ∧ ∃ t ∈ tokens, d.last = some t := by
  obtain ⟨taken, passes⟩ := leads
  have inTokens (t : Token) (member : t ∈ taken) : t ∈ tokens := by
    apply stands.mem_of_ahead
    rw [passes.ahead]
    exact List.mem_append_left _ member
  cases taken with
  | nil =>
    have same := passes.size_eq
    simp only [List.length_nil] at same
    omega
  | cons t more =>
    refine ⟨⟨t, inTokens t List.mem_cons_self, ?_⟩, _, inTokens _ (List.getLast_mem (by simp)), ?_⟩
    · rw [Cursor.location, passes.ahead]
      rfl
    · rw [passes.last, List.getLast?_eq_some_getLast (List.cons_ne_nil t more), Option.some_or]

end Cursor.StandsIn

namespace Token.InOrder

/-- The token last taken ends before any token ahead starts. -/
private theorem last_before (inOrder : InOrder tokens size) (stands : c.StandsIn tokens)
    {t u : Token} (last : c.last = some t) (ahead : u ∈ c.ahead) :
    t.stopOffset ≤ u.location.offset := by
  obtain ⟨i, -, aheadEq, lastEq⟩ := stands
  have ordered := inOrder.ordered
  rw [← List.take_append_drop i tokens, List.pairwise_append] at ordered
  apply ordered.2.2
  · exact List.mem_of_getLast? (lastEq.symm.trans last)
  · rwa [← aheadEq]

theorem lastStop_le_location (inOrder : InOrder tokens size) (stands : c.StandsIn tokens) :
    c.lastStop.offset ≤ c.location.offset := by
  obtain ⟨last, _ | ⟨u, rest⟩⟩ := c
  · exact Nat.le_refl _
  · cases last with
    | none => exact Nat.zero_le _
    | some t => exact inOrder.last_before stands rfl List.mem_cons_self

theorem lastStop_le (inOrder : InOrder tokens size) (stands : c.StandsIn tokens)
    (leads : c.Leads d) : c.lastStop.offset ≤ d.lastStop.offset := by
  obtain ⟨taken, passes⟩ := leads
  cases final : taken.getLast? with
  | none =>
    have same : d.last = c.last := by rw [passes.last, final, Option.none_or]
    rw [Cursor.lastStop, Cursor.lastStop, same]
  | some v =>
    have same : d.last = some v := by rw [passes.last, final, Option.some_or]
    have ahead : v ∈ c.ahead := by
      rw [passes.ahead]
      exact List.mem_append_left _ (List.mem_of_getLast? final)
    cases last : c.last with
    | none => simp [Cursor.lastStop, last, Location.origin]
    | some t =>
      have before := inOrder.last_before stands last ahead
      have positive := inOrder.positive v (stands.mem_of_ahead ahead)
      simp only [Cursor.lastStop, last, same, Token.stop]
      omega

/-- Where tokens are passed, the first of them starts before the last one ends. -/
theorem location_lt (inOrder : InOrder tokens size) (stands : c.StandsIn tokens)
    (leads : c.Leads d) (shorter : d.size < c.size) : c.location.offset < d.lastStop.offset := by
  obtain ⟨taken, passes⟩ := leads
  cases taken with
  | nil =>
    have same := passes.size_eq
    simp only [List.length_nil] at same
    omega
  | cons t more =>
    have final := List.getLast?_eq_some_getLast (List.cons_ne_nil t more)
    have member := List.getLast_mem (List.cons_ne_nil t more)
    generalize (t :: more).getLast _ = v at final member
    have last : d.last = some v := by rw [passes.last, final, Option.some_or]
    have first : c.location = t.location := by
      rw [Cursor.location, passes.ahead]
      rfl
    have inAhead (u : Token) (taken : u ∈ t :: more) : u ∈ c.ahead := by
      rw [passes.ahead]
      exact List.mem_append_left _ taken
    have positive (u : Token) (taken : u ∈ t :: more) :=
      inOrder.positive u (stands.mem_of_ahead (inAhead u taken))
    have ends : d.lastStop.offset = v.stopOffset := by rw [Cursor.lastStop, last]; rfl
    rw [first, ends]
    rcases List.mem_cons.mp member with rfl | later
    · exact positive v member
    · have room := positive t List.mem_cons_self
      have taken := positive v member
      obtain ⟨i, -, aheadEq, -⟩ := stands
      have ordered := inOrder.ordered.sublist (List.drop_sublist i tokens)
      rw [← aheadEq, passes.ahead, List.cons_append, List.pairwise_cons] at ordered
      have apart := ordered.1 v (List.mem_append_left _ later)
      omega

theorem location_le (inOrder : InOrder tokens size) (stands : c.StandsIn tokens)
    (leads : c.Leads d) : c.location.offset ≤ d.location.offset := by
  have behind := inOrder.lastStop_le_location (stands.leads leads)
  rcases Nat.lt_or_ge d.size c.size with shorter | same
  · have before := inOrder.location_lt stands leads shorter
    omega
  · obtain ⟨taken, passes⟩ := leads
    have size := passes.size_eq
    obtain rfl : taken = [] := List.length_eq_zero_iff.mp (by omega)
    have ahead : c.ahead = d.ahead := passes.ahead
    have last : d.last = c.last := passes.last
    rw [Cursor.location, Cursor.location, ahead, Cursor.lastStop, Cursor.lastStop, last]

end Token.InOrder

end

/-! ### Nesting -/

/-- The place is an edge of a token, or where a source without tokens starts. -/
def Location.OnEdge (tokens : List Token) (l : Location) : Prop :=
  (∃ t ∈ tokens, l = t.location ∨ l = t.stop) ∨ tokens = [] ∧ l.offset = 0

/-- The span starts and ends at edges of tokens, does not end before it starts, and ends within the
size. -/
structure Span.Placed (tokens : List Token) (size : Nat) (span : Span) : Prop where
  start : span.start.OnEdge tokens
  stop : span.stop.OnEdge tokens
  forward : span.start.offset ≤ span.stop.offset
  within : span.stop.offset ≤ size

namespace SpanTree

/-- The first part starts and ends before the second, unless both are fields of one declaration: then
they start at the same place. -/
def Apart (a b : SpanTree) : Prop :=
  (a.span.start.offset < b.span.start.offset ∧ a.span.stop.offset ≤ b.span.start.offset) ∨
    (a.isField = true ∧ b.isField = true ∧ a.span.start = b.span.start)

/-- The span of the first lies within the span. -/
def Inside (t : SpanTree) (span : Span) : Prop :=
  span.start.offset ≤ t.span.start.offset ∧ t.span.stop.offset ≤ span.stop.offset

/-- The spans of a tree are placed at the tokens, each part lies within the whole, and parts stand
apart; so it is all the way down. -/
inductive Nested (tokens : List Token) (size : Nat) : SpanTree → Prop where
  | node (isField : Bool) {span : Span} {parts : List SpanTree} : span.Placed tokens size →
      (∀ part ∈ parts, part.Inside span) → parts.Pairwise Apart →
      (∀ part ∈ parts, Nested tokens size part) → Nested tokens size (.node isField span parts)

/-- A tree that is nested and lies between two cursors. -/
structure Settled (tokens : List Token) (size : Nat) (c : Cursor) (t : SpanTree) (d : Cursor) :
    Prop where
  nested : t.Nested tokens size
  starts : c.location.offset ≤ t.span.start.offset
  begins : t.span.start.offset < d.lastStop.offset
  ends : t.span.stop.offset ≤ d.lastStop.offset

variable {tokens : List Token} {size : Nat} {c c₁ d d₁ : Cursor}

/-- Between two cursors of which the second is farther on, a span is placed. -/
theorem placed_of_leads (inOrder : Token.InOrder tokens size) (stands : c.StandsIn tokens)
    (leads : c.Leads d) (shorter : d.size < c.size) :
    Span.Placed tokens size ⟨c.location, d.lastStop⟩ := by
  have forward := inOrder.location_lt stands leads shorter
  obtain ⟨⟨t, first, same⟩, u, final, last⟩ := stands.edges leads shorter
  have sameStop : d.lastStop = u.stop := by rw [Cursor.lastStop, last]
  refine ⟨.inl ⟨t, first, .inl same⟩, .inl ⟨u, final, .inr sameStop⟩, Nat.le_of_lt forward, ?_⟩
  rw [sameStop]
  exact inOrder.bounded u final

theorem Settled.widen (inOrder : Token.InOrder tokens size) (stands : c.StandsIn tokens)
    {t : SpanTree} (settled : Settled tokens size c₁ t d₁) (before : c.Leads c₁)
    (way : c₁.Leads d₁) (behind : d₁.Leads d) : Settled tokens size c t d := by
  have starts := inOrder.location_le stands before
  have ends := inOrder.lastStop_le ((stands.leads before).leads way) behind
  exact ⟨settled.nested, Nat.le_trans starts settled.starts, Nat.lt_of_lt_of_le settled.begins ends,
    Nat.le_trans settled.ends ends⟩

/-- The span of a fragment runs from its first token to the start of its last one. -/
theorem settled_fragment (inOrder : Token.InOrder tokens size) (stands : c.StandsIn tokens)
    {first : Token} {more : List Token} (passes : c.Passes (first :: more) d) :
    Settled tokens size c (Fragment.ofTokens first more).tree d := by
  let v := more.getLast?.getD first
  have starts : c.location = first.location := by
    rw [Cursor.location, passes.ahead]
    rfl
  have cut : first :: more = (first :: more).dropLast ++ [v] :=
    (List.dropLast_append_getLast? v List.getLast?_cons).symm
  -- The cursor before the last token tells where the fragment ends.
  rw [cut] at passes
  obtain ⟨e, front, final⟩ := passes.split
  have standsThere := stands.leads ⟨_, front⟩
  have there : e.location = v.location := by
    rw [Cursor.location, final.ahead]
    rfl
  have last : d.last = some v := by rw [final.last, List.getLast?_singleton, Option.some_or]
  have ahead : v ∈ e.ahead := by simp [final.ahead]
  have firstAhead : first ∈ c.ahead := by
    rw [passes.ahead, ← cut]
    exact List.mem_append_left _ List.mem_cons_self
  have member := standsThere.mem_of_ahead ahead
  have forward : first.location.offset ≤ v.location.offset := by
    rw [← starts, ← there]
    exact inOrder.location_le stands ⟨_, front⟩
  have room := inOrder.positive v member
  have bound := inOrder.bounded v member
  have ends : d.lastStop.offset = v.stopOffset := by
    rw [Cursor.lastStop, last]
    rfl
  have placed : Span.Placed tokens size ⟨first.location, v.location⟩ :=
    ⟨.inl ⟨first, stands.mem_of_ahead firstAhead, .inl rfl⟩,
      .inl ⟨v, member, .inl rfl⟩, forward, Nat.le_of_lt (Nat.lt_of_lt_of_le room bound)⟩
  refine ⟨.node false placed (List.forall_mem_nil _) .nil (List.forall_mem_nil _), ?_, ?_, ?_⟩
  · rw [starts]
    exact Nat.le_refl _
  · rw [ends]
    exact Nat.lt_of_le_of_lt forward room
  · rw [ends]
    exact Nat.le_of_lt room

/-- What stands before a cursor is apart from what starts behind it. -/
private theorem Settled.apart (inOrder : Token.InOrder tokens size) (stands : d.StandsIn tokens)
    {t u : SpanTree} (first : Settled tokens size c t d)
    (starts : d.location.offset ≤ u.span.start.offset) : Apart t u := by
  have gap := inOrder.lastStop_le_location stands
  exact .inl ⟨Nat.lt_of_lt_of_le first.begins (Nat.le_trans gap starts),
    Nat.le_trans first.ends (Nat.le_trans gap starts)⟩

mutual

theorem Between.settled {c d : Cursor} {t : SpanTree} (inOrder : Token.InOrder tokens size)
    (stands : c.StandsIn tokens) : Between c t d → Settled tokens size c t d
  | @Between.node _ c₁ d₁ _ isField parts before all shorter _ behind => by
    have standsThere := stands.leads before
    obtain ⟨each, apart⟩ := all.settled inOrder standsThere
    have placed := placed_of_leads inOrder standsThere all.leads shorter
    have inner : Settled tokens size c₁ (.node isField ⟨c₁.location, d₁.lastStop⟩ parts) d₁ := by
      refine ⟨.node isField placed ?_ apart fun part member => (each part member).nested, ?_, ?_, ?_⟩
      · exact fun part member => ⟨(each part member).starts, (each part member).ends⟩
      · exact Nat.le_refl _
      · exact inOrder.location_lt standsThere all.leads shorter
      · exact Nat.le_refl _
    exact inner.widen inOrder stands before all.leads behind
  | .fragment before passes behind =>
    (settled_fragment inOrder (stands.leads before) passes).widen inOrder stands before
      ⟨_, passes⟩ behind

theorem AllBetween.settled {c d : Cursor} {ts : List SpanTree} (inOrder : Token.InOrder tokens size)
    (stands : c.StandsIn tokens) :
    AllBetween c ts d → (∀ t ∈ ts, Settled tokens size c t d) ∧ ts.Pairwise Apart
  | .nil _ => ⟨nofun, .nil⟩
  | .cons first rest => by
    have here := first.settled inOrder stands
    have standsThere := stands.leads first.leads
    obtain ⟨each, apart⟩ := rest.settled inOrder standsThere
    refine ⟨List.forall_mem_cons.mpr ⟨?_, fun t member => ?_⟩, .cons (fun t member => ?_) apart⟩
    · exact here.widen inOrder stands (.refl _) first.leads rest.leads
    · exact (each t member).widen inOrder stands first.leads rest.leads (.refl _)
    · exact here.apart inOrder standsThere (each t member).starts
  | @AllBetween.fields _ c₁ _ start fields trees way same group rest => by
    have standsThere := stands.leads way
    obtain ⟨each, apart⟩ := rest.settled inOrder standsThere
    have here (t : SpanTree) (member : t ∈ fields) := (group t member).settled inOrder stands
    refine ⟨fun t member => ?_, List.pairwise_append.mpr ⟨?_, apart, fun t inGroup u behind => ?_⟩⟩
    · rcases List.mem_append.mp member with inGroup | behind
      · exact (here t inGroup).widen inOrder stands (.refl _) way rest.leads
      · exact (each t behind).widen inOrder stands way rest.leads (.refl _)
    · -- The fields of one declaration start together.
      apply List.pairwise_of_forall_mem_list
      intro t first u second
      obtain ⟨firstField, firstStart⟩ := same t first
      obtain ⟨secondField, secondStart⟩ := same u second
      exact .inr ⟨firstField, secondField, firstStart.trans secondStart.symm⟩
    · exact (here t inGroup).apart inOrder standsThere (each u behind).starts

end

end SpanTree

/-! ### Units -/

theorem TypeDecl.Listed.ahead_eq_nil {c d : Cursor} {types : List TypeDecl}
    (listed : Listed c types d) : d.ahead = [] := by
  induction listed with
  | ended none => exact List.isEmpty_iff.mp none
  | semicolon _ _ ih => exact ih
  | more _ _ _ ih => exact ih

/-- Without tokens there is nothing in a unit, and it spans nothing. -/
private theorem CompilationUnit.ReadAs.tree_of_no_tokens {d : Cursor} {unit : CompilationUnit}
    (readAs : ReadAs (Cursor.start []) unit d) :
    unit.tree = .node false ⟨.origin, .origin⟩ [] := by
  obtain ⟨all, span⟩ := readAs.between
  obtain ⟨taken, passes⟩ := all.leads
  obtain ⟨rfl, ahead⟩ := List.append_eq_nil_iff.mp passes.ahead.symm
  have last : d.last = none := passes.last
  have stop : d.lastStop = .origin := by rw [Cursor.lastStop, last]
  have here : (Cursor.start []).location = .origin := rfl
  have standsIn : (Cursor.start []).StandsIn [] := ⟨0, Cursor.at_start []⟩
  have inOrder : Token.InOrder [] 0 := ⟨List.forall_mem_nil _, .nil, List.forall_mem_nil _⟩
  obtain ⟨each, apart⟩ := all.settled inOrder standsIn
  -- A part would start before it ends, and there is no room for that.
  have none : unit.parts = [] := by
    refine List.eq_nil_iff_forall_not_mem.mpr fun part member => ?_
    have begins := (each part member).begins
    rw [stop] at begins
    exact Nat.not_lt_zero _ begins
  rw [tree, span, none, here, stop]

/-- The tree of a unit stands between its first token and its last, if there are tokens. -/
theorem CompilationUnit.tree_between {source : String} {unit : CompilationUnit}
    (returned : (read source).outcome = .ok unit) :
    ∃ tokens, Token.ofSource source = .ok tokens ∧
      ((tokens = [] ∧ unit.tree = .node false ⟨.origin, .origin⟩ []) ∨
        ∃ d, Between (Cursor.start tokens) unit.tree d) := by
  obtain ⟨tokens, types, lexed, whole⟩ := read_eq_ok returned
  refine ⟨tokens, lexed, ?_⟩
  have ended : (ofTokens tokens).2 = .ok unit := by rw [whole]
  obtain ⟨d, readAs⟩ := ofTokens_eq_ok_iff.mp ended
  cases tokens with
  | nil => exact .inl ⟨rfl, readAs.tree_of_no_tokens⟩
  | cons first more =>
    obtain ⟨all, span⟩ := readAs.between
    have plain := readAs.unbroken (Cursor.unbroken_start _)
    have atEnd : d.ahead = [] := by
      obtain ⟨_, _, _, _, _, listed, _⟩ := readAs
      exact listed.ahead_eq_nil
    have shorter : d.size < (Cursor.start (first :: more)).size := by
      rw [Cursor.size, atEnd]
      exact Nat.succ_pos _
    rw [tree, span]
    exact .inr ⟨d, all.node shorter plain⟩

/-- Spans nest. In what is read from a source, every span starts and ends at the edge of a token (or
at offset 0, if there are no tokens), does not end before it starts, and ends within the source; the
parts of a node lie within it; and parts that follow each other do not overlap, but for the fields of
one declaration. -/
theorem CompilationUnit.spans_nest {source : String} {unit : CompilationUnit}
    (returned : (read source).outcome = .ok unit) :
    ∃ tokens, Token.ofSource source = .ok tokens ∧
      unit.tree.Nested tokens source.utf8ByteSize := by
  obtain ⟨tokens, lexed, tree⟩ := tree_between returned
  refine ⟨tokens, lexed, ?_⟩
  rcases tree with ⟨rfl, empty⟩ | ⟨d, between⟩
  · have edge : Location.origin.OnEdge [] := .inr ⟨rfl, rfl⟩
    rw [empty]
    exact .node false ⟨edge, edge, Nat.le_refl _, Nat.zero_le _⟩ (List.forall_mem_nil _) .nil
      (List.forall_mem_nil _)
  · have inOrder := Token.inOrder_of_ofSource lexed
    exact (between.settled inOrder ⟨0, Cursor.at_start tokens⟩).nested

/-- Fields that share their type, an annotated method with a block, a type with arguments. -/
private def nestedSource : String :=
  "@X class A<T> \x7b int a = 1, b; @Y Map.Entry<T, ?> f(int p, T q) \x7b g(); \x7b h(); \x7d \x7d \x7d ;"

theorem CompilationUnit.spans_nest_sample :
    ∃ unit tokens, (read nestedSource).outcome = .ok unit ∧ unit.types.length = 1 ∧
      Token.ofSource nestedSource = .ok tokens ∧
      unit.tree.Nested tokens nestedSource.utf8ByteSize := by
  have computed : (read nestedSource).outcome.toOption.map (fun unit => unit.types.length) =
      some 1 := by
    have signs : nestedSource.toList = _ := String.toList_ofList
    rw [read, Token.ofSource, Piece.ofSource, signs]
    decide +kernel
  obtain ⟨unit, ended, length⟩ := Option.map_eq_some_iff.mp computed
  have returned := toOption_eq_some ended
  obtain ⟨tokens, lexed, nested⟩ := spans_nest returned
  exact ⟨unit, tokens, returned, length, lexed, nested⟩

end TestDouble
