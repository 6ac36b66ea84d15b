import TestDouble.Proofs.DeclarationEcho
import TestDouble.Proofs.Grafts
import TestDouble.Proofs.MemberReading
import TestDouble.Proofs.ReadingSafety

/-!
# What the reader of a declaration does not look at

Declarations that are read up to a place before a brace or a semicolon are read without a look behind
it.
-/

namespace TestDouble

variable {g : Graft} {c c' : Cursor}

/-! ### Types, parameters and fields -/

theorem TypeRef.readList_grafts (s : g.At c c') : g.Reads (readList c) (readList c') :=
  s.sepBy fun _ _ _ _ s => read_grafts s

theorem TypeRef.readClause_grafts (s : g.At c c') (keyword : Kind) :
    g.Passes (readClause c keyword) (readClause c' keyword) := by
  intro v d h returned before
  obtain ⟨⟨types, c₁, h₁⟩, listed, finished⟩ := bind_eq_ok returned
  cases finished
  obtain ⟨c₁', h₁', listed', s₁⟩ := s.clause (fun _ _ _ _ s => readList_grafts s) listed before
  exact ⟨c₁', h₁', bind_of_ok listed' rfl, s₁⟩

theorem TypeParameter.read_grafts (s : g.At c c') : g.Reads (read c) (read c') := by
  intro v d h returned before
  obtain ⟨⟨_, c₁, h₁⟩, passed, returned⟩ := bind_eq_ok returned
  obtain ⟨⟨name, c₂, h₂⟩, named, returned⟩ := bind_eq_ok returned
  obtain ⟨⟨bounds, c₃, h₃⟩, bounded, finished⟩ := bind_eq_ok returned
  cases finished
  obtain ⟨c₁', h₁', passed', s₁⟩ := Annotation.pass_grafts s passed (by omega)
  obtain ⟨c₂', h₂', named', s₂⟩ := s₁.identifier named (by omega)
  obtain ⟨c₃', h₃', bounded', s₃⟩ := s₂.clause
    (fun _ _ _ _ s => s.sepBy fun _ _ _ _ s => TypeRef.read_grafts s) bounded before
  refine ⟨c₃', by omega, ?_, s₃⟩
  rw [← s₁.location_eq, ← s₃.lastStop_eq]
  exact bind_of_ok passed' (bind_of_ok named' (bind_of_ok bounded' rfl))

theorem TypeParameter.readAll_grafts (s : g.At c c') : g.Passes (readAll c) (readAll c') := by
  intro v d h returned before
  rw [readAll] at returned ⊢
  rcases s.accept? .less with ⟨none, none'⟩ | ⟨t, c₁, h₁, some, later⟩
  · simp only [none, none'] at returned ⊢
    cases returned
    exact ⟨c', c'.size_le, rfl, s⟩
  · simp only [some] at returned
    obtain ⟨⟨parameters, c₂, h₂⟩, listed, returned⟩ := bind_eq_ok returned
    obtain ⟨⟨closing, c₃, h₃⟩, closed, finished⟩ := bind_eq_ok returned
    cases finished
    have before₂ : g.behind < c₂.size := Nat.lt_trans before h₃
    obtain ⟨c₁', h₁', some', s₁⟩ := later (by omega)
    obtain ⟨c₂', h₂', listed', s₂⟩ := s₁.sepBy (fun _ _ _ _ s => read_grafts s) listed before₂
    obtain ⟨c₃', h₃', closed', s₃⟩ := s₂.expect _ _ closed before
    simp only [some']
    exact ⟨c₃', by omega, bind_of_ok listed' (bind_of_ok closed' rfl), s₃⟩

theorem Cursor.MayPass.graft {d : Cursor} {kind : Kind} {passed : Bool}
    (mayPass : MayPass kind c passed d) (s : g.At c c') (before : g.behind < d.size) :
    ∃ d', MayPass kind c' passed d' ∧ g.At d d' := by
  cases mayPass with
  | passed found =>
    obtain ⟨d', h', found', s'⟩ := s.accept?_some found before
    exact ⟨d', .passed found', s'⟩
  | missing missing => exact ⟨c', .missing (s.accept?_none missing), s⟩

theorem Cursor.Typed.graft {d : Cursor} {q : Qualifiers} {type : TypeRef} {variadic : Bool}
    (typed : c.Typed q type variadic d) (s : g.At c c') (before : g.behind < d.size) :
    ∃ d', c'.Typed q type variadic d' ∧ g.At d d' := by
  obtain ⟨c₁, c₂, c₃, h₁, h₂, h₃, qualified, typeRead, annotated, mayPass⟩ := typed
  have marked := mayPass.size_le
  obtain ⟨c₁', h₁', qualified', s₁⟩ := Qualifiers.read_grafts s qualified (by omega)
  obtain ⟨c₂', h₂', typeRead', s₂⟩ := TypeRef.read_grafts s₁ typeRead (by omega)
  obtain ⟨c₃', h₃', annotated', s₃⟩ := Annotation.pass_grafts s₂ annotated (by omega)
  obtain ⟨d', mayPass', s'⟩ := mayPass.graft s₃ before
  exact ⟨d', ⟨c₁', c₂', c₃', h₁', h₂', h₃', qualified', typeRead', annotated', mayPass'⟩, s'⟩

theorem Parameter.ReadAs.graft {d : Cursor} {v : Option Parameter} (readAs : ReadAs c v d)
    (s : g.At c c') (before : g.behind < d.size) : ∃ d', ReadAs c' v d' ∧ g.At d d' := by
  cases readAs with
  | receiver typed found =>
    obtain ⟨c₄', typed', s₄⟩ := typed.graft s (by omega)
    obtain ⟨d', h', found', s'⟩ := s₄.accept?_some found before
    exact ⟨d', .receiver typed' found', s'⟩
  | named typed missing named counted =>
    obtain ⟨c₄', typed', s₄⟩ := typed.graft s (by omega)
    obtain ⟨c₅', h₅', named', s₅⟩ := s₄.identifier named (by omega)
    obtain ⟨d', h', counted', s'⟩ := s₅.dimensions counted before
    rw [← s.location_eq, ← s'.lastStop_eq]
    exact ⟨d', .named typed' (s₄.accept?_none missing) named' counted', s'⟩

theorem Parameter.read_grafts (s : g.At c c') : g.Reads (read c) (read c') := by
  intro v d h returned before
  obtain ⟨d', readAs', s'⟩ := (read_eq_ok_iff.mp ⟨h, returned⟩).graft s before
  obtain ⟨h', returned'⟩ := read_eq_ok_iff.mpr readAs'
  exact ⟨d', h', returned', s'⟩

theorem Parameter.readAll_grafts (s : g.At c c') : g.Reads (readAll c) (readAll c') := by
  intro v d h returned before
  obtain ⟨⟨opening, c₁, h₁⟩, opened, returned⟩ := bind_eq_ok returned
  obtain ⟨⟨ps, c₂, h₂⟩, listed, returned⟩ := bind_eq_ok returned
  obtain ⟨⟨closing, c₃, h₃⟩, closed, finished⟩ := bind_eq_ok returned
  cases finished
  obtain ⟨c₁', h₁', opened', s₁⟩ := s.expect _ _ opened (by omega)
  obtain ⟨c₂', h₂', listed', s₂⟩ :=
    s₁.items [] (List.filterMap id) (fun _ _ _ _ s => read_grafts s) listed (by omega)
  obtain ⟨c₃', h₃', closed', s₃⟩ := s₂.expect _ _ closed before
  exact ⟨c₃', by omega, bind_of_ok opened' (bind_of_ok listed' (bind_of_ok closed' rfl)), s₃⟩

namespace Declarator

/-- Where an initializer ends is seen before the bar. -/
private theorem endsInitializer_blind (kept : List Token) :
    endsInitializer (kept ++ g.bar :: g.new) = endsInitializer (kept ++ g.bar :: g.old) := by
  match kept with
  | [] =>
    have noComma := g.bar_kind_ne (show Kind.comma.bars = false from rfl)
    simp [endsInitializer, beq_eq_false_iff_ne.mpr noComma]
  | [t] =>
    have noWord := g.bar_kind_ne (show Kind.identifier.bars = false from rfl)
    have noName (rest : List Token) : comesNext (g.bar :: rest) = false := by
      cases rest <;> simp [comesNext, noWord]
    simp [endsInitializer, noName]
  | [t, u] => simp [endsInitializer, comesNext]
  | t :: u :: w :: kept => simp [endsInitializer, comesNext]

theorem readRest_grafts (s : g.At c c') (name : String) :
    g.Passes (readRest name c) (readRest name c') := by
  intro v d h returned before
  rw [readRest] at returned ⊢
  rcases counted : c.dimensions with ⟨n, c₁, h₁⟩
  rw [counted] at returned
  obtain ⟨⟨f, c₂, h₂⟩, initialized, finished⟩ := bind_eq_ok returned
  cases finished
  obtain ⟨c₁', h₁', counted', s₁⟩ := s.dimensions counted (Nat.lt_of_lt_of_le before h₂)
  obtain ⟨c₂', h₂', initialized', s₂⟩ := s₁.clause
    (fun _ _ _ _ s => Fragment.readValue_grafts s _ endsInitializer_blind) initialized before
  rw [counted']
  refine ⟨c₂', by omega, bind_of_ok initialized' ?_, s₂⟩
  rw [← s₂.lastStop_eq]
  rfl

theorem size_readAll_lt {origin c : Cursor} {within : c.size ≤ origin.size} {name : String}
    {read : List Declarator} {r : Consumed origin (List Declarator)}
    (returned : readAll origin c within name read = .ok r) : r.cursor.size < c.size := by
  rw [readAll] at returned
  obtain ⟨⟨declarator, c₁, h₁⟩, -, returned⟩ := bind_eq_ok returned
  dsimp only at returned
  split at returned
  next t c₂ h₂ found =>
    obtain ⟨⟨next, c₃, h₃⟩, -, returned⟩ := bind_eq_ok returned
    have later : r.cursor.size < c₃.size := size_readAll_lt returned
    omega
  next =>
    obtain ⟨⟨semicolon, c₂, h₂⟩, -, finished⟩ := bind_eq_ok returned
    cases finished
    exact Cursor.lt_of_le_lt h₁ h₂
termination_by c.size

theorem readAll_grafts {origin origin' c c' : Cursor} (s : g.At c c')
    (within : c.size ≤ origin.size) (within' : c'.size ≤ origin'.size) (name : String)
    (read : List Declarator) :
    g.Reads (readAll origin c within name read) (readAll origin' c' within' name read) := by
  intro v d h returned before
  rw [readAll] at returned ⊢
  obtain ⟨⟨declarator, c₁, h₁⟩, declared, returned⟩ := bind_eq_ok returned
  dsimp only at returned
  -- The bar is ahead after the whole list, so it is ahead after its first declarator.
  have size₁ : d.size < c₁.size := by
    split at returned
    next t c₂ h₂ found =>
      obtain ⟨⟨next, c₃, h₃⟩, -, returned⟩ := bind_eq_ok returned
      have later := size_readAll_lt returned
      dsimp only at later
      omega
    next =>
      obtain ⟨⟨semicolon, c₂, h₂⟩, -, finished⟩ := bind_eq_ok returned
      cases finished
      exact h₂
  obtain ⟨c₁', h₁', declared', s₁⟩ := readRest_grafts s name declared (by omega)
  rw [declared', ok_bind]
  rcases s₁.accept? .comma with ⟨none, none'⟩ | ⟨t, c₂, h₂, some, later⟩
  · simp only [none, none'] at returned ⊢
    obtain ⟨⟨semicolon, c₂, h₂⟩, ended, finished⟩ := bind_eq_ok returned
    cases finished
    obtain ⟨c₂', h₂', ended', s₂⟩ := s₁.expect _ _ ended before
    exact ⟨c₂', by omega, bind_of_ok ended' rfl, s₂⟩
  · simp only [some] at returned
    obtain ⟨⟨next, c₃, h₃⟩, named, returned⟩ := bind_eq_ok returned
    have size₃ : d.size < c₃.size := size_readAll_lt returned
    obtain ⟨c₂', h₂', some', s₂⟩ := later (by omega)
    obtain ⟨c₃', h₃', named', s₃⟩ := s₂.identifier named (by omega)
    have within₃ : c₃'.size ≤ origin'.size := by omega
    obtain ⟨d', h', returned', s'⟩ := readAll_grafts s₃ _ within₃ _ _ returned before
    simp only [some']
    exact ⟨d', h', bind_of_ok named' returned', s'⟩
termination_by c.size

end Declarator

/-! ### Members and types -/

theorem Graft.Reads.mapError {α : Type} {x : Reading α c} {y : Reading α c'} (reads : g.Reads x y)
    (f : ParseError → ParseError) : g.Reads (x.mapError f) (y.mapError f) := by
  intro v d h returned before
  obtain ⟨d', h', returned', s'⟩ := reads (mapError_eq_ok returned) before
  exact ⟨d', h', by rw [returned']; rfl, s'⟩

section

variable {q : Qualifiers} {typeParameters : List TypeParameter} {start : Location}

/-- The body of a method, or the semicolon in its place. -/
private theorem readBody_grafts (s : g.At c c') :
    g.Reads (
      if c.sees [.leftBrace] then do
        let ⟨block, c₁, h₁⟩ ← Block.read c
        return ⟨some block, c₁, h₁⟩
      else do
        let ⟨_, c₁, h₁⟩ ← c.expect .semicolon "'\x7b' or ';' after method declaration"
        return ⟨none, c₁, h₁⟩ : Reading (Option Block) c)
      (if c'.sees [.leftBrace] then do
        let ⟨block, c₁, h₁⟩ ← Block.read c'
        return ⟨some block, c₁, h₁⟩
      else do
        let ⟨_, c₁, h₁⟩ ← c'.expect .semicolon "'\x7b' or ';' after method declaration"
        return ⟨none, c₁, h₁⟩ : Reading (Option Block) c') := by
  intro v d h returned before
  rw [s.sees_one]
  split at returned
  next opens =>
    rw [if_pos opens]
    obtain ⟨⟨block, c₁, h₁⟩, read, finished⟩ := bind_eq_ok returned
    cases finished
    obtain ⟨c₁', h₁', read', s₁⟩ := Block.read_grafts s read before
    exact ⟨c₁', h₁', bind_of_ok read' rfl, s₁⟩
  next notOpen =>
    rw [if_neg notOpen]
    obtain ⟨⟨semicolon, c₁, h₁⟩, ended, finished⟩ := bind_eq_ok returned
    cases finished
    obtain ⟨c₁', h₁', ended', s₁⟩ := s.expect _ _ ended before
    exact ⟨c₁', h₁', bind_of_ok ended' rfl, s₁⟩

theorem Method.readRest_grafts {returnType : TypeRef} {name : String} (s : g.At c c') :
    g.Reads (readRest q typeParameters returnType name start c)
      (readRest q typeParameters returnType name start c') := by
  intro v d h returned before
  rw [readRest] at returned ⊢
  obtain ⟨⟨parameters, c₁, h₁⟩, listed, returned⟩ := bind_eq_ok returned
  have counted : c₁.dimensions = ⟨_, _, c₁.dimensions.notLonger⟩ := rfl
  obtain ⟨⟨exceptions, c₃, h₃⟩, thrown, returned⟩ := bind_eq_ok returned
  obtain ⟨⟨body, c₄, h₄⟩, bodyRead, finished⟩ := bind_eq_ok returned
  cases finished
  have size₂ := c₁.dimensions.notLonger
  have size₃ : c₃.size ≤ c₁.dimensions.cursor.size := h₃
  obtain ⟨c₁', h₁', listed', s₁⟩ := Parameter.readAll_grafts s listed (by omega)
  obtain ⟨c₂', h₂', counted', s₂⟩ := s₁.dimensions counted (by omega)
  obtain ⟨c₃', h₃', thrown', s₃⟩ := TypeRef.readClause_grafts s₂ _ thrown (by omega)
  obtain ⟨c₄', h₄', bodyRead', s₄⟩ := readBody_grafts s₃ bodyRead before
  refine ⟨c₄', by omega, bind_of_ok listed' ?_, s₄⟩
  dsimp only
  rw [counted', ← s₄.lastStop_eq]
  exact bind_of_ok thrown' (bind_of_ok bodyRead' rfl)

theorem Constructor.readRest_grafts (s : g.At c c') :
    g.Reads (readRest q typeParameters start c) (readRest q typeParameters start c') := by
  intro v d h returned before
  obtain ⟨⟨name, c₁, h₁⟩, named, returned⟩ := bind_eq_ok returned
  obtain ⟨⟨parameters, c₂, h₂⟩, listed, returned⟩ := bind_eq_ok returned
  obtain ⟨⟨exceptions, c₃, h₃⟩, thrown, returned⟩ := bind_eq_ok returned
  obtain ⟨⟨body, c₄, h₄⟩, bodyRead, finished⟩ := bind_eq_ok returned
  cases finished
  obtain ⟨c₁', h₁', named', s₁⟩ := s.identifier named (by omega)
  obtain ⟨c₂', h₂', listed', s₂⟩ := (Parameter.readAll_grafts s₁).mapError _ listed (by omega)
  obtain ⟨c₃', h₃', thrown', s₃⟩ := TypeRef.readClause_grafts s₂ _ thrown (by omega)
  obtain ⟨c₄', h₄', bodyRead', s₄⟩ := Block.read_grafts s₃ bodyRead before
  refine ⟨c₄', by omega, ?_, s₄⟩
  rw [← s₄.lastStop_eq]
  exact bind_of_ok named' (bind_of_ok listed' (bind_of_ok thrown' (bind_of_ok bodyRead' rfl)))

end

namespace NominalDecl

theorem headerLength?_ge {tokens : List Token} {depth n m : Nat}
    (found : headerLength? tokens depth n = some m) : n ≤ m := by
  fun_induction headerLength? tokens depth n with
  | case1 => cases found
  | case2 =>
    cases found
    exact Nat.le_refl _
  | _ =>
    rename_i ih
    have later := ih found
    omega

theorem bodyLength?_gt {tokens : List Token} {depth n m : Nat}
    (found : bodyLength? tokens depth n = some m) : n < m := by
  fun_induction bodyLength? tokens depth n with
  | case1 => cases found
  | case3 =>
    cases found
    exact Nat.lt_succ_self _
  | _ =>
    rename_i ih
    have later := ih found
    omega

/-- A header that ends before the bar, or with it, is found without a look behind it. -/
theorem headerLength?_graft (kept : List Token) {depth n m : Nat}
    (found : headerLength? (kept ++ g.bar :: g.old) depth n = some m)
    (before : m ≤ n + kept.length) :
    headerLength? (kept ++ g.bar :: g.new) depth n = some m := by
  induction kept generalizing depth n with
  | nil =>
    -- Unless it ends at the bar, the header would have to end before it.
    have into {depth : Nat} (found : headerLength? g.old depth (n + 1) = some m) : False := by
      have counted := headerLength?_ge found
      simp only [List.length_nil] at before
      omega
    rcases Kind.bars_iff.mp g.bars with bar | bar | bar
    · simp only [List.nil_append, headerLength?, bar] at found ⊢
      split_ifs at found ⊢
      · exact found
      · exact (into found).elim
    · simp only [List.nil_append, headerLength?, bar] at found
      exact (into found).elim
    · simp only [List.nil_append, headerLength?, bar] at found
      exact (into found).elim
  | cons t kept ih =>
    simp only [List.length_cons] at before
    simp only [List.cons_append, headerLength?] at found ⊢
    have later {depth : Nat} := @ih depth (n + 1)
    split at found
    · split_ifs at found ⊢
      · exact found
      · exact later found (by omega)
    · exact later found (by omega)
    · exact later found (by omega)
    · exact later found (by omega)
    · exact later found (by omega)
    · exact later found (by omega)

/-- A body that ends before the bar, or with it, is found without a look behind it. -/
theorem bodyLength?_graft (kept : List Token) {depth n m : Nat}
    (found : bodyLength? (kept ++ g.bar :: g.old) depth n = some m)
    (before : m ≤ n + (kept.length + 1)) :
    bodyLength? (kept ++ g.bar :: g.new) depth n = some m := by
  induction kept generalizing depth n with
  | nil =>
    have into {depth : Nat} (found : bodyLength? g.old depth (n + 1) = some m) : False := by
      have counted := bodyLength?_gt found
      simp only [List.length_nil] at before
      omega
    simp only [List.nil_append, bodyLength?] at found ⊢
    split at found
    · exact (into found).elim
    · split_ifs at found ⊢
      · exact found
      · exact (into found).elim
    · exact (into found).elim
  | cons t kept ih =>
    simp only [List.length_cons] at before
    simp only [List.cons_append, bodyLength?] at found ⊢
    have later {depth : Nat} := @ih depth (n + 1)
    split at found
    · exact later found (by omega)
    · split_ifs at found ⊢
      · exact found
      · exact later found (by omega)
    · exact later found (by omega)

theorem kind?_graft (s : g.At c c') :
    (kind? c = none ∧ kind? c' = none) ∨
    ∃ k d h, kind? c = some ⟨k, d, h⟩ ∧ (g.behind < d.size →
      ∃ d' h', kind? c' = some ⟨k, d', h'⟩ ∧ g.At d d') := by
  rw [kind?, kind?]
  rcases s.accept? .enumWord with ⟨none, none'⟩ | ⟨t, c₁, h₁, some, later⟩
  · rw [none, none']
    dsimp only
    rcases s.acceptPair? .atSign .interfaceWord rfl with
      ⟨none, none'⟩ | ⟨t, c₁, h₁, some, later⟩
    · rw [none, none']
      dsimp only
      rcases s.acceptWord? "record" with ⟨none, none'⟩ | ⟨t, c₁, h₁, some, later⟩
      · rw [none, none']
        exact .inl ⟨rfl, rfl⟩
      · rw [some]
        refine .inr ⟨.record, c₁, h₁, rfl, fun before => ?_⟩
        obtain ⟨c₁', h₁', some', s₁⟩ := later before
        exact ⟨c₁', h₁', by rw [some'], s₁⟩
    · rw [some]
      refine .inr ⟨.annotationType, c₁, h₁, rfl, fun before => ?_⟩
      obtain ⟨c₁', h₁', some', s₁⟩ := later before
      exact ⟨c₁', h₁', by rw [some'], s₁⟩
  · rw [some]
    refine .inr ⟨.enumeration, c₁, h₁, rfl, fun before => ?_⟩
    obtain ⟨c₁', h₁', some', s₁⟩ := later before
    exact ⟨c₁', h₁', by rw [some'], s₁⟩

/-- Counting goes up to the bar and perhaps over it, but reads nothing behind it. -/
theorem passBody_graft {kept : List Token} {n m : Nat} (ahead : c.ahead = kept ++ g.bar :: g.old)
    (ahead' : c'.ahead = kept ++ g.bar :: g.new) (header : headerLength? c.ahead 0 0 = some n)
    (body : bodyLength? (c.ahead.drop (n + 1)) 0 0 = some m) (within : n + m ≤ kept.length) :
    ∃ inside h, passBody c' = .ok ⟨(), c'.skip (n + 1 + m) inside, h⟩ := by
  have counted := bodyLength?_gt body
  have dropped {rest : List Token} : (kept ++ g.bar :: rest).drop (n + 1) =
      kept.drop (n + 1) ++ g.bar :: rest := List.drop_append_of_le_length (by omega)
  rw [ahead] at header
  rw [ahead, dropped] at body
  have header' := headerLength?_graft kept header (by omega)
  have body' := bodyLength?_graft (kept.drop (n + 1)) body (by rw [List.length_drop]; omega)
  rw [← ahead'] at header'
  rw [← dropped, ← ahead'] at body'
  have inside := bodyLength?_le body'
  exact ⟨inside, passBody_eq_ok_iff.mpr ⟨n, m, header', body', inside, rfl⟩⟩

theorem passBody_grafts (s : g.At c c') : g.Passes (passBody c) (passBody c') := by
  intro v d h returned before
  obtain ⟨kept, ahead, ahead'⟩ := s.ahead
  obtain ⟨n, m, header, body, inside, rfl⟩ := passBody_eq_ok_iff.mp ⟨h, returned⟩
  have within := Graft.le_length ahead (by rwa [Cursor.size_skip] at before)
  obtain ⟨inside', h', passed'⟩ := passBody_graft ahead ahead' header body (by omega)
  exact ⟨_, h', passed', s.skip inside inside' before⟩

theorem readRest_grafts {kind : NominalKind} {q : Qualifiers} {start : Location} (s : g.At c c') :
    g.Reads (readRest kind q start c) (readRest kind q start c') := by
  intro v d h returned before
  obtain ⟨⟨name, c₁, h₁⟩, named, returned⟩ := bind_eq_ok returned
  obtain ⟨⟨_, c₂, h₂⟩, passed, finished⟩ := bind_eq_ok returned
  cases finished
  obtain ⟨c₁', h₁', named', s₁⟩ := s.identifier named (by omega)
  obtain ⟨c₂', h₂', passed', s₂⟩ := passBody_grafts s₁ passed before
  refine ⟨c₂', by omega, ?_, s₂⟩
  rw [← s₂.lastStop_eq]
  exact bind_of_ok named' (bind_of_ok passed' rfl)

end NominalDecl

namespace TypeDecl

theorem comesNext_graft (s : g.At c c') : comesNext c' = comesNext c := by
  rw [comesNext, comesNext, s.sees_one, s.sees_one, s.sees_one, s.sees_two .atSign _ rfl,
    s.sees_two .identifier _ rfl, s.seesWord_eq]

theorem passPermits_grafts (s : g.At c c') : g.Passes (passPermits c) (passPermits c') := by
  intro v d h returned before
  rw [passPermits] at returned ⊢
  rcases s.acceptWord? "permits" with ⟨none, none'⟩ | ⟨t, c₁, h₁, some, later⟩
  · simp only [none, none'] at returned ⊢
    cases returned
    exact ⟨c', c'.size_le, rfl, s⟩
  · simp only [some] at returned
    obtain ⟨⟨types, c₂, h₂⟩, listed, finished⟩ := bind_eq_ok returned
    cases finished
    obtain ⟨c₁', h₁', some', s₁⟩ := later (Nat.lt_trans before h₂)
    obtain ⟨c₂', h₂', listed', s₂⟩ := TypeRef.readList_grafts s₁ listed before
    simp only [some']
    exact ⟨c₂', by omega, bind_of_ok listed' rfl, s₂⟩

end TypeDecl

theorem Cursor.Qualifies.graft {q : Qualifiers} {c₁ : Cursor} (qualifies : c.Qualifies q c₁)
    (s : g.At c c') (before : g.behind < c₁.size) : ∃ c₁', c'.Qualifies q c₁' ∧ g.At c₁ c₁' := by
  obtain ⟨notOpen, notStatic, h₁, qualified⟩ := qualifies
  obtain ⟨c₁', h₁', qualified', s₁⟩ := Qualifiers.read_grafts s qualified before
  refine ⟨c₁', ⟨?_, ?_, h₁', qualified'⟩, s₁⟩
  · rw [s.sees_one, notOpen]
  · rw [s.sees_two (.modifier .staticMember) _ rfl, notStatic]

theorem Cursor.Names.graft {q : Qualifiers} {ps : List TypeParameter} {type : TypeRef} {name : String}
    {c₄ : Cursor} (names : c.Names q ps type name c₄) (s : g.At c c') (before : g.behind < c₄.size) :
    ∃ c₄', c'.Names q ps type name c₄' ∧ g.At c₄ c₄' := by
  obtain ⟨c₁, c₂, c₃, h₂, h₃, h₄, qualifies, notType, listed, notConstructor, typed, named⟩ := names
  obtain ⟨c₁', qualifies', s₁⟩ := qualifies.graft s (by omega)
  obtain ⟨c₂', h₂', listed', s₂⟩ := TypeParameter.readAll_grafts s₁ listed (by omega)
  obtain ⟨c₃', h₃', typed', s₃⟩ := TypeRef.read_grafts s₂ typed (by omega)
  obtain ⟨c₄', h₄', named', s₄⟩ := s₃.identifier named before
  refine ⟨c₄', ⟨c₁', c₂', c₃', h₂', h₃', h₄', qualifies', ?_, listed', ?_, typed', named'⟩, s₄⟩
  · rw [TypeDecl.comesNext_graft s₁, notType]
  · rw [s₂.sees_two .identifier _ rfl, notConstructor]

theorem Cursor.HeadsClass.graft {name : String} {ps : List TypeParameter} {super : Option TypeRef}
    {is : List TypeRef} {c₆ : Cursor} (heads : c.HeadsClass name ps super is c₆) (s : g.At c c')
    (before : g.behind < c₆.size) : ∃ c₆', c'.HeadsClass name ps super is c₆' ∧ g.At c₆ c₆' := by
  obtain ⟨t, c₁, c₂, c₃, c₄, c₅, h₁, h₂, h₃, h₄, h₅, h₆, word, named, listed, extended, implemented,
    permitted⟩ := heads
  obtain ⟨c₁', h₁', word', s₁⟩ := s.accept?_some word (by omega)
  obtain ⟨c₂', h₂', named', s₂⟩ := s₁.identifier named (by omega)
  obtain ⟨c₃', h₃', listed', s₃⟩ := TypeParameter.readAll_grafts s₂ listed (by omega)
  obtain ⟨c₄', h₄', extended', s₄⟩ :=
    s₃.clause (fun _ _ _ _ s => TypeRef.read_grafts s) extended (by omega)
  obtain ⟨c₅', h₅', implemented', s₅⟩ := TypeRef.readClause_grafts s₄ _ implemented (by omega)
  obtain ⟨c₆', h₆', permitted', s₆⟩ := TypeDecl.passPermits_grafts s₅ permitted before
  exact ⟨c₆', ⟨t, c₁', c₂', c₃', c₄', c₅', h₁', h₂', h₃', h₄', h₅', h₆', word', named', listed',
    extended', implemented', permitted'⟩, s₆⟩

theorem Cursor.HeadsInterface.graft {name : String} {ps : List TypeParameter} {is : List TypeRef}
    {c₅ : Cursor} (heads : c.HeadsInterface name ps is c₅) (s : g.At c c')
    (before : g.behind < c₅.size) : ∃ c₅', c'.HeadsInterface name ps is c₅' ∧ g.At c₅ c₅' := by
  obtain ⟨t, c₁, c₂, c₃, c₄, h₁, h₂, h₃, h₄, h₅, noClass, word, named, listed, extended,
    permitted⟩ := heads
  obtain ⟨c₁', h₁', word', s₁⟩ := s.accept?_some word (by omega)
  obtain ⟨c₂', h₂', named', s₂⟩ := s₁.identifier named (by omega)
  obtain ⟨c₃', h₃', listed', s₃⟩ := TypeParameter.readAll_grafts s₂ listed (by omega)
  obtain ⟨c₄', h₄', extended', s₄⟩ := TypeRef.readClause_grafts s₃ _ extended (by omega)
  obtain ⟨c₅', h₅', permitted', s₅⟩ := TypeDecl.passPermits_grafts s₄ permitted before
  exact ⟨c₅', ⟨t, c₁', c₂', c₃', c₄', h₁', h₂', h₃', h₄', h₅', s.accept?_none noClass, word', named',
    listed', extended', permitted'⟩, s₅⟩

mutual

theorem TypeDecl.readRest_grafts {g : Graft} {c c' : Cursor} (s : g.At c c') (q : Qualifiers)
    (start : Location) : g.Reads (TypeDecl.readRest q start c) (TypeDecl.readRest q start c') := by
  intro v d h returned before
  suffices ∃ d', TypeDecl.ReadAs q start c' v d' ∧ g.At d d' by
    obtain ⟨d', readAs', s'⟩ := this
    obtain ⟨h', returned'⟩ := readAs'.read
    exact ⟨d', h', returned', s'⟩
  cases TypeDecl.readAs_of_readRest returned with
  | classDecl heads bodyRead =>
    have size := heads.size_lt
    obtain ⟨c₆', heads', s₆⟩ := heads.graft s (by omega)
    obtain ⟨d', h', bodyRead', s'⟩ := BodyMember.readBody_grafts s₆ bodyRead before
    rw [← s'.lastStop_eq]
    exact ⟨d', .classDecl heads' bodyRead', s'⟩
  | interfaceDecl heads bodyRead =>
    have size := heads.size_lt
    obtain ⟨c₅', heads', s₅⟩ := heads.graft s (by omega)
    obtain ⟨d', h', bodyRead', s'⟩ := BodyMember.readBody_grafts s₅ bodyRead before
    rw [← s'.lastStop_eq]
    exact ⟨d', .interfaceDecl heads' bodyRead', s'⟩
  | nominal noClass noInterface known read =>
    obtain ⟨none, -⟩ | ⟨k, c₁, h₁, some, later⟩ := NominalDecl.kind?_graft s
    · simp [none] at known
    obtain ⟨rfl, rfl⟩ := Consumed.mk.inj (Option.some.inj (some.symm.trans known))
    obtain ⟨c₁', h₁', known', s₁⟩ := later (by omega)
    obtain ⟨d', h', read', s'⟩ := NominalDecl.readRest_grafts s₁ read before
    exact ⟨d', .nominal (s.accept?_none noClass) (s.accept?_none noInterface) known' read', s'⟩
termination_by 4 * c.size

theorem BodyMember.readBody_grafts {g : Graft} {c c' : Cursor} (s : g.At c c') :
    g.Reads (BodyMember.readBody c) (BodyMember.readBody c') := by
  intro v d h returned before
  obtain ⟨t, c₁, h₁, opened, listed⟩ := BodyMember.readBody_eq_ok_iff.mp ⟨h, returned⟩
  have size := listed.size_lt
  obtain ⟨c₁', h₁', opened', s₁⟩ := s.expect _ _ opened (by omega)
  obtain ⟨d', listed', s'⟩ := BodyMember.Listed.graft listed s₁ before
  obtain ⟨h', returned'⟩ := BodyMember.readBody_eq_ok_iff.mpr ⟨t, c₁', h₁', opened', listed'⟩
  exact ⟨d', h', returned', s'⟩
termination_by 4 * c.size + 3

theorem BodyMember.Listed.graft {g : Graft} {c c' d : Cursor} {parts : List BodyMember}
    (listed : BodyMember.Listed c parts d) (s : g.At c c') (before : g.behind < d.size) :
    ∃ d', BodyMember.Listed c' parts d' ∧ g.At d d' := by
  cases listed with
  | closed closing =>
    obtain ⟨d', h', closing', s'⟩ := s.accept?_some closing before
    exact ⟨d', .closed closing', s'⟩
  | semicolon notClosed ended rest =>
    have size := rest.size_lt
    obtain ⟨c₁', h₁', ended', s₁⟩ := s.accept?_some ended (by omega)
    obtain ⟨d', rest', s'⟩ := BodyMember.Listed.graft rest s₁ before
    exact ⟨d', .semicolon (s.accept?_none notClosed) ended' rest', s'⟩
  | more notClosed notEnded read rest =>
    have size := rest.size_lt
    obtain ⟨c₁', h₁', read', s₁⟩ := BodyMember.read_grafts s read (by omega)
    obtain ⟨d', rest', s'⟩ := BodyMember.Listed.graft rest s₁ before
    exact ⟨d', .more (s.accept?_none notClosed) (s.accept?_none notEnded) read' rest', s'⟩
termination_by 4 * c.size + 2

theorem BodyMember.read_grafts {g : Graft} {c c' : Cursor} (s : g.At c c') :
    g.Reads (BodyMember.read c) (BodyMember.read c') := by
  intro v d h returned before
  suffices ∃ d', BodyMember.ReadAs c' v d' ∧ g.At d d' by
    obtain ⟨d', readAs', s'⟩ := this
    obtain ⟨h', returned'⟩ := readAs'.read
    exact ⟨d', h', returned', s'⟩
  have location := s.location_eq
  cases BodyMember.readAs_of_read returned with
  | initializer opens read =>
    obtain ⟨d', h', read', s'⟩ := Block.read_grafts s read before
    rw [← location, ← s'.lastStop_eq]
    exact ⟨d', .initializer (by rw [s.sees_one, opens]) read', s'⟩
  | static notOpen isStatic expected read =>
    obtain ⟨c₁', h₁', expected', s₁⟩ := s.expect _ _ expected (by omega)
    obtain ⟨d', h', read', s'⟩ := Block.read_grafts s₁ read before
    rw [← location, ← s'.lastStop_eq]
    refine ⟨d', .static (by rw [s.sees_one, notOpen]) ?_ expected' read', s'⟩
    rw [s.sees_two (.modifier .staticMember) _ rfl, isStatic]
  | type qualifies isType read =>
    obtain ⟨h₁, qualified⟩ := qualifies.qualified
    obtain ⟨c₁', qualifies', s₁⟩ := qualifies.graft s (by omega)
    obtain ⟨d', h', read', s'⟩ := TypeDecl.readRest_grafts s₁ _ _ read before
    rw [← location] at read'
    exact ⟨d', .type qualifies' (by rw [TypeDecl.comesNext_graft s₁, isType]) read', s'⟩
  | constructor qualifies notType listed isConstructor read =>
    obtain ⟨c₁', qualifies', s₁⟩ := qualifies.graft s (by omega)
    obtain ⟨c₂', h₂', listed', s₂⟩ := TypeParameter.readAll_grafts s₁ listed (by omega)
    obtain ⟨d', h', read', s'⟩ := Constructor.readRest_grafts s₂ read before
    rw [← location] at read'
    refine ⟨d', .constructor qualifies' ?_ listed' ?_ read', s'⟩
    · rw [TypeDecl.comesNext_graft s₁, notType]
    · rw [s₂.sees_two .identifier _ rfl, isConstructor]
  | method names isMethod read =>
    obtain ⟨c₄', names', s₄⟩ := names.graft s (by omega)
    obtain ⟨d', h', read', s'⟩ := Method.readRest_grafts s₄ read before
    rw [← location] at read'
    exact ⟨d', .method names' (by rw [s₄.sees_one, isMethod]) read', s'⟩
  | fields names notMethod read =>
    obtain ⟨c₄', names', s₄⟩ := names.graft s (by omega)
    obtain ⟨d', h', read', s'⟩ := Declarator.readAll_grafts s₄ _ c₄'.size_le _ _ read before
    rw [← location]
    exact ⟨d', .fields names' (by rw [s₄.sees_one, notMethod]) read', s'⟩
termination_by 4 * c.size + 1

end

theorem TypeDecl.read_grafts (s : g.At c c') : g.Reads (TypeDecl.read c) (TypeDecl.read c') := by
  intro v d h returned before
  obtain ⟨⟨q, c₁, h₁⟩, qualified, returned⟩ := bind_eq_ok returned
  obtain ⟨⟨decl, c₂, h₂⟩, read, finished⟩ := bind_eq_ok returned
  cases finished
  obtain ⟨c₁', h₁', qualified', s₁⟩ := Qualifiers.read_grafts s qualified (by omega)
  obtain ⟨c₂', h₂', read', s₂⟩ := TypeDecl.readRest_grafts s₁ _ _ read before
  rw [← s.location_eq] at read'
  exact ⟨c₂', by omega, bind_of_ok qualified' (bind_of_ok read' rfl), s₂⟩

/-! ### What a unit starts with -/

theorem PackageDecl.ReadAs.grafts {v : Option PackageDecl} {d : Cursor} (readAs : ReadAs c v d)
    (s : g.At c c') (before : g.behind < d.size) : ∃ d', ReadAs c' v d' ∧ g.At d d' := by
  cases readAs with
  | missing missing => exact ⟨c', .missing (s.accept?_none missing), s⟩
  | declared word named closed =>
    obtain ⟨c₁', h₁', word', s₁⟩ := s.accept?_some word (by omega)
    obtain ⟨c₂', h₂', named', s₂⟩ := s₁.dottedName named (by omega)
    obtain ⟨c₃', h₃', closed', s₃⟩ := s₂.expect _ _ closed before
    rw [← s.location_eq, ← s₃.lastStop_eq]
    exact ⟨c₃', .declared word' named' closed', s₃⟩

namespace ImportDecl

theorem ReadAs.graft {start : Location} {d : Cursor} {decl : ImportDecl}
    (readAs : ReadAs start c decl d) (s : g.At c c') (before : g.behind < d.size) :
    ∃ d', ReadAs start c' decl d' ∧ g.At d d' := by
  obtain ⟨mayPass, named, starred, ended⟩ := readAs
  obtain ⟨c₁', mayPass', s₁⟩ := mayPass.graft s (by omega)
  obtain ⟨c₂', h₂', named', s₂⟩ := s₁.dottedName named (by omega)
  obtain ⟨c₃', h₃', starred', s₃⟩ := s₂.clause (fun _ _ _ _ s => s.expect _ _) starred (by omega)
  obtain ⟨d', h₄', ended', s'⟩ := s₃.expect _ _ ended before
  rw [← s'.lastStop_eq]
  exact ⟨d', .target mayPass' named' starred' ended', s'⟩

theorem Listed.grafts {c c' d : Cursor} {decls : List ImportDecl} (listed : Listed c decls d)
    (s : g.At c c') (before : g.behind < d.size) : ∃ d', Listed c' decls d' ∧ g.At d d' := by
  induction listed generalizing c' with
  | ended missing => exact ⟨c', .ended (s.accept?_none missing), s⟩
  | @more c c₁ c₂ d word h₁ h₂ decl decls found declared rest ih =>
    have later := rest.size_le
    obtain ⟨c₁', h₁', found', s₁⟩ := s.accept?_some found (by omega)
    obtain ⟨c₂', readAs', s₂⟩ := (readRest_eq_ok_iff.mp ⟨h₂, declared⟩).graft s₁ (by omega)
    obtain ⟨h₂', declared'⟩ := readRest_eq_ok_iff.mpr readAs'
    obtain ⟨d', listed', s'⟩ := ih s₂ before
    exact ⟨d', .more found' (s.location_eq ▸ declared') listed', s'⟩

end ImportDecl

theorem Preamble.read_grafts (s : g.At c c') : g.Passes (read c) (read c') := by
  intro v d h returned before
  obtain ⟨c₁, package, imports⟩ := Preamble.read_eq_ok_iff.mp ⟨h, returned⟩
  have later := imports.size_le
  obtain ⟨c₁', package', s₁⟩ := package.grafts s (by omega)
  obtain ⟨d', imports', s₂⟩ := imports.grafts s₁ before
  obtain ⟨h', returned'⟩ := Preamble.read_eq_ok_iff.mpr ⟨c₁', package', imports'⟩
  exact ⟨d', h', returned', s₂⟩

end TestDouble
