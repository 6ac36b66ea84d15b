import TestDouble.Proofs.Nesting

/-!
# Exchanging what stands between braces

The body of a method, constructor or initializer, and all of a type known by name only from its brace
on, can be exchanged for another one: the readers around it stop before the brace, and go on behind
the brace that closes it. So a reader that succeeds succeeds after the exchange too, and what it
returns differs in the exchanged part and in places only.
-/

namespace TestDouble

/-! ### Enclosures -/

/-- What is read from brace to brace without being analysed: a body, or the inside of a type known by
name only. -/
inductive Enclosure where
  | body (block : Block)
  | nominal (decl : NominalDecl)

/-- An enclosure without places, its texts seen through a function. -/
def Enclosure.through (text : String → String) : Enclosure → Enclosure
  | .body block => .body (block.through text)
  | .nominal decl => .nominal (decl.through text)

mutual

/-- The enclosures of a declaration, in the order of the source. -/
def TypeDecl.enclosures : TypeDecl → List Enclosure
  | .classDecl ⟨_, _, _, _, _, _, body, _⟩ => BodyMember.allEnclosures body
  | .interfaceDecl ⟨_, _, _, _, _, body, _⟩ => BodyMember.allEnclosures body
  | .nominal decl => [.nominal decl]

def BodyMember.enclosures : BodyMember → List Enclosure
  | .field _ => []
  | .method m => m.body.toList.map .body
  | .constructor c => [.body c.body]
  | .initializer i => [.body i.body]
  | .type decl => decl.enclosures

def BodyMember.allEnclosures : List BodyMember → List Enclosure
  | [] => []
  | part :: rest => part.enclosures ++ BodyMember.allEnclosures rest

end

/-- The enclosures of a unit, in the order of the source. -/
def CompilationUnit.enclosures (unit : CompilationUnit) : List Enclosure :=
  unit.types.flatMap TypeDecl.enclosures

theorem BodyMember.allEnclosures_eq_flatMap (parts : List BodyMember) :
    allEnclosures parts = parts.flatMap enclosures := by
  induction parts with
  | nil => rfl
  | cons part rest ih => rw [allEnclosures, ih, List.flatMap_cons]

theorem BodyMember.enclosures_inInterface (part : BodyMember) :
    part.inInterface.enclosures = part.enclosures := by
  cases part <;> simp [inInterface, enclosures]

mutual

/-- Enclosures are seen through a view as they are seen on their own. -/
theorem TypeDecl.enclosures_through (text : String → String) : (decl : TypeDecl) →
    (decl.through (.full text)).enclosures = decl.enclosures.map (Enclosure.through text)
  | .classDecl ⟨_, _, _, _, _, _, body, _⟩ => by
    rw [TypeDecl.through, ClassDecl.through, TypeDecl.enclosures, TypeDecl.enclosures]
    exact BodyMember.allEnclosures_through text body
  | .interfaceDecl ⟨_, _, _, _, _, body, _⟩ => by
    rw [TypeDecl.through, InterfaceDecl.through, TypeDecl.enclosures, TypeDecl.enclosures]
    exact BodyMember.allEnclosures_through text body
  | .nominal decl => by
    rw [TypeDecl.through, TypeDecl.enclosures, TypeDecl.enclosures]
    rfl

theorem BodyMember.enclosures_through (text : String → String) : (part : BodyMember) →
    (part.through (.full text)).enclosures = part.enclosures.map (Enclosure.through text)
  | .field f => by simp [BodyMember.through, BodyMember.enclosures]
  | .method m => by
    rw [BodyMember.through, BodyMember.enclosures, BodyMember.enclosures, Method.through]
    cases m.body <;> rfl
  | .constructor c => by
    rw [BodyMember.through, BodyMember.enclosures, BodyMember.enclosures]
    rfl
  | .initializer i => by
    rw [BodyMember.through, BodyMember.enclosures, BodyMember.enclosures]
    rfl
  | .type decl => by
    rw [BodyMember.through, BodyMember.enclosures, BodyMember.enclosures]
    exact decl.enclosures_through text

theorem BodyMember.allEnclosures_through (text : String → String) : (parts : List BodyMember) →
    BodyMember.allEnclosures (BodyMember.allThrough (.full text) parts) =
      (BodyMember.allEnclosures parts).map (Enclosure.through text)
  | [] => by rw [BodyMember.allThrough, BodyMember.allEnclosures, List.map_nil]
  | part :: rest => by
    rw [BodyMember.allThrough, BodyMember.allEnclosures, BodyMember.allEnclosures, List.map_append,
      BodyMember.enclosures_through, BodyMember.allEnclosures_through]

end

namespace Enclosure

/-- The second cursor stands behind the enclosure that is read from the brace at the first one. -/
def Encloses (c d : Cursor) : Enclosure → Prop
  | .body block => ∃ h, Block.read c = .ok ⟨block, d, h⟩
  | .nominal decl => c.nextKind = some .leftBrace ∧ decl.span.stop = d.lastStop ∧
      ∃ n within, NominalDecl.bodyLength? c.ahead.tail 0 0 = some n ∧ d = c.skip (n + 1) within

/-- Enclosures that can stand for each other: both are bodies, or they belong to declarations that
differ in their places only. -/
inductive Like : Enclosure → Enclosure → Prop where
  | body (block block' : Block) : Like (.body block) (.body block')
  | nominal {decl decl' : NominalDecl} :
      decl.through id = decl'.through id → Like (.nominal decl) (.nominal decl')

end Enclosure

/-! ### Exchanges -/

/-- The second cursor stands behind the first, or where it stands. -/
def Cursor.Leads (c d : Cursor) : Prop := ∃ taken, c.Passes taken d

theorem Cursor.Leads.refl (c : Cursor) : c.Leads c := ⟨[], .refl c⟩

theorem Cursor.Leads.trans {a b c : Cursor} (first : a.Leads b) (second : b.Leads c) : a.Leads c := by
  obtain ⟨_, passes₁⟩ := first
  obtain ⟨_, passes₂⟩ := second
  exact ⟨_, passes₁.trans passes₂⟩

theorem Cursor.Leads.size_le {a b : Cursor} (leads : a.Leads b) : b.size ≤ a.size := by
  obtain ⟨_, passes⟩ := leads
  rw [passes.size_eq]
  exact Nat.le_add_left ..

theorem Cursor.Tells.leads {A : Prop} {a b : Cursor} (tells : a.Tells IsWord b A) : a.Leads b :=
  tells.passes

/-- What a reader returns, as a relation between two cursors. -/
def Returns {α : Type} (read : (c : Cursor) → Reading α c) (c : Cursor) (v : α) (d : Cursor) : Prop :=
  ∃ h, read c = .ok ⟨v, d, h⟩

/-- Reading `v` from `c` up to `d` finds the enclosure `site`, with `pre` before it and `post` behind
it. When another one stands in its place, and the same tokens as before stand around it, reading gives
a value that is shown alike, with the other enclosure in place of the first. -/
def Exchanges {α γ : Type} (run : Cursor → α → Cursor → Prop) (sites : α → List Enclosure)
    (shown : α → γ) (c : Cursor) (v : α) (d : Cursor) (pre : List Enclosure) (site : Enclosure)
    (post : List Enclosure) : Prop :=
  ∃ d₀ e, c.Leads d₀ ∧ site.Encloses d₀ e ∧ e.Leads d ∧
    ∀ ⦃g : Graft⦄ ⦃c' e' : Cursor⦄ ⦃site' : Enclosure⦄, d₀.ahead = g.bar :: g.old → g.At c c' →
      site'.Encloses ⟨d₀.last, g.bar :: g.new⟩ e' → site'.Like site → e.Matches id e' →
      ∃ v' d', run c' v' d' ∧ shown v' = shown v ∧
        (sites v').map (.through id) =
          pre.map (.through id) ++ site'.through id :: post.map (.through id) ∧
        d.Matches id d'

section

variable {α β γ δ : Type} {run : Cursor → α → Cursor → Prop} {sites : α → List Enclosure}
  {shown : α → γ} {run₁ : Cursor → β → Cursor → Prop} {sites₁ : β → List Enclosure} {shown₁ : β → δ}
  {c c₁ d : Cursor} {v : α} {w : β} {pre post : List Enclosure} {site : Enclosure}

/-- An exchange behind what is read first. -/
theorem Exchanges.after (front : List Enclosure)
    (inner : Exchanges run₁ sites₁ shown₁ c₁ w d pre site post) (leads : c.Leads c₁)
    (build : ∀ ⦃g : Graft⦄ ⦃c'⦄, g.At c c' → g.behind < c₁.size → ∃ c₁', g.At c₁ c₁' ∧
      ∀ ⦃w' d'⦄, run₁ c₁' w' d' → shown₁ w' = shown₁ w →
        ∃ v', run c' v' d' ∧ shown v' = shown v ∧ sites v' = front ++ sites₁ w') :
    Exchanges run sites shown c v d (front ++ pre) site post := by
  obtain ⟨d₀, e, leads₀, encloses, leadsOn, exchange⟩ := inner
  refine ⟨d₀, e, leads.trans leads₀, encloses, leadsOn, ?_⟩
  intro g c' e' site' ahead s encloses' like same
  have before : g.behind < c₁.size := by
    have size := leads₀.size_le
    rw [Cursor.size, ahead] at size
    exact Nat.lt_of_succ_le size
  obtain ⟨c₁', s₁, rebuild⟩ := build s before
  obtain ⟨w', d', ran, shownAlike, seen, m⟩ := exchange ahead s₁ encloses' like same
  obtain ⟨v', ran', shownAlike', found⟩ := rebuild ran shownAlike
  refine ⟨v', d', ran', shownAlike', ?_, m⟩
  rw [found, List.map_append, List.map_append, List.append_assoc, seen]

/-- An exchange before what is read later. -/
theorem Exchanges.followed {back : List Enclosure}
    (inner : Exchanges run₁ sites₁ shown₁ c w c₁ pre site post) (leads : c₁.Leads d)
    (build : ∀ ⦃g : Graft⦄ ⦃c' w' c₁'⦄, g.At c c' → run₁ c' w' c₁' → shown₁ w' = shown₁ w →
      c₁.Matches id c₁' → ∃ v' d', run c' v' d' ∧ shown v' = shown v ∧
        (sites v').map (Enclosure.through id) =
          (sites₁ w').map (Enclosure.through id) ++ back.map (Enclosure.through id) ∧
        d.Matches id d') :
    Exchanges run sites shown c v d pre site (post ++ back) := by
  obtain ⟨d₀, e, leads₀, encloses, leadsOn, exchange⟩ := inner
  refine ⟨d₀, e, leads₀, encloses, leadsOn.trans leads, ?_⟩
  intro g c' e' site' ahead s encloses' like same
  obtain ⟨w', c₁', ran, shownAlike, seen, m⟩ := exchange ahead s encloses' like same
  obtain ⟨v', d', ran', shownAlike', seen', m'⟩ := build s ran shownAlike m
  refine ⟨v', d', ran', shownAlike', ?_, m'⟩
  rw [seen', seen, List.map_append, List.append_assoc, List.cons_append]

end

/-- The only item of a list. -/
private theorem split_one {α : Type} {a b : α} {pre post : List α} (split : [b] = pre ++ a :: post) :
    pre = [] ∧ a = b ∧ post = [] := by
  cases pre with
  | nil => simpa [eq_comm] using split
  | cons => simp at split

/-- An item of two lists is in the first or in the second. -/
private theorem split_append {α : Type} {as bs pre post : List α} {a : α}
    (split : as ++ bs = pre ++ a :: post) :
    (∃ mid, as = pre ++ a :: mid ∧ post = mid ++ bs) ∨ ∃ mid, pre = as ++ mid ∧ bs = mid ++ a :: post := by
  rcases List.append_eq_append_iff.mp split with ⟨mid, rfl, rfl⟩ | ⟨mid, rfl, later⟩
  · exact .inr ⟨mid, rfl, rfl⟩
  · cases mid with
    | nil => exact .inr ⟨[], by simp, later.symm⟩
    | cons b mid =>
      obtain ⟨rfl, rfl⟩ := List.cons.inj later
      exact .inl ⟨mid, rfl, rfl⟩

/-! ### Bodies -/

theorem Graft.At.eq_new {g : Graft} {c c' : Cursor} (s : g.At c c') (ahead : c.ahead = g.bar :: g.old) :
    c' = ⟨c.last, g.bar :: g.new⟩ := by
  obtain ⟨last', ahead'⟩ := c'
  obtain ⟨sameLast, kept, split, split'⟩ := s
  -- No token is kept before the brace.
  obtain rfl : kept = [] := by
    have length := congrArg List.length (ahead.symm.trans split)
    simp only [List.length_append, List.length_cons] at length
    exact List.length_eq_zero_iff.mp (by omega)
  simp only at sameLast split'
  rw [sameLast, split', List.nil_append]

theorem Block.exchanges {c d : Cursor} {block : Block} (read : Returns Block.read c block d) :
    Exchanges (Returns Block.read) (fun b => [.body b]) (fun _ => ()) c block d [] (.body block) [] := by
  refine ⟨c, d, .refl c, read, .refl d, ?_⟩
  intro g c' e' site' ahead s encloses like same
  obtain rfl := s.eq_new ahead
  cases like with
  | body block' => exact ⟨block', e', encloses, rfl, rfl, same⟩

section

variable {q : Qualifiers} {ps : List TypeParameter} {start : Location} {c d : Cursor}
  {pre post : List Enclosure} {site : Enclosure}

theorem Constructor.exchanges {decl : Constructor} (read : Returns (readRest q ps start) c decl d) :
    Exchanges (Returns (readRest q ps start)) (fun k => [.body k.body])
      (Constructor.through (.outside id)) c decl d [] (.body decl.body) [] := by
  obtain ⟨h, returned⟩ := read
  obtain ⟨⟨name, c₁, h₁⟩, named, returned⟩ := bind_eq_ok returned
  obtain ⟨⟨parameters, c₂, h₂⟩, listed, returned⟩ := bind_eq_ok returned
  obtain ⟨⟨exceptions, c₃, h₃⟩, thrown, returned⟩ := bind_eq_ok returned
  obtain ⟨⟨body, c₄, h₄⟩, bodyRead, finished⟩ := bind_eq_ok returned
  cases finished
  have leads : c.Leads c₃ :=
    ((Cursor.identifier_tells named).trans
      ((Parameter.readAll_tells (fun _ word => word) (mapError_eq_ok listed)).trans
        (TypeRef.readClause_tells (fun _ word => word) thrown))).leads
  refine (Block.exchanges ⟨h₄, bodyRead⟩).after [] leads ?_
  intro g c' s before
  obtain ⟨c₁', h₁', named', s₁⟩ := s.identifier named (by omega)
  obtain ⟨c₂', h₂', listed', s₂⟩ := (Parameter.readAll_grafts s₁).mapError _ listed (by omega)
  obtain ⟨c₃', h₃', thrown', s₃⟩ := TypeRef.readClause_grafts s₂ _ thrown before
  refine ⟨c₃', s₃, fun body' d' read _ => ?_⟩
  obtain ⟨h₄', bodyRead'⟩ := read
  exact ⟨_, ⟨by omega, bind_of_ok named' (bind_of_ok listed' (bind_of_ok thrown'
    (bind_of_ok bodyRead' rfl)))⟩, rfl, rfl⟩

theorem Method.exchanges {type : TypeRef} {name : String} {decl : Method}
    (read : Returns (readRest q ps type name start) c decl d)
    (split : decl.body.toList.map .body = pre ++ site :: post) :
    Exchanges (Returns (readRest q ps type name start)) (fun m => m.body.toList.map .body)
      (Method.through (.outside id)) c decl d pre site post := by
  obtain ⟨h, returned⟩ := read
  obtain ⟨⟨parameters, c₁, h₁⟩, listed, returned⟩ := bind_eq_ok returned
  have counted : c₁.dimensions = ⟨_, _, c₁.dimensions.notLonger⟩ := rfl
  obtain ⟨⟨exceptions, c₃, h₃⟩, thrown, returned⟩ := bind_eq_ok returned
  obtain ⟨⟨body, c₄, h₄⟩, bodyRead, finished⟩ := bind_eq_ok returned
  cases finished
  have size₂ := c₁.dimensions.notLonger
  have size₃ : c₃.size ≤ c₁.dimensions.cursor.size := h₃
  have leads : c.Leads c₃ :=
    ((Parameter.readAll_tells (fun _ word => word) listed).trans
      ((Cursor.dimensions_tells c₁).trans
        (TypeRef.readClause_tells (fun _ word => word) thrown))).leads
  -- Without a body there is no enclosure.
  split at bodyRead
  next opens =>
    obtain ⟨⟨block, c₅, h₅⟩, blockRead, finished⟩ := bind_eq_ok bodyRead
    cases finished
    obtain ⟨rfl, rfl, rfl⟩ := split_one split
    refine (Block.exchanges ⟨h₅, blockRead⟩).after [] leads ?_
    intro g c' s before
    obtain ⟨c₁', h₁', listed', s₁⟩ := Parameter.readAll_grafts s listed (by omega)
    obtain ⟨c₂', h₂', counted', s₂⟩ := s₁.dimensions counted (by omega)
    obtain ⟨c₃', h₃', thrown', s₃⟩ := TypeRef.readClause_grafts s₂ _ thrown before
    refine ⟨c₃', s₃, fun body' d' read _ => ?_⟩
    obtain ⟨h₄', bodyRead'⟩ := read
    refine ⟨⟨q.modifiers, q.annotations, ps, type.addDimensions c₁.dimensions.value, name, parameters,
      exceptions, some body', ⟨start, d'.lastStop⟩⟩, ⟨by omega, bind_of_ok listed' ?_⟩, rfl, rfl⟩
    dsimp only
    rw [counted']
    refine bind_of_ok thrown' (bind_of_ok (a := ⟨some body', d', h₄'⟩) ?_ rfl)
    rw [s₃.sees_one, if_pos opens]
    exact bind_of_ok bodyRead' rfl
  next =>
    obtain ⟨⟨_, c₅, h₅⟩, -, finished⟩ := bind_eq_ok bodyRead
    cases finished
    simp at split

theorem Cursor.skip_skip {c : Cursor} {n m : Nat} (first : n ≤ c.size)
    (second : m ≤ (c.skip n first).size) (both : n + m ≤ c.size) :
    (c.skip n first).skip m second = c.skip (n + m) both := by
  simp only [skip, List.take_add, List.getLast?_append, List.drop_drop]
  cases ((c.ahead.drop n).take m).getLast? <;> rfl

namespace NominalDecl

/-- A body is passed in two steps: up to the brace that opens it, and from there to the one that
closes it. -/
theorem passBody_eq_ok_iff_opened {c d : Cursor} :
    (∃ h, passBody c = .ok ⟨(), d, h⟩) ↔ ∃ n inside, headerLength? c.ahead 0 0 = some n ∧
      (c.skip n inside).nextKind = some .leftBrace ∧
      ∃ m within, bodyLength? (c.skip n inside).ahead.tail 0 0 = some m ∧
        d = (c.skip n inside).skip (m + 1) within := by
  have behind (n : Nat) (inside : n ≤ c.size) :
      (c.skip n inside).ahead.tail = c.ahead.drop (n + 1) := List.tail_drop
  rw [passBody_eq_ok_iff]
  constructor
  · rintro ⟨n, m, header, body, all, rfl⟩
    obtain ⟨front, brace, rest, ahead, counted, opens⟩ := headerLength?_eq_some header
    have inside : n ≤ c.size := by omega
    have size := Cursor.size_skip inside
    refine ⟨n, inside, header, ?_, m, by omega, ?_, ?_⟩
    · rw [Cursor.nextKind, Cursor.skip, ahead, counted, Nat.zero_add, List.drop_left,
        List.head?_cons, Option.map_some, opens]
    · rwa [behind]
    · simp only [Cursor.skip_skip inside _ (by omega : n + (m + 1) ≤ c.size), Nat.add_assoc,
        Nat.add_comm 1]
  · rintro ⟨n, inside, header, -, m, within, body, rfl⟩
    rw [behind] at body
    have all := bodyLength?_le body
    refine ⟨n, m, header, body, all, ?_⟩
    simp only [Cursor.skip_skip inside within (by omega : n + (m + 1) ≤ c.size), Nat.add_assoc,
      Nat.add_comm 1]

theorem exchanges {kind : NominalKind} {decl : NominalDecl}
    (read : Returns (readRest kind q start) c decl d) :
    Exchanges (Returns (readRest kind q start)) (fun decl => [.nominal decl])
      (NominalDecl.through id) c decl d [] (.nominal decl) [] := by
  obtain ⟨h, returned⟩ := read
  obtain ⟨⟨name, c₁, h₁⟩, named, returned⟩ := bind_eq_ok returned
  obtain ⟨⟨_, c₂, h₂⟩, passed, finished⟩ := bind_eq_ok returned
  cases finished
  obtain ⟨n, inside, header, opens, m, within, body, rfl⟩ :=
    passBody_eq_ok_iff_opened.mp ⟨h₂, passed⟩
  have leads : c.Leads (c₁.skip n inside) :=
    (Cursor.identifier_tells named).leads.trans ⟨_, .skip c₁ inside⟩
  refine ⟨c₁.skip n inside, _, leads, ⟨opens, rfl, m, within, body, rfl⟩, .refl _, ?_⟩
  intro g c' e' site' ahead s encloses like same
  have before : g.behind < (c₁.skip n inside).size := by
    rw [Cursor.size, ahead]
    exact Nat.lt_succ_self _
  have size := Cursor.size_skip inside
  obtain ⟨c₁', h₁', named', s₁⟩ := s.identifier named (by omega)
  -- The header stands before the exchanged brace.
  have header' : headerLength? c₁'.ahead 0 0 = some n := by
    obtain ⟨kept, split, split'⟩ := s₁.ahead
    have early := Graft.le_length split (by rwa [size] at before)
    rw [split] at header
    rw [split']
    exact headerLength?_graft kept header (by omega)
  have inside' : n ≤ c₁'.size := by
    obtain ⟨front, brace, rest, split', counted, -⟩ := headerLength?_eq_some header'
    rw [Cursor.size, split', List.length_append]
    omega
  have opened' := (s₁.skip inside inside' before).eq_new ahead
  rw [← opened'] at encloses
  cases like with
  | @nominal decl' _ alike =>
    obtain ⟨opens', -, k, within', body', rfl⟩ := encloses
    obtain ⟨h₂', passed'⟩ := passBody_eq_ok_iff_opened.mpr
      ⟨n, inside', header', opens', k, within', body', rfl⟩
    refine ⟨⟨kind, q.modifiers, q.annotations, name, ⟨start, Cursor.lastStop _⟩⟩, _,
      ⟨by omega, bind_of_ok named' (bind_of_ok passed' rfl)⟩, rfl, ?_, same⟩
    exact congrArg (fun decl => [Enclosure.nominal decl]) alike.symm

end NominalDecl

end

/-! ### Members and types -/

section

variable {c d : Cursor} {pre post : List Enclosure} {site : Enclosure}

theorem Cursor.HeadsClass.leads {name : String} {ps : List TypeParameter} {super : Option TypeRef}
    {is : List TypeRef} (heads : c.HeadsClass name ps super is d) : c.Leads d :=
  (heads.tells fun _ word => word).leads

theorem Cursor.HeadsInterface.leads {name : String} {ps : List TypeParameter} {is : List TypeRef}
    (heads : c.HeadsInterface name ps is d) : c.Leads d :=
  (heads.tells fun _ word => word).leads

theorem Cursor.Qualifies.leads {q : Qualifiers} (qualifies : c.Qualifies q d) : c.Leads d :=
  qualifies.tells.leads

theorem Cursor.Names.leads {q : Qualifiers} {ps : List TypeParameter} {type : TypeRef} {name : String}
    (names : c.Names q ps type name d) : c.Leads d :=
  (names.tells fun _ word => word).leads

theorem BodyMember.Listed.leads {parts : List BodyMember} (listed : BodyMember.Listed c parts d) :
    c.Leads d := by
  induction listed with
  | closed found => exact (Cursor.accept?_tells found).leads
  | semicolon _ found _ ih => exact (Cursor.accept?_tells found).leads.trans ih
  | more _ _ read _ ih => exact (BodyMember.read_tells (fun _ word => word) read).leads.trans ih

end

/-- A success is echoed by a success. -/
theorem Echo.of_ok {α β : Type} {R : α → β → Prop} {a : α} {y : Except ParseError β}
    (echo : Echo R (.ok a) y) : ∃ b, y = .ok b ∧ R a b := by
  cases echo with
  | ok alike => exact ⟨_, rfl, alike⟩

/-- On matching tokens the same members are listed, whatever is seen of them. -/
theorem BodyMember.Listed.echo {c c' d : Cursor} {parts : List BodyMember}
    (listed : BodyMember.Listed c parts d) (m : c.Matches id c') :
    ∃ parts' d', BodyMember.Listed c' parts' d' ∧ d.Matches id d' ∧
      ∀ v : View, v.Coarse → v.text = id →
        parts'.map (BodyMember.through v) = parts.map (BodyMember.through v) := by
  -- The members are read behind some token.
  have within (c : Cursor) : c.size < Cursor.size ⟨none, default :: c.ahead⟩ := by
    simp [Cursor.size]
  obtain ⟨h, returned⟩ := listed.readAll (within c) []
  have echo (v : View) (coarse : v.Coarse) (same : v.text = id) :
      Echo (Consumed.Echoes id (List.map (BodyMember.through v)))
        (BodyMember.readAll _ c (within c) []) (BodyMember.readAll _ c' (within c') []) := by
    obtain ⟨text, body⟩ := v
    obtain rfl : text = id := same
    exact BodyMember.readAll_echo coarse m rfl
  rw [returned] at echo
  obtain ⟨⟨parts', d', h'⟩, returned', echoes⟩ := (echo (.full id) (View.full_coarse id) rfl).of_ok
  obtain ⟨_, rfl, listed'⟩ := BodyMember.listed_of_readAll returned'
  refine ⟨_, d', listed', echoes.cursor, fun v coarse same => ?_⟩
  have echo := echo v coarse same
  rw [returned'] at echo
  obtain ⟨_, again, echoes⟩ := echo.of_ok
  obtain rfl := Except.ok.inj again
  exact echoes.value.symm

theorem BodyMember.allEnclosures_append (parts more : List BodyMember) :
    allEnclosures (parts ++ more) = allEnclosures parts ++ allEnclosures more := by
  simp only [allEnclosures_eq_flatMap, List.flatMap_append]

theorem BodyMember.allEnclosures_one (part : BodyMember) : allEnclosures [part] = part.enclosures := by
  rw [allEnclosures, allEnclosures, List.append_nil]

/-- An exchange within a member that is the only one to be read. -/
theorem Exchanges.member {β δ : Type} {run : Cursor → β → Cursor → Prop} {sites : β → List Enclosure}
    {shown : β → δ} {c c₁ d : Cursor} {w : β} {part : BodyMember} {pre post : List Enclosure}
    {site : Enclosure} (inner : Exchanges run sites shown c₁ w d pre site post) (leads : c.Leads c₁)
    (build : ∀ ⦃g : Graft⦄ ⦃c'⦄, g.At c c' → g.behind < c₁.size → ∃ c₁', g.At c₁ c₁' ∧
      ∀ ⦃w' d'⦄, run c₁' w' d' → shown w' = shown w → ∃ part', BodyMember.ReadAs c' [part'] d' ∧
        part'.through (.outside id) = part.through (.outside id) ∧ part'.enclosures = sites w') :
    Exchanges (Returns BodyMember.read) BodyMember.allEnclosures
      (List.map (BodyMember.through (.outside id))) c [part] d pre site post := by
  refine inner.after [] leads fun g c' s before => ?_
  obtain ⟨c₁', s₁, rebuild⟩ := build s before
  refine ⟨c₁', s₁, fun w' d' ran alike => ?_⟩
  obtain ⟨part', readAs, shownAlike, found⟩ := rebuild ran alike
  refine ⟨[part'], readAs.read, congrArg ([·]) shownAlike, ?_⟩
  rw [BodyMember.allEnclosures_one, found, List.nil_append]

theorem BodyMember.allEnclosures_eq_of_through {parts parts' : List BodyMember}
    (same : parts'.map (through (.full id)) = parts.map (through (.full id))) :
    (allEnclosures parts').map (Enclosure.through id) = (allEnclosures parts).map (Enclosure.through id) := by
  rw [← allEnclosures_through, ← allEnclosures_through, allThrough_eq_map, allThrough_eq_map, same]

mutual

theorem TypeDecl.readRest_exchanges {q : Qualifiers} {start : Location} {c d : Cursor} {decl : TypeDecl}
    (read : Returns (TypeDecl.readRest q start) c decl d) {pre post : List Enclosure} {site : Enclosure}
    (split : decl.enclosures = pre ++ site :: post) :
    Exchanges (Returns (TypeDecl.readRest q start)) TypeDecl.enclosures (TypeDecl.through (.outside id))
      c decl d pre site post := by
  obtain ⟨h, returned⟩ := read
  cases TypeDecl.readAs_of_readRest returned with
  | classDecl heads bodyRead =>
    have size := heads.size_lt
    rw [TypeDecl.enclosures] at split
    refine (BodyMember.readBody_exchanges ⟨_, bodyRead⟩ split).after [] heads.leads ?_
    intro g c' s before
    obtain ⟨c₆', heads', s₆⟩ := heads.graft s before
    refine ⟨c₆', s₆, fun body' d' read' alike => ?_⟩
    obtain ⟨h', bodyRead'⟩ := read'
    refine ⟨_, (TypeDecl.ReadAs.classDecl heads' bodyRead').read, ?_, ?_⟩
    · simp only [TypeDecl.through, ClassDecl.through, BodyMember.allThrough_eq_map, alike]
    · rw [TypeDecl.enclosures, List.nil_append]
  | interfaceDecl heads bodyRead =>
    have size := heads.size_lt
    -- What an interface adds to its members is no enclosure.
    have asWritten (parts : List BodyMember) :
        BodyMember.allEnclosures (parts.map BodyMember.inInterface) = BodyMember.allEnclosures parts := by
      simp only [BodyMember.allEnclosures_eq_flatMap, List.flatMap_map,
        BodyMember.enclosures_inInterface]
    rw [TypeDecl.enclosures, asWritten] at split
    refine (BodyMember.readBody_exchanges ⟨_, bodyRead⟩ split).after [] heads.leads ?_
    intro g c' s before
    obtain ⟨c₅', heads', s₅⟩ := heads.graft s before
    refine ⟨c₅', s₅, fun body' d' read' alike => ?_⟩
    obtain ⟨h', bodyRead'⟩ := read'
    refine ⟨_, (TypeDecl.ReadAs.interfaceDecl heads' bodyRead').read, ?_, ?_⟩
    · have members := congrArg (List.map BodyMember.inInterface) alike
      simp only [List.map_map, Function.comp_def, ← BodyMember.through_inInterface] at members
      simp only [TypeDecl.through, InterfaceDecl.through, BodyMember.allThrough_eq_map, List.map_map,
        Function.comp_def, members]
    · rw [TypeDecl.enclosures, asWritten, List.nil_append]
  | @nominal kind decl c₁ _ h₁ h₂ noClass noInterface known read =>
    rw [TypeDecl.enclosures] at split
    obtain ⟨rfl, rfl, rfl⟩ := split_one split
    refine (NominalDecl.exchanges ⟨h₂, read⟩).after [] (NominalDecl.kind?_tells known).leads ?_
    intro g c' s before
    obtain ⟨none, -⟩ | ⟨k, c₂, h₂, some, later⟩ := NominalDecl.kind?_graft s
    · simp [none] at known
    obtain ⟨rfl, rfl⟩ := Consumed.mk.inj (Option.some.inj (some.symm.trans known))
    obtain ⟨c₁', h₁', known', s₁⟩ := later before
    refine ⟨c₁', s₁, fun decl' d' read' alike => ?_⟩
    obtain ⟨h', read'⟩ := read'
    refine ⟨_, (TypeDecl.ReadAs.nominal (s.accept?_none noClass) (s.accept?_none noInterface) known'
      read').read, ?_, ?_⟩
    · rw [TypeDecl.through, TypeDecl.through]
      exact congrArg TypeDecl.nominal alike
    · rw [TypeDecl.enclosures, List.nil_append]
termination_by 4 * c.size

theorem BodyMember.readBody_exchanges {c d : Cursor} {parts : List BodyMember}
    (read : Returns BodyMember.readBody c parts d) {pre post : List Enclosure} {site : Enclosure}
    (split : BodyMember.allEnclosures parts = pre ++ site :: post) :
    Exchanges (Returns BodyMember.readBody) BodyMember.allEnclosures
      (List.map (BodyMember.through (.outside id))) c parts d pre site post := by
  obtain ⟨t, c₁, h₁, opened, listed⟩ := BodyMember.readBody_eq_ok_iff.mp read
  refine (BodyMember.Listed.exchanges listed split).after [] (Cursor.expect_tells opened).leads ?_
  intro g c' s before
  obtain ⟨c₁', h₁', opened', s₁⟩ := s.expect _ _ opened before
  refine ⟨c₁', s₁, fun parts' d' listed' alike => ⟨parts', ?_, alike, rfl⟩⟩
  exact BodyMember.readBody_eq_ok_iff.mpr ⟨t, c₁', h₁', opened', listed'⟩
termination_by 4 * c.size + 3

theorem BodyMember.Listed.exchanges {c d : Cursor} {parts : List BodyMember}
    (listed : BodyMember.Listed c parts d) {pre post : List Enclosure} {site : Enclosure}
    (split : BodyMember.allEnclosures parts = pre ++ site :: post) :
    Exchanges BodyMember.Listed BodyMember.allEnclosures
      (List.map (BodyMember.through (.outside id))) c parts d pre site post := by
  cases listed with
  | closed closing =>
    rw [BodyMember.allEnclosures] at split
    simp at split
  | semicolon notClosed ended rest =>
    refine (BodyMember.Listed.exchanges rest split).after [] (Cursor.accept?_tells ended).leads ?_
    intro g c' s before
    obtain ⟨c₁', h₁', ended', s₁⟩ := s.accept?_some ended before
    exact ⟨c₁', s₁, fun parts' d' rest' alike =>
      ⟨parts', .semicolon (s.accept?_none notClosed) ended' rest', alike, rfl⟩⟩
  | @more _ c₁ _ h₁ found parts notClosed notEnded read rest =>
    rw [BodyMember.allEnclosures_append] at split
    rcases split_append split with ⟨mid, inFound, rfl⟩ | ⟨mid, rfl, inParts⟩
    · -- The exchanged body belongs to the member read first; the others are read as before.
      refine (BodyMember.read_exchanges ⟨h₁, read⟩ inFound).followed rest.leads ?_
      intro g c' found' c₁' s read' alike m
      obtain ⟨h₁', read'⟩ := read'
      obtain ⟨parts', d', rest', m', same⟩ := rest.echo m
      refine ⟨found' ++ parts', d',
        .more (s.accept?_none notClosed) (s.accept?_none notEnded) read' rest', ?_, ?_, m'⟩
      · rw [List.map_append, List.map_append, alike,
          same (.outside id) (View.outside_coarse id) rfl]
      · rw [BodyMember.allEnclosures_append, List.map_append,
          BodyMember.allEnclosures_eq_of_through (same (.full id) (View.full_coarse id) rfl)]
    · refine (BodyMember.Listed.exchanges rest inParts).after (BodyMember.allEnclosures found)
        (BodyMember.read_tells (fun _ word => word) read).leads ?_
      intro g c' s before
      obtain ⟨c₁', h₁', read', s₁⟩ := BodyMember.read_grafts s read before
      refine ⟨c₁', s₁, fun parts' d' rest' alike => ⟨found ++ parts',
        .more (s.accept?_none notClosed) (s.accept?_none notEnded) read' rest', ?_, ?_⟩⟩
      · rw [List.map_append, List.map_append, alike]
      · exact BodyMember.allEnclosures_append found parts'
termination_by 4 * c.size + 2

theorem BodyMember.read_exchanges {c d : Cursor} {parts : List BodyMember}
    (read : Returns BodyMember.read c parts d) {pre post : List Enclosure} {site : Enclosure}
    (split : BodyMember.allEnclosures parts = pre ++ site :: post) :
    Exchanges (Returns BodyMember.read) BodyMember.allEnclosures
      (List.map (BodyMember.through (.outside id))) c parts d pre site post := by
  obtain ⟨h, returned⟩ := read
  cases BodyMember.readAs_of_read returned with
  | initializer opens read =>
    rw [BodyMember.allEnclosures_one, BodyMember.enclosures] at split
    obtain ⟨rfl, rfl, rfl⟩ := split_one split
    refine (Block.exchanges ⟨_, read⟩).member (.refl c) ?_
    intro g c' s before
    refine ⟨c', s, fun body' d' read' _ => ?_⟩
    obtain ⟨h', read'⟩ := read'
    exact ⟨_, .initializer (by rw [s.sees_one, opens]) read', rfl, rfl⟩
  | static notOpen isStatic expected read =>
    rw [BodyMember.allEnclosures_one, BodyMember.enclosures] at split
    obtain ⟨rfl, rfl, rfl⟩ := split_one split
    refine (Block.exchanges ⟨_, read⟩).member (Cursor.expect_tells expected).leads ?_
    intro g c' s before
    obtain ⟨c₁', h₁', expected', s₁⟩ := s.expect _ _ expected before
    refine ⟨c₁', s₁, fun body' d' read' _ => ?_⟩
    obtain ⟨h', read'⟩ := read'
    have isStatic' : c'.sees [.modifier .staticMember, .leftBrace] = true := by
      rw [s.sees_two (.modifier .staticMember) _ rfl, isStatic]
    exact ⟨_, .static (by rw [s.sees_one, notOpen]) isStatic' expected' read', rfl, rfl⟩
  | type qualifies isType read =>
    obtain ⟨h₁, qualified⟩ := qualifies.qualified
    rw [BodyMember.allEnclosures_one, BodyMember.enclosures] at split
    refine (TypeDecl.readRest_exchanges ⟨_, read⟩ split).member qualifies.leads ?_
    intro g c' s before
    obtain ⟨c₁', qualifies', s₁⟩ := qualifies.graft s before
    refine ⟨c₁', s₁, fun decl' d' read' alike => ?_⟩
    obtain ⟨h', read'⟩ := read'
    rw [← s.location_eq] at read'
    have isType' : TypeDecl.comesNext c₁' = true := by rw [TypeDecl.comesNext_graft s₁, isType]
    exact ⟨_, .type qualifies' isType' read', congrArg BodyMember.type alike, rfl⟩
  | constructor qualifies notType listed isConstructor read =>
    rw [BodyMember.allEnclosures_one, BodyMember.enclosures] at split
    obtain ⟨rfl, rfl, rfl⟩ := split_one split
    have leads := qualifies.leads.trans (TypeParameter.readAll_tells (fun _ word => word) listed).leads
    refine (Constructor.exchanges ⟨_, read⟩).member leads ?_
    intro g c' s before
    obtain ⟨c₁', qualifies', s₁⟩ := qualifies.graft s (by omega)
    obtain ⟨c₂', h₂', listed', s₂⟩ := TypeParameter.readAll_grafts s₁ listed before
    refine ⟨c₂', s₂, fun decl' d' read' alike => ?_⟩
    obtain ⟨h', read'⟩ := read'
    rw [← s.location_eq] at read'
    have notType' : TypeDecl.comesNext c₁' = false := by rw [TypeDecl.comesNext_graft s₁, notType]
    have isConstructor' : c₂'.sees [.identifier, .leftParen] = true := by
      rw [s₂.sees_two .identifier _ rfl, isConstructor]
    exact ⟨_, .constructor qualifies' notType' listed' isConstructor' read',
      congrArg BodyMember.constructor alike, rfl⟩
  | method names isMethod read =>
    rw [BodyMember.allEnclosures_one, BodyMember.enclosures] at split
    refine (Method.exchanges ⟨_, read⟩ split).member names.leads ?_
    intro g c' s before
    obtain ⟨c₄', names', s₄⟩ := names.graft s before
    refine ⟨c₄', s₄, fun decl' d' read' alike => ?_⟩
    obtain ⟨h', read'⟩ := read'
    rw [← s.location_eq] at read'
    exact ⟨_, .method names' (by rw [s₄.sees_one, isMethod]) read', congrArg BodyMember.method alike,
      rfl⟩
  | fields names notMethod read =>
    -- Fields have no body.
    have member : site ∈ pre ++ site :: post := by simp
    rw [← split, BodyMember.allEnclosures_eq_flatMap, List.flatMap_map] at member
    simp [BodyMember.enclosures] at member
termination_by 4 * c.size + 1

end

theorem TypeDecl.read_exchanges {c d : Cursor} {decl : TypeDecl} (read : Returns TypeDecl.read c decl d)
    {pre post : List Enclosure} {site : Enclosure} (split : decl.enclosures = pre ++ site :: post) :
    Exchanges (Returns TypeDecl.read) enclosures (through (.outside id)) c decl d pre site post := by
  obtain ⟨h, returned⟩ := read
  obtain ⟨⟨q, c₁, h₁⟩, qualified, returned⟩ := bind_eq_ok returned
  obtain ⟨⟨decl, c₂, h₂⟩, read, finished⟩ := bind_eq_ok returned
  cases finished
  refine (readRest_exchanges ⟨h₂, read⟩ split).after [] (Qualifiers.read_tells qualified).leads ?_
  intro g c' s before
  obtain ⟨c₁', h₁', qualified', s₁⟩ := Qualifiers.read_grafts s qualified before
  refine ⟨c₁', s₁, fun decl' d' read' alike => ⟨decl', ?_, alike, rfl⟩⟩
  obtain ⟨h', read'⟩ := read'
  rw [← s.location_eq] at read'
  exact ⟨by omega, bind_of_ok qualified' (bind_of_ok read' rfl)⟩

/-! ### Units -/

namespace TypeDecl

theorem Listed.leads {c d : Cursor} {types : List TypeDecl} (listed : Listed c types d) : c.Leads d := by
  induction listed with
  | ended => exact .refl _
  | semicolon found _ ih => exact (Cursor.accept?_tells found).leads.trans ih
  | more _ read _ ih => exact (TypeDecl.read_tells (fun _ word => word) read).leads.trans ih

/-- On matching tokens the same types are listed, whatever is seen of them. -/
theorem Listed.echo {c c' d : Cursor} {types : List TypeDecl} (listed : Listed c types d)
    (m : c.Matches id c') :
    ∃ types' d', Listed c' types' d' ∧ d.Matches id d' ∧ ∀ v : View, v.Coarse → v.text = id →
      types'.map (through v) = types.map (through v) := by
  have echo (v : View) (coarse : v.Coarse) (same : v.text = id) :
      (TypeDecl.readAll c []).1.map (through v) = (TypeDecl.readAll c' []).1.map (through v) ∧
        Echo (Cursor.Matches id) (TypeDecl.readAll c []).2 (TypeDecl.readAll c' []).2 := by
    obtain ⟨text, body⟩ := v
    obtain rfl : text = id := same
    exact TypeDecl.readAll_echo coarse m rfl
  rw [listed.readAll []] at echo
  obtain ⟨d', ended, m'⟩ := (echo (.full id) (View.full_coarse id) rfl).2.of_ok
  obtain ⟨types', same, listed'⟩ := listed_of_readAll (Prod.ext rfl ended)
  refine ⟨types', d', listed', m', fun v coarse text => ?_⟩
  exact ((echo v coarse text).1.trans (congrArg (List.map (through v)) same)).symm

theorem Listed.exchanges {c d : Cursor} {types : List TypeDecl} (listed : Listed c types d)
    {pre post : List Enclosure} {site : Enclosure}
    (split : types.flatMap enclosures = pre ++ site :: post) :
    Exchanges Listed (List.flatMap enclosures) (List.map (through (.outside id))) c types d
      pre site post := by
  induction listed generalizing pre with
  | ended => simp at split
  | semicolon ended _ ih =>
    refine (ih split).after [] (Cursor.accept?_tells ended).leads ?_
    intro g c' s before
    obtain ⟨c₁', h₁', ended', s₁⟩ := s.accept?_some ended before
    exact ⟨c₁', s₁, fun types' d' rest' alike => ⟨types', .semicolon ended' rest', alike, rfl⟩⟩
  | @more c c₁ d h₁ decl types notEnded read rest ih =>
    rw [List.flatMap_cons] at split
    rcases split_append split with ⟨mid, inFirst, rfl⟩ | ⟨mid, rfl, inRest⟩
    · -- The exchanged enclosure belongs to the type read first; the others are read as before.
      refine (TypeDecl.read_exchanges ⟨h₁, read⟩ inFirst).followed rest.leads ?_
      intro g c' decl' c₁' s read' alike m
      obtain ⟨h₁', read'⟩ := read'
      obtain ⟨types', d', rest', m', same⟩ := rest.echo m
      refine ⟨decl' :: types', d', .more (s.accept?_none notEnded) read' rest', ?_, ?_, m'⟩
      · rw [List.map_cons, List.map_cons, alike, same (.outside id) (View.outside_coarse id) rfl]
      · have seen := congrArg (List.flatMap enclosures) (same (.full id) (View.full_coarse id) rfl)
        simp only [List.flatMap_map, enclosures_through, ← List.map_flatMap] at seen
        rw [List.flatMap_cons, List.map_append, seen]
    · refine (ih inRest).after decl.enclosures (TypeDecl.read_tells (fun _ word => word) read).leads ?_
      intro g c' s before
      obtain ⟨c₁', h₁', read', s₁⟩ := TypeDecl.read_grafts s read before
      refine ⟨c₁', s₁, fun types' d' rest' alike =>
        ⟨decl :: types', .more (s.accept?_none notEnded) read' rest', ?_, List.flatMap_cons⟩⟩
      rw [List.map_cons, List.map_cons, alike]

end TypeDecl

namespace CompilationUnit

theorem ReadAs.exchanges {c d : Cursor} {unit : CompilationUnit} (read : ReadAs c unit d)
    {pre post : List Enclosure} {site : Enclosure} (split : unit.enclosures = pre ++ site :: post) :
    Exchanges ReadAs enclosures (through (.outside id)) c unit d pre site post := by
  obtain ⟨preamble, c₁, h₁, types, preambleRead, listed, rfl⟩ := read
  refine (listed.exchanges split).after [] (Preamble.read_tells preambleRead).leads ?_
  intro g c' s before
  obtain ⟨c₁', h₁', preambleRead', s₁⟩ := Preamble.read_grafts s preambleRead before
  refine ⟨c₁', s₁, fun types' d' listed' alike =>
    ⟨_, ⟨preamble, c₁', h₁', types', preambleRead', listed', rfl⟩, ?_, rfl⟩⟩
  simp only [through, alike]

end CompilationUnit

end TestDouble
