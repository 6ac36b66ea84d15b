import TestDouble.Proofs.Exchange

/-!
# Readers that end at a bar

A declaration ends with a brace or a semicolon, and its reader looks at nothing behind that. So it
reads the same, up to the same place, when more tokens stand behind it.
-/

namespace TestDouble

/-! ### Where declarations end -/

/-- What is read up to the second cursor ends with the given bar. -/
def Cursor.EndsWith (kind : Kind) (c d : Cursor) : Prop :=
  ∃ e bar, c.Leads e ∧ e.ahead = bar :: d.ahead ∧ bar.kind = kind

namespace Cursor

variable {kind : Kind} {b c d : Cursor}

theorem EndsWith.lead (ends : c.EndsWith kind d) (leads : b.Leads c) : b.EndsWith kind d := by
  obtain ⟨e, bar, way, ahead, isBar⟩ := ends
  exact ⟨e, bar, leads.trans way, ahead, isBar⟩

theorem EndsWith.size_lt (ends : c.EndsWith kind d) : d.size < c.size := by
  obtain ⟨e, bar, way, ahead, -⟩ := ends
  have before := way.size_le
  rw [size, ahead] at before
  exact before

theorem endsWith_of_accept? {t : Token} {h : d.size < c.size}
    (found : c.accept? kind = some ⟨t, d, h⟩) : c.EndsWith kind d := by
  obtain ⟨passes, isKind⟩ := accept?_eq_some found
  exact ⟨c, t, .refl c, passes.ahead, isKind⟩

theorem endsWith_of_expect {what : String} {t : Token} {h : d.size < c.size}
    (expected : c.expect kind what = .ok ⟨t, d, h⟩) : c.EndsWith kind d := by
  obtain ⟨passes, isKind⟩ := expect_eq_ok expected
  exact ⟨c, t, .refl c, passes.ahead, isKind⟩

end Cursor

theorem PackageDecl.ReadAs.endsWith {c d : Cursor} {decl : PackageDecl}
    (readAs : ReadAs c (some decl) d) : c.EndsWith .semicolon d := by
  cases readAs with
  | declared found named ended =>
    have way := (Cursor.accept?_tells found).leads.trans (Cursor.dottedName_tells named).leads
    exact (Cursor.endsWith_of_expect ended).lead way

theorem ImportDecl.endsWith_of_readRest {c d : Cursor} {start : Location} {decl : ImportDecl}
    (read : Returns (readRest start) c decl d) : c.EndsWith .semicolon d := by
  obtain @⟨_, _, _, _, c₁, c₂, c₃, _, _, _, _, mayPass, named, starred, ended⟩ :=
    readRest_eq_ok_iff.mp read
  have marked : c.Leads c₁ := mayPass.tells.leads
  have star : c₂.Leads c₃ := (Cursor.clause_tells (fun _ => True)
    (fun _ _ _ read => Cursor.expect_tells read) starred).leads
  have way := (Cursor.dottedName_tells named).leads.trans star
  exact (Cursor.endsWith_of_expect ended).lead (marked.trans way)

theorem NominalDecl.endsWith_of_passBody {c d : Cursor} {h : d.size ≤ c.size}
    (passed : passBody c = .ok ⟨(), d, h⟩) : c.EndsWith .rightBrace d := by
  obtain ⟨n, m, -, body, within, rfl⟩ := passBody_eq_ok_iff.mp ⟨h, passed⟩
  obtain ⟨front, brace, rest, split, rfl, closes⟩ := bodyLength?_eq_some body
  have before : n + 1 + front.length ≤ c.size := by omega
  refine ⟨c.skip (n + 1 + front.length) before, brace, ⟨_, .skip c before⟩, ?_, closes⟩
  have behind (k : Nat) (within : n + 1 + k ≤ c.size) :
      (c.skip (n + 1 + k) within).ahead = (front ++ brace :: rest).drop k := by
    rw [Cursor.skip, ← List.drop_drop, split]
  rw [behind, behind, Nat.zero_add, List.drop_left, ← List.drop_drop, List.drop_left]
  rfl

theorem BodyMember.Listed.endsWith {c d : Cursor} {parts : List BodyMember}
    (listed : Listed c parts d) : c.EndsWith .rightBrace d := by
  induction listed with
  | closed closing => exact Cursor.endsWith_of_accept? closing
  | semicolon _ semicolon _ ih => exact ih.lead (Cursor.accept?_tells semicolon).leads
  | more _ _ read _ ih => exact ih.lead (BodyMember.read_tells (fun _ word => word) read).leads

theorem TypeDecl.endsWith_of_read {c d : Cursor} {decl : TypeDecl}
    (read : Returns TypeDecl.read c decl d) : c.EndsWith .rightBrace d := by
  obtain ⟨h, returned⟩ := read
  obtain ⟨⟨q, c₁, h₁⟩, qualified, returned⟩ := bind_eq_ok returned
  obtain ⟨⟨decl, c₂, h₂⟩, rest, finished⟩ := bind_eq_ok returned
  cases finished
  have ofBody {e : Cursor} {parts : List BodyMember} {h : d.size < e.size}
      (bodyRead : BodyMember.readBody e = .ok ⟨parts, d, h⟩) : e.EndsWith .rightBrace d := by
    obtain ⟨t, e₁, h₁, opened, listed⟩ := BodyMember.readBody_eq_ok_iff.mp ⟨h, bodyRead⟩
    exact listed.endsWith.lead (Cursor.expect_tells opened).leads
  refine Cursor.EndsWith.lead ?_ (Qualifiers.read_tells qualified).leads
  cases TypeDecl.readAs_of_readRest rest with
  | classDecl heads bodyRead => exact (ofBody bodyRead).lead heads.leads
  | interfaceDecl heads bodyRead => exact (ofBody bodyRead).lead heads.leads
  | nominal _ _ known nominal =>
    obtain ⟨⟨name, c₂, h₂⟩, named, returned⟩ := bind_eq_ok nominal
    obtain ⟨⟨_, c₃, h₃⟩, passed, finished⟩ := bind_eq_ok returned
    cases finished
    have ends := NominalDecl.endsWith_of_passBody passed
    exact (ends.lead (Cursor.identifier_tells named).leads).lead (NominalDecl.kind?_tells known).leads

/-! ### Up to the bar and with it -/

/-- Two cursors right behind the bar, the first before the old tokens and the second before the new
ones. -/
structure Graft.Past (g : Graft) (d d' : Cursor) : Prop where
  last : d'.last = d.last
  old : d.ahead = g.old
  new : d'.ahead = g.new

theorem Graft.Past.lastStop_eq {g : Graft} {d d' : Cursor} (past : g.Past d d') :
    d'.lastStop = d.lastStop := by
  rw [Cursor.lastStop, Cursor.lastStop, past.last]

section

variable {g : Graft} {c c' d : Cursor}

/-- The cursor that has no more than the old tokens ahead is behind the bar. -/
theorem Cursor.behind_of_ahead (ended : d.ahead = g.old) : d.size = g.behind := by
  rw [Cursor.size, ended]
  rfl

namespace Graft.At

variable (s : g.At c c')

include s

/-- The bar itself is taken on both sides. -/
theorem accept?_past {kind : Kind} {t : Token} {h : d.size < c.size}
    (found : c.accept? kind = some ⟨t, d, h⟩) (ended : d.ahead = g.old) :
    ∃ d' h', c'.accept? kind = some ⟨t, d', h'⟩ ∧ g.Past d d' := by
  obtain ⟨last, ahead⟩ := c
  obtain ⟨last', ahead'⟩ := c'
  obtain ⟨u, rest, rest', rfl, rfl, later⟩ := s.cases_ahead
  simp only [Cursor.accept?] at found ⊢
  split at found
  next kindIs =>
    cases found
    rw [if_pos kindIs]
    refine ⟨⟨some t, rest'⟩, Cursor.size_tail_lt .., rfl, rfl, ended, ?_⟩
    rcases later with ⟨-, kept, ahead, -⟩ | ⟨-, -, same⟩
    · -- More than the old tokens would be ahead.
      have length := congrArg List.length (ended.symm.trans ahead)
      simp only [List.length_append, List.length_cons] at length
      omega
    · exact same
  next => cases found

theorem expect_past {kind : Kind} {what : String} {t : Token} {h : d.size < c.size}
    (expected : c.expect kind what = .ok ⟨t, d, h⟩) (ended : d.ahead = g.old) :
    ∃ d' h', c'.expect kind what = .ok ⟨t, d', h'⟩ ∧ g.Past d d' := by
  simp only [Cursor.expect] at expected ⊢
  split at expected
  next found =>
    cases expected
    obtain ⟨d', h', found', past⟩ := s.accept?_past found ended
    rw [found']
    exact ⟨d', h', rfl, past⟩
  next => cases expected

/-! ### What a unit starts with -/

theorem package_past {decl : PackageDecl} (readAs : PackageDecl.ReadAs c (some decl) d)
    (ended : d.ahead = g.old) : ∃ d', PackageDecl.ReadAs c' (some decl) d' ∧ g.Past d d' := by
  cases readAs with
  | declared word named closed =>
    have size := Cursor.behind_of_ahead ended
    obtain ⟨c₁', h₁', word', s₁⟩ := s.accept?_some word (by omega)
    obtain ⟨c₂', h₂', named', s₂⟩ := s₁.dottedName named (by omega)
    obtain ⟨c₃', h₃', closed', past⟩ := s₂.expect_past closed ended
    rw [← s.location_eq, ← past.lastStop_eq]
    exact ⟨c₃', .declared word' named' closed', past⟩

theorem import_past {start : Location} {decl : ImportDecl}
    (returned : Returns (ImportDecl.readRest start) c decl d) (ended : d.ahead = g.old) :
    ∃ d', Returns (ImportDecl.readRest start) c' decl d' ∧ g.Past d d' := by
  obtain ⟨mayPass, named, starred, closed⟩ := ImportDecl.readRest_eq_ok_iff.mp returned
  have size := Cursor.behind_of_ahead ended
  obtain ⟨c₁', mayPass', s₁⟩ := mayPass.graft s (by omega)
  obtain ⟨c₂', h₂', named', s₂⟩ := s₁.dottedName named (by omega)
  obtain ⟨c₃', h₃', starred', s₃⟩ := s₂.clause (fun _ _ _ _ s => s.expect _ _) starred (by omega)
  obtain ⟨d', h', closed', past⟩ := s₃.expect_past closed ended
  rw [← past.lastStop_eq]
  exact ⟨d', ImportDecl.readRest_eq_ok_iff.mpr (.target mayPass' named' starred' closed'), past⟩

/-! ### Types -/

theorem passBody_past {h : d.size ≤ c.size} (passed : NominalDecl.passBody c = .ok ⟨(), d, h⟩)
    (ended : d.ahead = g.old) :
    ∃ d' h', NominalDecl.passBody c' = .ok ⟨(), d', h'⟩ ∧ g.Past d d' := by
  obtain ⟨kept, ahead, ahead'⟩ := s.ahead
  obtain ⟨n, m, header, body, within, rfl⟩ := NominalDecl.passBody_eq_ok_iff.mp ⟨h, passed⟩
  -- What is skipped is all up to the bar, and the bar.
  have whole : n + 1 + m = kept.length + 1 := by
    have length := congrArg List.length ended
    obtain ⟨front, brace, rest, split, reached, -⟩ := NominalDecl.bodyLength?_eq_some body
    have total := congrArg List.length split
    simp only [Cursor.skip, ahead, List.length_drop, List.length_append, List.length_cons]
      at length total
    omega
  obtain ⟨_, h', passed'⟩ := NominalDecl.passBody_graft ahead ahead' header body (by omega)
  have length : (kept ++ [g.bar]).length = n + 1 + m := by simp [whole]
  have taken (rest : List Token) : (kept ++ g.bar :: rest).take (n + 1 + m) = kept ++ [g.bar] := by
    rw [List.append_cons, ← length, List.take_left]
  have left (rest : List Token) : (kept ++ g.bar :: rest).drop (n + 1 + m) = rest := by
    rw [List.append_cons, ← length, List.drop_left]
  refine ⟨_, h', passed', ?_, ended, ?_⟩
  · simp only [Cursor.skip, ahead, ahead', taken, s.last]
  · simp only [Cursor.skip, ahead', left]

theorem nominal_past {kind : NominalKind} {q : Qualifiers} {start : Location} {decl : NominalDecl}
    {h : d.size < c.size} (returned : NominalDecl.readRest kind q start c = .ok ⟨decl, d, h⟩)
    (ended : d.ahead = g.old) :
    ∃ d' h', NominalDecl.readRest kind q start c' = .ok ⟨decl, d', h'⟩ ∧ g.Past d d' := by
  obtain ⟨⟨name, c₁, h₁⟩, named, returned⟩ := bind_eq_ok returned
  obtain ⟨⟨_, c₂, h₂⟩, passed, finished⟩ := bind_eq_ok returned
  cases finished
  have taken := (NominalDecl.endsWith_of_passBody passed).size_lt
  have size := Cursor.behind_of_ahead ended
  obtain ⟨c₁', h₁', named', s₁⟩ := s.identifier named (by omega)
  obtain ⟨c₂', h₂', passed', past⟩ := s₁.passBody_past passed ended
  refine ⟨c₂', by omega, ?_, past⟩
  rw [← past.lastStop_eq]
  exact bind_of_ok named' (bind_of_ok passed' rfl)

end Graft.At

theorem BodyMember.Listed.past {parts : List BodyMember} (listed : Listed c parts d)
    (s : g.At c c') (ended : d.ahead = g.old) : ∃ d', Listed c' parts d' ∧ g.Past d d' := by
  have behind := Cursor.behind_of_ahead ended
  induction listed generalizing c' with
  | closed closing =>
    obtain ⟨d', h', closing', past⟩ := s.accept?_past closing ended
    exact ⟨d', .closed closing', past⟩
  | semicolon notClosed semicolon rest ih =>
    have size := rest.size_lt
    obtain ⟨c₁', h₁', semicolon', s₁⟩ := s.accept?_some semicolon (by omega)
    obtain ⟨d', rest', past⟩ := ih s₁ ended behind
    exact ⟨d', .semicolon (s.accept?_none notClosed) semicolon' rest', past⟩
  | more notClosed notEnded read rest ih =>
    have size := rest.size_lt
    obtain ⟨c₁', h₁', read', s₁⟩ := BodyMember.read_grafts s read (by omega)
    obtain ⟨d', rest', past⟩ := ih s₁ ended behind
    exact ⟨d', .more (s.accept?_none notClosed) (s.accept?_none notEnded) read' rest', past⟩

theorem BodyMember.readBody_past {parts : List BodyMember} {h : d.size < c.size}
    (returned : readBody c = .ok ⟨parts, d, h⟩) (s : g.At c c') (ended : d.ahead = g.old) :
    ∃ d' h', readBody c' = .ok ⟨parts, d', h'⟩ ∧ g.Past d d' := by
  obtain ⟨t, c₁, h₁, opened, listed⟩ := readBody_eq_ok_iff.mp ⟨h, returned⟩
  have size := listed.size_lt
  have behind := Cursor.behind_of_ahead ended
  obtain ⟨c₁', h₁', opened', s₁⟩ := s.expect _ _ opened (by omega)
  obtain ⟨d', listed', past⟩ := listed.past s₁ ended
  obtain ⟨h', returned'⟩ := readBody_eq_ok_iff.mpr ⟨t, c₁', h₁', opened', listed'⟩
  exact ⟨d', h', returned', past⟩

theorem TypeDecl.readAs_past {q : Qualifiers} {start : Location} {decl : TypeDecl}
    (readAs : ReadAs q start c decl d) (s : g.At c c') (ended : d.ahead = g.old) :
    ∃ d', ReadAs q start c' decl d' ∧ g.Past d d' := by
  have behind := Cursor.behind_of_ahead ended
  cases readAs with
  | @classDecl _ _ _ _ _ c₆ _ h heads bodyRead =>
    obtain ⟨c₆', heads', s₆⟩ := heads.graft s (by omega)
    obtain ⟨d', h', bodyRead', past⟩ := BodyMember.readBody_past bodyRead s₆ ended
    rw [← past.lastStop_eq]
    exact ⟨d', .classDecl heads' bodyRead', past⟩
  | @interfaceDecl _ _ _ _ c₅ _ h heads bodyRead =>
    obtain ⟨c₅', heads', s₅⟩ := heads.graft s (by omega)
    obtain ⟨d', h', bodyRead', past⟩ := BodyMember.readBody_past bodyRead s₅ ended
    rw [← past.lastStop_eq]
    exact ⟨d', .interfaceDecl heads' bodyRead', past⟩
  | nominal noClass noInterface known read =>
    obtain ⟨none, -⟩ | ⟨k, c₁, h₁, some, later⟩ := NominalDecl.kind?_graft s
    · simp [none] at known
    obtain ⟨rfl, rfl⟩ := Consumed.mk.inj (Option.some.inj (some.symm.trans known))
    obtain ⟨c₁', h₁', known', s₁⟩ := later (by omega)
    obtain ⟨d', h', read', past⟩ := s₁.nominal_past read ended
    exact ⟨d', .nominal (s.accept?_none noClass) (s.accept?_none noInterface) known' read', past⟩

theorem TypeDecl.read_past {decl : TypeDecl} (returned : Returns TypeDecl.read c decl d)
    (s : g.At c c') (ended : d.ahead = g.old) :
    ∃ d', Returns TypeDecl.read c' decl d' ∧ g.Past d d' := by
  obtain ⟨h, returned⟩ := returned
  obtain ⟨⟨q, c₁, h₁⟩, qualified, returned⟩ := bind_eq_ok returned
  obtain ⟨⟨decl, c₂, h₂⟩, read, finished⟩ := bind_eq_ok returned
  cases finished
  have behind := Cursor.behind_of_ahead ended
  obtain ⟨c₁', h₁', qualified', s₁⟩ := Qualifiers.read_grafts s qualified (by omega)
  obtain ⟨d', readAs', past⟩ := TypeDecl.readAs_past (TypeDecl.readAs_of_readRest read) s₁ ended
  obtain ⟨h', read'⟩ := readAs'.read
  rw [← s.location_eq] at read'
  exact ⟨d', ⟨by omega, bind_of_ok qualified' (bind_of_ok read' rfl)⟩, past⟩

end

end TestDouble
