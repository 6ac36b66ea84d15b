import TestDouble.Proofs.PathSteps
import TestDouble.Proofs.Puts

/-!
# Directories that are made on the way

Where a path leads on a disk does not change when the disk grows. Directories are made only where
nothing was, so a file that is written below an existing directory comes to stand at the names that
follow the directory in the path, and all that a write does to the disk is to put the file there.
-/

namespace TestDouble.Disk

variable {d d' : Disk} {start place other : Place} {segment name : String}
  {segments rest more : List String}

/-! ### Where segments lead -/

/-- Segments lead from a place to a place: each but the last from a directory to the next place. -/
inductive Leads (d : Disk) : Place → List String → Place → Prop where
  | here {place : Place} : d.Leads place [] place
  | idle {place other : Place} {segment : String} {rest : List String} :
      d.HasDirectory place → isIdle segment = true → d.Leads place rest other →
      d.Leads place (segment :: rest) other
  | up {place other : Place} {rest : List String} :
      d.HasDirectory place → d.Leads (above place.reverse).reverse rest other →
      d.Leads place (".." :: rest) other
  | down {place other : Place} {segment : String} {rest : List String} :
      d.HasDirectory place → isIdle segment = false → segment ≠ ".." →
      segment.utf8ByteSize ≤ nameLimit → (d.root.get? (place ++ [segment])).isSome →
      d.Leads (place ++ [segment]) rest other → d.Leads place (segment :: rest) other

namespace Leads

theorem mono (leads : d.Leads place segments other) (grows : d.GrowsTo d') :
    d'.Leads place segments other := by
  induction leads with
  | here => exact .here
  | idle open_ isIdle _ ih => exact .idle (grows.directory _ open_) isIdle ih
  | up open_ _ ih => exact .up (grows.directory _ open_) ih
  | down open_ leadsOn notUp short stands _ ih =>
    exact .down (grows.directory _ open_) leadsOn notUp short (grows.isSome _ stands) ih

theorem append {last : Place} (first : d.Leads place segments other)
    (second : d.Leads other more last) : d.Leads place (segments ++ more) last := by
  induction first with
  | here => exact second
  | idle open_ isIdle _ ih => exact .idle open_ isIdle (ih second)
  | up open_ _ ih => exact .up open_ (ih second)
  | down open_ leadsOn notUp short stands _ ih =>
    exact .down open_ leadsOn notUp short stands (ih second)

theorem split {last : Place} (leads : d.Leads place (segments ++ more) last) :
    ∃ other, d.Leads place segments other ∧ d.Leads other more last := by
  induction segments generalizing place with
  | nil => exact ⟨place, .here, leads⟩
  | cons segment segments ih =>
    cases leads with
    | idle open_ isIdle later =>
      obtain ⟨other, first, second⟩ := ih later
      exact ⟨other, .idle open_ isIdle first, second⟩
    | up open_ later =>
      obtain ⟨other, first, second⟩ := ih later
      exact ⟨other, .up open_ first, second⟩
    | down open_ leadsOn notUp short stands later =>
      obtain ⟨other, first, second⟩ := ih later
      exact ⟨other, .down open_ leadsOn notUp short stands first, second⟩

/-- Segments that lead nowhere can be left out. -/
theorem filter (leads : d.Leads place segments other) :
    d.Leads place (segments.filter (!isIdle ·)) other := by
  induction leads with
  | here => exact .here
  | idle _ isIdle _ ih => rwa [List.filter_cons_of_neg (by simp [isIdle])]
  | up open_ _ ih =>
    rw [List.filter_cons_of_pos (by decide)]
    exact .up open_ ih
  | down open_ leadsOn notUp short stands _ ih =>
    rw [List.filter_cons_of_pos (by simp [leadsOn])]
    exact .down open_ leadsOn notUp short stands ih

theorem isDirectory_of_cons (leads : d.Leads place (segment :: rest) other) :
    d.HasDirectory place := by
  cases leads with
  | idle open_ | up open_ | down open_ => exact open_

theorem isDirectory_first (leads : d.Leads place segments other)
    (isDirectory : d.HasDirectory other) : d.HasDirectory place := by
  cases leads with
  | here => exact isDirectory
  | idle open_ | up open_ | down open_ => exact open_

/-- Segments that lead nowhere can be added on the way to a directory. -/
theorem of_filter (isDirectory : d.HasDirectory other)
    (leads : d.Leads place (segments.filter (!isIdle ·)) other) : d.Leads place segments other := by
  induction segments generalizing place with
  | nil => exact leads
  | cons segment segments ih =>
    cases idle : isIdle segment with
    | true =>
      rw [List.filter_cons_of_neg (by simp [idle])] at leads
      exact .idle (leads.isDirectory_first isDirectory) idle (ih leads)
    | false =>
      rw [List.filter_cons_of_pos (by simp [idle])] at leads
      cases leads with
      | idle _ isIdle => cases idle.symm.trans isIdle
      | up open_ later => exact .up open_ (ih later)
      | down open_ leadsOn notUp short stands later =>
        exact .down open_ leadsOn notUp short stands (ih later)

end Leads

/-- What is taken to stand at a place when segments are followed from there. -/
theorem isDirectory_getD (isDirectory : d.HasDirectory place) :
    ((d.entry? place).getD (.directory [])).isDirectory = true := by
  obtain ⟨entries, stands⟩ := isDirectory
  rw [stands]
  rfl

theorem get?_append_singleton (d : Disk) (place : Place) (name : String) :
    d.root.get? (place ++ [name]) =
      ((d.entry? place).getD (.directory [])).entries.lookup name := by
  rw [Entry.get?_append, Disk.entry?]
  cases d.root.get? place with
  | some e =>
    rw [Option.bind_some, Entry.get?_cons, Option.getD_some]
    cases e.entries.lookup name <;> rfl
  | none =>
    dsimp only
    split <;> rfl

theorem follow_of_leads (leads : d.Leads start segments place) :
    d.follow start segments = .ok place := by
  unfold follow
  induction leads with
  | here => rw [followFrom, List.reverse_reverse]
  | idle open_ isIdle _ ih =>
    rw [followFrom, isDirectory_getD open_, isIdle]
    exact ih
  | @up here _ _ open_ _ ih =>
    rw [List.reverse_reverse] at ih
    rw [followFrom, isDirectory_getD open_]
    exact ih
  | @down here _ segment _ open_ leadsOn notUp short stands _ ih =>
    obtain ⟨next, stands⟩ := Option.isSome_iff_exists.mp stands
    rw [entry?_of_get? stands, Option.getD_some, List.reverse_append] at ih
    rw [get?_append_singleton] at stands
    rw [followFrom, isDirectory_getD open_, leadsOn]
    simp only [Bool.not_true, Bool.false_eq_true, if_false, if_neg notUp,
      if_neg (Nat.not_lt.mpr short), stands]
    exact ih

/-- A place that can be reached: no name of it is followed by a way up. -/
def IsReached (trail : List String) : Prop :=
  ∃ (names : List String) (n : Nat), trail = names ++ List.replicate n ".." ∧ ".." ∉ names

theorem IsReached.above {trail : List String} (reached : IsReached trail)
    (stands : (d.entry? trail.reverse).isSome) :
    IsReached (Disk.above trail) ∧ (d.entry? (Disk.above trail).reverse).isSome := by
  obtain ⟨names, n, rfl, notUp⟩ := reached
  -- Above a place that was reached by climbing only there is one more step up.
  cases names with
  | nil =>
    have climbed : Disk.above ([] ++ List.replicate n "..") = List.replicate (n + 1) ".." := by
      cases n <;> rfl
    rw [climbed, List.reverse_replicate]
    refine ⟨⟨[], n + 1, rfl, List.not_mem_nil⟩, ?_⟩
    have base : isBase (List.replicate (n + 1) "..") = true := by
      simp [isBase]
    rw [Disk.entry?, base]
    cases d.root.get? (List.replicate (n + 1) "..") <;> rfl
  | cons name names =>
    rw [List.mem_cons, not_or] at notUp
    by_cases root : name = "/"
    · rw [root] at stands notUp ⊢
      exact ⟨⟨"/" :: names, n, rfl, by simpa using notUp⟩, stands⟩
    · have dropped : Disk.above (name :: names ++ List.replicate n "..") =
          names ++ List.replicate n ".." := by
        rw [List.cons_append]
        unfold Disk.above
        split <;> simp_all
      rw [dropped]
      refine ⟨⟨names, n, rfl, notUp.2⟩, ?_⟩
      rw [List.cons_append, List.reverse_cons,
        entry?_of_not_base (isBase_append_cons (Ne.symm notUp.1) root _ []),
        Entry.get?_append] at stands
      cases found : d.root.get? (names ++ List.replicate n "..").reverse with
      | some e => rw [entry?_of_get? found]; rfl
      | none =>
        rw [found] at stands
        cases stands

theorem IsReached.below {trail : List String} (reached : IsReached trail) (notUp : segment ≠ "..") :
    IsReached (segment :: trail) := by
  obtain ⟨names, n, rfl, noUp⟩ := reached
  exact ⟨segment :: names, n, rfl, List.not_mem_cons_of_ne_of_not_mem (Ne.symm notUp) noUp⟩

private theorem followFrom_eq_ok {trail : List String} {e : Entry} (reached : IsReached trail)
    (stands : d.entry? trail.reverse = some e)
    (followed : d.followFrom trail e segments = .ok place) :
    d.Leads trail.reverse segments place ∧ (d.entry? place).isSome := by
  -- The trail grows and shrinks along the path, so the induction is for all trails.
  induction segments generalizing trail e with
  | nil =>
    obtain rfl := Except.ok.inj followed
    exact ⟨.here, by rw [stands]; rfl⟩
  | cons segment segments ih =>
    rw [followFrom] at followed
    split at followed
    next => cases followed
    next isDirectory =>
      rw [Bool.not_eq_true, Bool.not_eq_false', Entry.isDirectory_iff] at isDirectory
      obtain ⟨entries, rfl⟩ := isDirectory
      have open_ : d.HasDirectory trail.reverse := ⟨entries, stands⟩
      split at followed
      next idle => exact (ih reached stands followed).imp_left (.idle open_ idle)
      next leadsOn =>
        rw [Bool.not_eq_true] at leadsOn
        split at followed
        next up =>
          obtain ⟨reachedAbove, some⟩ := reached.above (by rw [stands]; rfl)
          obtain ⟨e, above⟩ := Option.isSome_iff_exists.mp some
          rw [above] at followed
          rw [up]
          refine (ih reachedAbove above followed).imp_left fun later => .up open_ ?_
          rwa [List.reverse_reverse]
        next notUp =>
          split at followed
          next => cases followed
          next short =>
            split at followed
            next entry found =>
              have below : d.root.get? (trail.reverse ++ [segment]) = some entry := by
                rw [get?_append_singleton, stands]
                exact found
              have listed : (d.root.get? (trail.reverse ++ [segment])).isSome := by rw [below]; rfl
              rw [← List.reverse_cons] at below
              refine (ih (reached.below notUp) (entry?_of_get? below) followed).imp_left ?_
              rw [List.reverse_cons]
              exact .down open_ leadsOn notUp (Nat.not_lt.mp short) listed
            next => cases followed

/-- Segments lead to one place. -/
theorem Leads.unique {last : Place} (first : d.Leads place segments other)
    (second : d.Leads place segments last) : other = last :=
  Except.ok.inj ((follow_of_leads first).symm.trans (follow_of_leads second))

/-- A path starts at a place that is there on every disk. -/
private theorem follow_eq_ok (base : start = [] ∨ start = ["/"])
    (followed : d.follow start segments = .ok place) :
    d.Leads start segments place ∧ (d.entry? place).isSome := by
  have reached : IsReached start.reverse := by
    rcases base with rfl | rfl
    · exact ⟨[], 0, rfl, List.not_mem_nil⟩
    · exact ⟨["/"], 0, rfl, by decide⟩
  have some : ∃ e, d.entry? start = some e := by
    rcases base with rfl | rfl
    · exact ⟨d.root, rfl⟩
    · rw [Disk.entry?]
      cases d.root.get? ["/"] with
      | some e => exact ⟨e, rfl⟩
      | none => exact ⟨.directory [], rfl⟩
  obtain ⟨e, stands⟩ := some
  rw [follow, stands] at followed
  have both := followFrom_eq_ok reached (by rwa [List.reverse_reverse]) followed
  rwa [List.reverse_reverse] at both

theorem leads_of_follow (base : start = [] ∨ start = ["/"])
    (followed : d.follow start segments = .ok place) : d.Leads start segments place :=
  (follow_eq_ok base followed).1

theorem startOf_eq (path : String) :
    startOf path = (if Path.isAbsolute path then ["/"] else [], Path.segments path) := by
  unfold startOf
  split <;> rfl

theorem startOf_base (path : String) : (startOf path).1 = [] ∨ (startOf path).1 = ["/"] := by
  rw [startOf_eq]
  dsimp only
  split
  · exact .inr rfl
  · exact .inl rfl

theorem find_eq {path : String} (noFault : pathFault? path = none) :
    d.find path = d.follow (startOf path).1 (Path.segments path) := by
  rw [find, noFault, startOf_eq]

theorem isSome_of_find {path : String} (found : d.find path = .ok place) :
    (d.entry? place).isSome := by
  cases fault : pathFault? path with
  | some fault =>
    rw [find, fault] at found
    cases found
  | none =>
    rw [find_eq fault] at found
    exact (follow_eq_ok (startOf_base path) found).2

/-- The steps of a path to a file lead where the path does. -/
theorem find_of_leads {path : String} (noFault : pathFault? path = none)
    (isName : Path.IsName (Path.fileName path))
    (leads : d.Leads (startOf path).1 (Path.steps path) place) : d.find path = .ok place := by
  obtain ⟨before, cut⟩ := Path.segments_fileName path
  have steps_eq : Path.steps path = before.filter (!isIdle ·) ++ [Path.fileName path] := by
    rw [Path.steps, cut, List.filter_append, List.filter_cons_of_pos (by simp [isName.not_idle]),
      List.filter_nil]
  rw [steps_eq] at leads
  obtain ⟨directory, first, last⟩ := leads.split
  rw [find_eq noFault, cut]
  exact follow_of_leads ((first.of_filter last.isDirectory_of_cons).append last)

/-- A path that was found leads where its steps do. -/
theorem leads_of_find {path : String} (found : d.find path = .ok place) :
    pathFault? path = none ∧ d.Leads (startOf path).1 (Path.steps path) place := by
  cases fault : pathFault? path with
  | some fault =>
    rw [find, fault] at found
    cases found
  | none =>
    rw [find_eq fault] at found
    exact ⟨rfl, (leads_of_follow (startOf_base path) found).filter⟩

/-! ### Making directories -/

/-- What is left out leads nowhere, so all that it can show is that there is no directory. -/
private theorem followFrom_filter (trail : List String) (e : Entry)
    (same : (d.entry? trail.reverse).getD (.directory []) = e) :
    d.followFrom trail e segments = d.followFrom trail e (segments.filter (!isIdle ·)) ∨
      d.followFrom trail e segments = .error .notDirectory ∧
        ∃ place, d.followFrom trail e (segments.filter (!isIdle ·)) = .ok place ∧
          ¬d.HasDirectory place := by
  induction segments generalizing trail e with
  | nil => exact .inl rfl
  | cons segment segments ih =>
    cases isDirectory : e.isDirectory with
    | false =>
      -- A file cannot be passed, unless all that is left leads nowhere and is left out.
      rw [followFrom, isDirectory]
      cases (segment :: segments).filter (!isIdle ·) with
      | nil =>
        refine .inr ⟨rfl, trail.reverse, rfl, fun open_ => ?_⟩
        have isDirectory' := isDirectory_getD open_
        rw [same, isDirectory] at isDirectory'
        cases isDirectory'
      | cons other rest =>
        rw [followFrom, isDirectory]
        exact .inl rfl
    | true =>
      cases idle : isIdle segment with
      | true =>
        rw [followFrom, isDirectory, idle, List.filter_cons_of_neg (by simp [idle])]
        exact ih trail e same
      | false =>
        rw [List.filter_cons_of_pos (by simp [idle]), followFrom, followFrom, isDirectory, idle]
        simp only [Bool.not_true, Bool.false_eq_true, if_false]
        split
        · exact ih _ _ rfl
        · split
          · exact .inl rfl
          · have below := d.get?_append_singleton trail.reverse segment
            rw [same] at below
            cases found : e.entries.lookup segment with
            | none => exact .inl rfl
            | some next =>
              apply ih
              rw [List.reverse_cons, entry?_of_get? (below.trans found)]
              rfl

/-- Only a directory can be given a new entry, so for that it does not matter either. -/
private theorem makeOne_filter (d : Disk) (start : Place) (segments : List String) (name : String) :
    d.makeOne start segments name = d.makeOne start (segments.filter (!isIdle ·)) name := by
  rw [makeOne, makeOne, follow, follow]
  rcases followFrom_filter start.reverse _ (by rw [List.reverse_reverse]) with
    same | ⟨failed, place, found, noDirectory⟩
  · rw [same]
  · rw [failed, found]
    simp only [bind, Except.bind]
    split
    next entries stands => exact absurd ⟨entries, stands⟩ noDirectory
    next => rfl

theorem makeDirectories_filter (d : Disk) (start : Place) (segments : List String) :
    d.makeDirectories start segments.reverse =
      d.makeDirectories start (segments.filter (!isIdle ·)).reverse := by
  induction segments using List.reverseRecOn with
  | nil => rfl
  | append_singleton segments last ih =>
    rw [List.reverse_append, List.reverse_singleton, List.singleton_append, makeDirectories]
    cases idle : isIdle last with
    | true =>
      have dropped : (segments ++ [last]).filter (!isIdle ·) = segments.filter (!isIdle ·) := by
        rw [List.filter_append, List.filter_cons_of_neg (by simp [idle]), List.filter_nil,
          List.append_nil]
      rw [dropped]
      exact ih
    | false =>
      have kept : (segments ++ [last]).filter (!isIdle ·) =
          segments.filter (!isIdle ·) ++ [last] := by
        rw [List.filter_append, List.filter_cons_of_pos (by simp [idle]), List.filter_nil]
      have same (d : Disk) := d.makeOne_filter start segments last
      rw [kept, List.reverse_append, List.reverse_singleton, List.singleton_append,
        makeDirectories, idle, ih]
      simp only [List.reverse_reverse, same]

/-! ### What making a directory does -/

/-- A directory that is made is put where nothing was; else nothing is done. -/
theorem makeOne_cases (base : start = [] ∨ start = ["/"])
    (made : d.makeOne start segments name = .ok d') :
    ∃ place, d.Leads start segments place ∧ d.HasDirectory place ∧
      (name = ".." ∧ d' = d ∨
        name ≠ ".." ∧ name.utf8ByteSize ≤ nameLimit ∧
          (d.root.get? (place ++ [name]) = none ∧ d' = d.put (place ++ [name]) (.directory []) ∨
            (∃ entries, d.root.get? (place ++ [name]) = some (.directory entries)) ∧ d' = d)) := by
  unfold makeOne at made
  cases followed : d.follow start segments with
  | error fault =>
    rw [followed] at made
    cases made
  | ok place =>
    rw [followed] at made
    simp only [bind, Except.bind] at made
    split at made
    next entries stands =>
      refine ⟨place, leads_of_follow base followed, ⟨entries, stands⟩, ?_⟩
      split at made
      next up => exact .inl ⟨up, (Except.ok.inj made).symm⟩
      next notUp =>
        split at made
        next => cases made
        next short =>
          have below := d.get?_append_singleton place name
          rw [stands, Option.getD_some, Entry.entries] at below
          refine .inr ⟨notUp, Nat.not_lt.mp short, ?_⟩
          split at made
          next missing => exact .inl ⟨below.trans missing, (Except.ok.inj made).symm⟩
          next inner found => exact .inr ⟨⟨inner, below.trans found⟩, (Except.ok.inj made).symm⟩
          next => cases made
    next => cases made

private theorem growsTo_makeOne (base : start = [] ∨ start = ["/"]) (notRoot : name ≠ "/")
    (made : d.makeOne start segments name = .ok d') : d.GrowsTo d' := by
  obtain ⟨place, _, _, outcome⟩ := makeOne_cases base made
  rcases outcome with ⟨_, rfl⟩ | ⟨notUp, _, ⟨missing, rfl⟩ | ⟨_, rfl⟩⟩
  · exact .refl d'
  · refine growsTo_put _ (isBase_append_cons notUp notRoot place []) fun e found => ?_
    rw [missing] at found
    cases found
  · exact .refl d'

/-- Making directories only adds to a disk. -/
theorem growsTo_makeDirectories (base : start = [] ∨ start = ["/"])
    (notRoot : ∀ s ∈ segments, s ≠ "/") (made : d.makeDirectories start segments.reverse = .ok d') :
    d.GrowsTo d' := by
  induction segments using List.reverseRecOn generalizing d' with
  | nil =>
    obtain rfl := Except.ok.inj made
    exact .refl d
  | append_singleton segments last ih =>
    rw [List.forall_mem_append] at notRoot
    have lastNotRoot := notRoot.2 last (List.mem_singleton_self last)
    rw [List.reverse_append, List.reverse_singleton, List.singleton_append, makeDirectories,
      List.reverse_reverse] at made
    split at made
    next => exact ih notRoot.1 made
    next =>
      split at made
      next =>
        cases outer : d.makeDirectories start segments.reverse with
        | error fault =>
          rw [outer] at made
          cases made
        | ok m =>
          rw [outer] at made
          exact (ih notRoot.1 outer).trans (growsTo_makeOne base lastNotRoot made)
      next => exact growsTo_makeOne base lastNotRoot made

/-- A directory that is there is as good as a new one. -/
private theorem makeOne_of_leads (leads : d.Leads start segments place)
    (last : d.Leads place [name] other) (leadsOn : isIdle name = false)
    (isDirectory : d.HasDirectory other) : d.makeOne start segments name = .ok d := by
  obtain ⟨entries, stands⟩ := last.isDirectory_first isDirectory
  rw [makeOne, follow_of_leads leads]
  simp only [bind, Except.bind, stands]
  cases last with
  | idle _ idle => cases leadsOn.symm.trans idle
  | up => rfl
  | down _ _ notUp short found later =>
    cases later
    obtain ⟨inner, stands'⟩ := isDirectory
    obtain ⟨e, found⟩ := Option.isSome_iff_exists.mp found
    obtain rfl := Option.some.inj ((entry?_of_get? found).symm.trans stands')
    rw [get?_append_singleton, stands] at found
    change entries.lookup name = _ at found
    rw [if_neg notUp, if_neg (Nat.not_lt.mpr short), found]
    rfl

/-- Where segments lead to a directory already there is nothing to make. -/
theorem makeDirectories_of_leads (leads : d.Leads start segments place)
    (isDirectory : d.HasDirectory place) : d.makeDirectories start segments.reverse = .ok d := by
  induction segments using List.reverseRecOn generalizing place with
  | nil => rfl
  | append_singleton segments last ih =>
    obtain ⟨before, first, second⟩ := leads.split
    have through := second.isDirectory_first isDirectory
    rw [List.reverse_append, List.reverse_singleton, List.singleton_append, makeDirectories]
    cases idle : isIdle last with
    | true => exact ih first through
    | false =>
      rw [List.reverse_reverse, makeOne_of_leads first second idle isDirectory]
      rfl

/-- To make a missing directory and put something below it is to put it there. -/
theorem put_of_missing (missing : d.root.get? place = none) (below : Place) (new : Entry) :
    (d.put place (.directory [])).put (place ++ below) new = d.put (place ++ below) new := by
  rw [Disk.put, Disk.put, Disk.put, Entry.put_put, Entry.put_of_missing missing]

/-- Below an open directory: a disk on which the segments lead to a directory and the names behind
them to one below it, and which differs from the given one only in directories on that way. -/
structure Opened (d : Disk) (start : Place) (segments : List String) (place : Place)
    (names : List String) (m : Disk) : Prop where
  leads : m.Leads start (segments ++ names) (place ++ names)
  directory : m.HasDirectory (place ++ names)
  grows : d.GrowsTo m
  put : ∀ below new, below ≠ [] →
    m.put (place ++ names ++ below) new = d.put (place ++ names ++ below) new

theorem Opened.makeOne {m m' : Disk} (opened : d.Opened start segments place rest m)
    (base : start = [] ∨ start = ["/"]) (isName : Path.IsName name)
    (made : m.makeOne start (segments ++ rest) name = .ok m') :
    d.Opened start segments place (rest ++ [name]) m' := by
  obtain ⟨there, leads, open_, outcome⟩ := makeOne_cases base made
  obtain rfl := leads.unique opened.leads
  rcases outcome with ⟨up, _⟩ | ⟨_, short, ⟨missing, rfl⟩ | ⟨⟨entries, stands⟩, rfl⟩⟩
  · exact absurd up isName.notUp
  · have notBase := isBase_append_cons isName.notUp isName.not_root (place ++ rest) []
    have grows : m.GrowsTo (m.put (place ++ rest ++ [name]) (.directory [])) := by
      refine growsTo_put _ notBase fun e found => ?_
      rw [missing] at found
      cases found
    have stands := m.entry?_put_self (.directory []) (place ++ rest ++ [name])
    have listed : ((m.put (place ++ rest ++ [name]) (.directory [])).root.get?
        (place ++ rest ++ [name])).isSome := by
      rw [← entry?_of_not_base notBase, stands]
      rfl
    refine ⟨?_, ?_, opened.grows.trans grows, fun below new nonempty => ?_⟩
    · rw [← List.append_assoc, ← List.append_assoc]
      exact (opened.leads.mono grows).append (.down (grows.directory _ opened.directory)
        isName.not_idle isName.notUp short listed .here)
    · rw [← List.append_assoc]
      exact ⟨[], stands⟩
    · rw [← List.append_assoc, put_of_missing missing, List.append_assoc (place ++ rest)]
      exact opened.put ([name] ++ below) new (by simp)
  · have listed : (m'.root.get? (place ++ rest ++ [name])).isSome := by
      rw [stands]
      rfl
    refine ⟨?_, ?_, opened.grows, fun below new nonempty => ?_⟩
    · rw [← List.append_assoc, ← List.append_assoc]
      exact opened.leads.append
        (.down opened.directory isName.not_idle isName.notUp short listed .here)
    · rw [← List.append_assoc]
      exact ⟨entries, entry?_of_get? stands⟩
    · rw [← List.append_assoc, List.append_assoc (place ++ rest)]
      exact opened.put ([name] ++ below) new (by simp)

/-- Directories are made below the one that the first segments lead to, however far these were
there before. -/
theorem opened_of_makeDirectories {made m : Disk} {names : List String}
    (base : start = [] ∨ start = ["/"])
    (opens : d.makeDirectories start segments.reverse = .ok made)
    (leads : made.Leads start segments place) (isDirectory : made.HasDirectory place)
    (areNames : ∀ n ∈ names, Path.IsName n)
    (below : d.makeDirectories start (segments ++ names).reverse = .ok m) :
    made.Opened start segments place names m := by
  -- The last directory is tried first, so the induction takes it from the end of the names.
  induction names using List.reverseRecOn generalizing m with
  | nil =>
    rw [List.append_nil, opens] at below
    obtain rfl := Except.ok.inj below
    refine ⟨?_, ?_, .refl made, fun _ _ _ => rfl⟩
    · rwa [List.append_nil, List.append_nil]
    · rwa [List.append_nil]
  | append_singleton names last ih =>
    rw [List.forall_mem_append] at areNames
    have isName := areNames.2 last (List.mem_singleton_self last)
    rw [← List.append_assoc, List.reverse_append, List.reverse_singleton, List.singleton_append,
      makeDirectories, isName.not_idle, List.reverse_reverse] at below
    simp only [Bool.false_eq_true, if_false] at below
    split at below
    next =>
      -- The directories before the last were missing and are made first.
      cases outer : d.makeDirectories start (segments ++ names).reverse with
      | error fault =>
        rw [outer] at below
        cases below
      | ok m₁ =>
        rw [outer] at below
        exact (ih areNames.1 outer).makeOne base isName below
    next =>
      -- The directories before the last are there.
      obtain ⟨there, led, open_, _⟩ := makeOne_cases base below
      exact (ih areNames.1 (makeDirectories_of_leads led open_)).makeOne base isName below

/-! ### Writing files -/

variable {path output target content : String} {made m : Disk} {names : List String}

theorem makeDirectoryAt_eq_ok (opens : d.makeDirectoryAt path = .ok (m, place)) :
    d.makeDirectories (startOf path).1 (Path.steps path).reverse = .ok m ∧
      m.Leads (startOf path).1 (Path.steps path) place := by
  have segments_eq : (startOf path).2 = Path.segments path := by rw [startOf_eq]
  unfold makeDirectoryAt at opens
  split at opens
  next empty =>
    obtain ⟨rfl, rfl⟩ := Prod.mk.inj (Except.ok.inj opens)
    rw [empty]
    exact ⟨rfl, .here⟩
  next =>
    split at opens
    next => cases opens
    next =>
      dsimp only at opens
      rw [segments_eq] at opens
      cases made : d.makeDirectories (startOf path).1 (Path.segments path).reverse with
      | error fault =>
        rw [made] at opens
        cases opens
      | ok m' =>
        rw [made] at opens
        simp only [bind, Except.bind] at opens
        split at opens
        next => cases opens
        next place' followed =>
          obtain ⟨rfl, rfl⟩ := Prod.mk.inj (Except.ok.inj opens)
          rw [makeDirectories_filter] at made
          exact ⟨made, (leads_of_follow (startOf_base path) followed).filter⟩

/-- What a write does that does not fail: the file is put into a directory that was made. -/
theorem write_eq_ok (written : d.write target content = .ok d') :
    ∃ made place, d.makeDirectoryAt (Path.parent target) = .ok (made, place) ∧
      pathFault? target = none ∧ (Path.fileName target).utf8ByteSize ≤ nameLimit ∧
      ¬made.HasDirectory (place ++ [Path.fileName target]) ∧
      d' = made.put (place ++ [Path.fileName target]) (.text content) := by
  unfold write putFile at written
  cases opens : d.makeDirectoryAt (Path.parent target) with
  | error fault =>
    rw [opens] at written
    cases written
  | ok result =>
    obtain ⟨made, place⟩ := result
    rw [opens] at written
    simp only [bind, Except.bind] at written
    refine ⟨made, place, rfl, ?_⟩
    split at written
    next => cases written
    next noFault =>
      refine ⟨noFault, ?_⟩
      split at written
      next => cases written
      next short =>
        refine ⟨Nat.not_lt.mp short, ?_⟩
        split at written
        next => cases written
        next vacant =>
          exact ⟨fun ⟨entries, stands⟩ => vacant entries stands, (Except.ok.inj written).symm⟩

/-- A file that is written below a directory is put there and found there. Nothing else is done to
the disk on which the directory was made. -/
theorem write_below
    (opens : d.makeDirectories (startOf output).1 (Path.steps output).reverse = .ok made)
    (leads : made.Leads (startOf output).1 (Path.steps output) place)
    (isDirectory : made.HasDirectory place)
    (sameStart : Path.isAbsolute target = Path.isAbsolute output)
    (steps : Path.steps target = Path.steps output ++ names ++ [name])
    (called : Path.fileName target = name) (areNames : ∀ n ∈ names ++ [name], Path.IsName n)
    (written : d.write target content = .ok d') :
    d' = made.put (place ++ names ++ [name]) (.text content) ∧ made.GrowsTo d' ∧
      d'.find target = .ok (place ++ names ++ [name]) := by
  obtain ⟨m, directory, opened, noFault, short, vacant, rfl⟩ := write_eq_ok written
  obtain ⟨below, led⟩ := makeDirectoryAt_eq_ok opened
  rw [List.forall_mem_append, List.forall_mem_singleton] at areNames
  obtain ⟨areNames, isName⟩ := areNames
  rw [called] at short vacant ⊢
  -- The parent of the target leads through the output directory.
  have steps_parent : Path.steps (Path.parent target) = Path.steps output ++ names := by
    have whole := Path.steps_of_parent (by rw [called]; exact isName.not_idle)
    rw [steps, called] at whole
    exact (List.append_inj_left' whole rfl).symm
  have start_eq : (startOf (Path.parent target)).1 = (startOf output).1 := by
    rw [startOf_eq, startOf_eq, Path.isAbsolute_parent, sameStart]
  rw [steps_parent, start_eq] at below led
  have base := startOf_base output
  have inside := opened_of_makeDirectories base opens leads isDirectory areNames below
  -- The parent is found where its directories were made.
  obtain rfl := led.unique inside.leads
  have notBase := isBase_append_cons isName.notUp isName.not_root (place ++ names) []
  have grows : m.GrowsTo (m.put (place ++ names ++ [name]) (.text content)) := by
    refine growsTo_put _ notBase fun e found => Bool.eq_false_iff.mpr fun isDirectory => ?_
    exact vacant (hasDirectory_of_stands (entry?_of_get? found) isDirectory)
  refine ⟨inside.put [name] _ (List.cons_ne_nil name []), inside.grows.trans grows, ?_⟩
  · have listed : ((m.put (place ++ names ++ [name]) (.text content)).root.get?
        (place ++ names ++ [name])).isSome := by
      rw [← entry?_of_not_base notBase, entry?_put_self]
      rfl
    have toFile := (inside.leads.mono grows).append (.down (grows.directory _ inside.directory)
      isName.not_idle isName.notUp short listed .here)
    rw [← steps, ← start_eq,
      show (startOf (Path.parent target)).1 = (startOf target).1 by
        rw [startOf_eq, startOf_eq, Path.isAbsolute_parent]] at toFile
    exact find_of_leads noFault (by rwa [called]) toFile

/-- A path is found where it was when the disk grows. -/
theorem find_mono (grows : d.GrowsTo d') (found : d.find path = .ok place) :
    d'.find path = .ok place := by
  have noFault := (leads_of_find found).1
  rw [find_eq noFault] at found ⊢
  exact follow_of_leads ((leads_of_follow (startOf_base path) found).mono grows)

theorem read_eq_ok : d.read path = .ok content ↔
    ∃ place, d.find path = .ok place ∧ d.entry? place = some (.text content) := by
  unfold read
  cases d.find path with
  | error fault => simp [bind, Except.bind]
  | ok place =>
    simp only [bind, Except.bind, Except.ok.injEq, exists_eq_left']
    split <;> simp_all [pure, Except.pure, throw, throwThe, MonadExceptOf.throw]

end TestDouble.Disk
