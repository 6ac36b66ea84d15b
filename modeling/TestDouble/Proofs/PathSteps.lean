import Mathlib.Data.List.Induction
import TestDouble.Disk
import TestDouble.Proofs.TypeSpelling

/-!
# The steps of a path

Of the segments of a path only those count that lead somewhere. They are the steps of the path. The
steps of a path below another one follow those of the other, and the parent of a path has all steps
but the last.
-/

namespace TestDouble

/-! ### Pieces of a text -/

namespace Text

variable {separator : Char}

theorem pieces_of_not_mem {word : List Char} (missing : separator ∉ word) :
    pieces separator word = [word] := by
  rw [pieces, piecesFrom_of_not_mem word [] [] missing]
  rfl

/-- The pieces of two texts with a separator between them are those of the one and of the other. -/
theorem pieces_append (separator : Char) (text more : List Char) :
    pieces separator (text ++ separator :: more) =
      pieces separator text ++ pieces separator more := by
  have general : ∀ piece, piecesFrom separator (text ++ separator :: more) piece [] =
      piecesFrom separator text piece [] ++ pieces separator more := by
    induction text with
    | nil =>
      intro piece
      simp only [List.nil_append, piecesFrom, if_true]
      rw [piecesFrom_read]
      rfl
    | cons c text ih =>
      intro piece
      rw [List.cons_append, piecesFrom, piecesFrom]
      split
      · rw [piecesFrom_read, ih, piecesFrom_read separator text [] [_], List.append_assoc]
      · exact ih _
  exact general []

theorem not_mem_of_mem_pieces {text part : List Char} (listed : part ∈ pieces separator text) :
    separator ∉ part := by
  have general : ∀ text piece, separator ∉ piece → part ∈ piecesFrom separator text piece [] →
      separator ∉ part := by
    intro text
    induction text with
    | nil =>
      intro piece missing listed
      rw [piecesFrom, List.reverse_singleton, List.mem_singleton] at listed
      rwa [listed, List.mem_reverse]
    | cons c text ih =>
      intro piece missing listed
      rw [piecesFrom] at listed
      split at listed
      next =>
        rw [piecesFrom_read, List.reverse_singleton, List.singleton_append,
          List.mem_cons] at listed
        rcases listed with rfl | later
        · rwa [List.mem_reverse]
        · exact ih [] List.not_mem_nil later
      next other =>
        exact ih _ (List.not_mem_cons_of_ne_of_not_mem (Ne.symm other) missing) listed
  exact general text [] List.not_mem_nil listed

/-- A text holds no separator, or there is a last one. -/
theorem last_separator (separator : Char) (text : List Char) :
    separator ∉ text ∨ ∃ before last, text = before ++ separator :: last ∧ separator ∉ last := by
  induction text with
  | nil => exact .inl List.not_mem_nil
  | cons c text ih =>
    rcases ih with missing | ⟨before, last, rfl, missing⟩
    · by_cases here : c = separator
      · exact .inr ⟨[], text, by rw [here]; rfl, missing⟩
      · exact .inl (List.not_mem_cons_of_ne_of_not_mem (Ne.symm here) missing)
    · exact .inr ⟨c :: before, last, rfl, missing⟩

theorem afterLast_append {last : List Char} (missing : separator ∉ last) (before : List Char) :
    afterLast separator (before ++ separator :: last) = last := by
  have other : ∀ c ∈ last.reverse, decide (c ≠ separator) = true := by
    intro c member
    rw [List.mem_reverse] at member
    exact decide_eq_true fun same => missing (same ▸ member)
  rw [afterLast, List.reverse_append, List.reverse_cons, List.append_assoc,
    List.takeWhile_append_of_pos other]
  simp

theorem afterLast_of_not_mem {text : List Char} (missing : separator ∉ text) :
    afterLast separator text = text := by
  have other : ∀ c ∈ text.reverse, decide (c ≠ separator) = true := by
    intro c member
    rw [List.mem_reverse] at member
    exact decide_eq_true fun same => missing (same ▸ member)
  rw [afterLast, List.takeWhile_eq_self_iff.mpr other, List.reverse_reverse]

/-- The last piece is what follows the last separator. -/
theorem pieces_afterLast (separator : Char) (text : List Char) :
    ∃ before, pieces separator text = before ++ [afterLast separator text] := by
  rcases last_separator separator text with missing | ⟨before, last, rfl, missing⟩
  · exact ⟨[], by rw [pieces_of_not_mem missing, afterLast_of_not_mem missing]; rfl⟩
  · refine ⟨pieces separator before, ?_⟩
    rw [pieces_append, pieces_of_not_mem missing, afterLast_append missing]

end Text

namespace Path

variable {path base name : String}

/-- A name that an entry can have: it is not empty, holds no slash and is no way to say where one is
or to go up. -/
structure IsName (name : String) : Prop where
  nonempty : name ≠ ""
  noSlash : '/' ∉ name.toList
  notHere : name ≠ "."
  notUp : name ≠ ".."

instance (name : String) : Decidable (IsName name) :=
  decidable_of_iff (name ≠ "" ∧ '/' ∉ name.toList ∧ name ≠ "." ∧ name ≠ "..")
    ⟨fun all => ⟨all.1, all.2.1, all.2.2.1, all.2.2.2⟩,
      fun isName => ⟨isName.nonempty, isName.noSlash, isName.notHere, isName.notUp⟩⟩

/-- The segments of a path that lead somewhere. -/
def steps (path : String) : List String := (segments path).filter (!Disk.isIdle ·)

theorem IsName.not_idle (isName : IsName name) : Disk.isIdle name = false := by
  rw [Disk.isIdle, beq_eq_false_iff_ne.mpr isName.nonempty, beq_eq_false_iff_ne.mpr isName.notHere]
  rfl

theorem IsName.segments (isName : IsName name) : segments name = [name] := by
  rw [Path.segments, Text.pieces_of_not_mem isName.noSlash, List.map_singleton,
    String.ofList_toList]

theorem IsName.steps (isName : IsName name) : steps name = [name] := by
  rw [Path.steps, isName.segments, List.filter_singleton, isName.not_idle]
  rfl

theorem IsName.not_root (isName : IsName name) : name ≠ "/" := by
  rintro rfl
  exact isName.noSlash (by decide)

theorem IsName.relative (isName : IsName name) : isAbsolute name = false := by
  rw [isAbsolute]
  cases chars : name.toList with
  | nil => rfl
  | cons c more =>
    apply beq_eq_false_iff_ne.mpr
    intro slash
    refine isName.noSlash ?_
    rw [chars, Option.some.inj slash]
    exact List.mem_cons_self

/-! ### Paths below paths -/

/-- What stands before a relative path when it is put below a base: nothing, or the base up to a
slash. -/
theorem join_cases (relative : isAbsolute name = false) (base : String) :
    (base = "" ∧ join base name = name) ∨
      ∃ front, (base.toList = front ∨ base.toList = front ++ ['/']) ∧ base ≠ "" ∧
        (join base name).toList = front ++ '/' :: name.toList := by
  -- Bases and paths are put together with their last character first.
  have below_eq (last : Char) (before : List Char) :
      below (last :: before) name.toList =
        if last = '/' then name.toList.reverse ++ '/' :: before
        else name.toList.reverse ++ '/' :: last :: before := by
    unfold below
    split
    next chars =>
      rw [isAbsolute, chars] at relative
      cases relative
    next empty _ => cases empty
    next same _ =>
      obtain ⟨rfl, rfl⟩ := List.cons.inj same
      rw [if_pos rfl]
    next _ _ other =>
      rw [if_neg fun slash => other before (by rw [slash])]
  cases chars : base.toList.reverse with
  | nil =>
    obtain rfl : base = "" := String.toList_eq_nil_iff.mp (List.reverse_eq_nil_iff.mp chars)
    refine .inl ⟨rfl, ?_⟩
    have joined : below [] name.toList = name.toList.reverse := by
      unfold below
      split <;> simp_all
    rw [join, chars, joined, List.reverse_reverse, String.ofList_toList]
  | cons last before =>
    have text := List.reverse_eq_iff.mp chars
    rw [List.reverse_cons] at text
    have nonempty : base ≠ "" := by
      rintro rfl
      cases chars
    refine .inr ?_
    rw [join, chars, below_eq, String.toList_ofList]
    split
    next slash =>
      refine ⟨before.reverse, .inr ?_, nonempty, by simp⟩
      rw [text, slash]
    next => exact ⟨base.toList, .inl rfl, nonempty, by simp [text]⟩

theorem steps_eq {front : List Char} (chars : path.toList = front ++ '/' :: name.toList) :
    steps path = steps (String.ofList front) ++ steps name := by
  rw [steps, steps, steps, segments, segments, segments, chars, Text.pieces_append,
    String.toList_ofList, List.map_append, List.filter_append]

theorem steps_join (relative : isAbsolute name = false) (base : String) :
    steps (join base name) = steps base ++ steps name := by
  rcases join_cases relative base with ⟨rfl, joined⟩ | ⟨front, chars, _, joined⟩
  · rw [joined]
    rfl
  · rw [steps_eq joined]
    rcases chars with same | slash
    · rw [← same, String.ofList_toList]
    · have empty : base.toList = front ++ '/' :: "".toList := slash
      rw [steps_eq empty]
      exact congrArg (· ++ _) (List.append_nil _).symm

theorem isAbsolute_join (relative : isAbsolute name = false) (base : String) :
    isAbsolute (join base name) = isAbsolute base := by
  rcases join_cases relative base with ⟨rfl, joined⟩ | ⟨front, chars, nonempty, joined⟩
  · rw [joined, relative]
    rfl
  · rw [isAbsolute, isAbsolute, joined]
    rcases chars with same | slash
    · rw [same]
      cases front with
      | nil => exact absurd (String.toList_eq_nil_iff.mp same) nonempty
      | cons => rfl
    · rw [slash]
      cases front <;> rfl

theorem fileName_join (relative : isAbsolute name = false) (base : String) :
    fileName (join base name) = fileName name := by
  rcases join_cases relative base with ⟨rfl, joined⟩ | ⟨front, _, _, joined⟩
  · rw [joined]
  · rw [fileName, fileName, joined]
    rcases Text.last_separator '/' name.toList with missing | ⟨before, last, chars, missing⟩
    · rw [Text.afterLast_append missing, Text.afterLast_of_not_mem missing]
    · rw [chars, Text.afterLast_append missing, ← List.cons_append, ← List.append_assoc,
        Text.afterLast_append missing]

/-- Below a base that is not empty every name makes a path longer. -/
theorem utf8ByteSize_lt_join (isName : IsName name) (nonempty : base ≠ "") :
    base.utf8ByteSize < (join base name).utf8ByteSize := by
  rcases join_cases isName.relative base with ⟨rfl, _⟩ | ⟨front, chars, _, joined⟩
  · exact absurd rfl nonempty
  · have some : name.utf8ByteSize ≠ 0 :=
      fun none => isName.nonempty (String.utf8ByteSize_eq_zero_iff.mp none)
    have whole : join base name = String.ofList front ++ "/" ++ name := by
      rw [← String.toList_inj, joined]
      simp
    have sum : (join base name).utf8ByteSize =
        (String.ofList front ++ "/").utf8ByteSize + name.utf8ByteSize := by
      rw [whole, String.utf8ByteSize_append]
    rcases chars with same | slash
    · have text : base = String.ofList front := by rw [← same, String.ofList_toList]
      rw [String.utf8ByteSize_append, ← text] at sum
      omega
    · have text : base = String.ofList front ++ "/" := by
        rw [← String.toList_inj, slash]
        simp
      rw [← text] at sum
      omega

theorem joinAll_append (paths : List (List Char)) (path : List Char) :
    joinAll (paths ++ [path]) = join (joinAll paths) (String.ofList path) := by
  rw [joinAll, joinAll, join, List.foldl_append, String.toList_ofList, List.reverse_reverse,
    String.toList_ofList]
  rfl

/-- Names one below the other make a relative path with these names for its steps, and its file is
the last of them. -/
theorem joinAll_names (names : List (List Char))
    (areNames : ∀ n ∈ names, IsName (String.ofList n)) :
    isAbsolute (joinAll names) = false ∧ steps (joinAll names) = names.map String.ofList := by
  induction names using List.reverseRecOn with
  | nil => exact ⟨rfl, rfl⟩
  | append_singleton names last ih =>
    obtain ⟨relative, same⟩ := ih fun n listed => areNames n (List.mem_append_left _ listed)
    have isName := areNames last (List.mem_append_right _ (List.mem_singleton_self last))
    rw [joinAll_append, isAbsolute_join isName.relative, steps_join isName.relative, same,
      isName.steps, List.map_append]
    exact ⟨relative, rfl⟩

/-! ### The parent of a path -/

theorem withoutIdle_cons (last before : String) (rest : List String) :
    withoutIdle (last :: before :: rest) =
      if Disk.isIdle last then withoutIdle (before :: rest) else last :: before :: rest := by
  rw [withoutIdle]
  rfl

/-- Of segments, last one first, those that are dropped lead nowhere, and the first of all stays. -/
theorem withoutIdle_spec (segments : List String) :
    (withoutIdle segments).filter (!Disk.isIdle ·) = segments.filter (!Disk.isIdle ·) ∧
      (withoutIdle segments).getLast? = segments.getLast? ∧
      ∀ s ∈ withoutIdle segments, s ∈ segments := by
  induction segments with
  | nil => exact ⟨rfl, rfl, fun _ => id⟩
  | cons last rest ih =>
    cases rest with
    | nil => exact ⟨rfl, rfl, fun _ => id⟩
    | cons before rest =>
      rw [withoutIdle_cons]
      split
      next idle =>
        refine ⟨?_, ?_, fun s listed => .tail last (ih.2.2 s listed)⟩
        · exact ih.1.trans (List.filter_cons_of_neg (by rw [idle]; decide)).symm
        · rw [ih.2.1]
          rfl
      next => exact ⟨rfl, rfl, fun _ => id⟩

/-- A path that is put together of segments has these segments. -/
theorem segments_intercalate {parts : List String} (nonempty : parts ≠ [])
    (noSlash : ∀ s ∈ parts, '/' ∉ s.toList) :
    segments (String.intercalate "/" parts) = parts := by
  induction parts with
  | nil => exact absurd rfl nonempty
  | cons first rest ih =>
    rw [List.forall_mem_cons] at noSlash
    have alone : segments first = [first] := by
      rw [segments, Text.pieces_of_not_mem noSlash.1, List.map_singleton, String.ofList_toList]
    cases rest with
    | nil => rw [String.intercalate_singleton, alone]
    | cons next rest =>
      have chars : (String.intercalate "/" (first :: next :: rest)).toList =
          first.toList ++ '/' :: (String.intercalate "/" (next :: rest)).toList := by
        rw [String.intercalate_cons_cons]
        simp
      rw [segments, chars, Text.pieces_append, List.map_append]
      change segments first ++ segments _ = _
      rw [alone, ih (List.cons_ne_nil next rest) noSlash.2]
      rfl

theorem noSlash_of_mem_segments {s : String} (listed : s ∈ segments path) : '/' ∉ s.toList := by
  obtain ⟨part, isPart, rfl⟩ := List.mem_map.mp listed
  rw [String.toList_ofList]
  exact Text.not_mem_of_mem_pieces isPart

/-- A path is absolute when there is an empty segment before others. -/
theorem isAbsolute_iff {first : String} {rest : List String} (cut : segments path = first :: rest) :
    isAbsolute path = true ↔ first = "" ∧ rest ≠ [] := by
  rw [isAbsolute, beq_iff_eq]
  cases chars : path.toList with
  | nil =>
    rw [segments, chars] at cut
    obtain ⟨_, rfl⟩ := List.cons.inj cut
    simp
  | cons c more =>
    rw [List.head?_cons, Option.some_inj]
    by_cases slash : c = '/'
    · have parts := Text.pieces_append '/' [] more
      rw [segments, chars, slash, ← List.nil_append ('/' :: more), parts, List.map_append] at cut
      obtain ⟨rfl, rfl⟩ := List.cons.inj cut
      refine iff_of_true slash ⟨rfl, ?_⟩
      obtain ⟨before, last⟩ := Text.pieces_afterLast '/' more
      rw [last]
      simp
    · obtain ⟨others, parts⟩ := Text.piecesFrom_eq '/' (c :: more) [] []
      rw [segments, chars, Text.pieces, parts] at cut
      obtain ⟨rfl, _⟩ := List.cons.inj cut
      refine iff_of_false slash fun empty => ?_
      simp [slash] at empty

theorem segments_fileName (path : String) :
    ∃ before, segments path = before ++ [fileName path] := by
  obtain ⟨pieces, cut⟩ := Text.pieces_afterLast '/' path.toList
  refine ⟨pieces.map String.ofList, ?_⟩
  rw [segments, cut, List.map_append]
  rfl

/-- The parent of a path has the segments before the last, but for some that lead nowhere. -/
private theorem parent_spec (path : String) :
    ∃ before, segments path = before ++ [fileName path] ∧
      steps (parent path) = before.filter (!Disk.isIdle ·) ∧
      isAbsolute (parent path) = isAbsolute path := by
  obtain ⟨before, whole⟩ := segments_fileName path
  refine ⟨before, whole, ?_⟩
  obtain ⟨same, head, kept⟩ := withoutIdle_spec before.reverse
  rw [List.getLast?_reverse] at head
  rw [List.filter_reverse] at same
  have absolute : isAbsolute path = true ↔ before.head? = some "" := by
    cases before with
    | nil => simp [isAbsolute_iff whole]
    | cons first before =>
      rw [isAbsolute_iff whole]
      simp
  have tail : (segments path).reverse.tail = before.reverse := by
    rw [whole, List.reverse_append]
    rfl
  rw [parent, tail, Bool.eq_iff_iff, absolute, ← head]
  split
  next empty =>
    rw [empty] at same ⊢
    exact ⟨(List.reverse_eq_nil_iff.mp same.symm).symm, by decide⟩
  next root =>
    rw [root] at same ⊢
    exact ⟨(List.reverse_eq_nil_iff.mp same.symm).symm, by decide⟩
  next notEmpty notRoot =>
    -- What is kept is put together again, and it starts as the path does.
    generalize withoutIdle before.reverse = found at *
    have nonempty : found.reverse ≠ [] := mt List.reverse_eq_nil_iff.mp notEmpty
    have parts : segments (String.intercalate "/" found.reverse) = found.reverse := by
      refine segments_intercalate nonempty fun s listed => ?_
      have member := List.mem_reverse.mp (kept s (List.mem_reverse.mp listed))
      exact noSlash_of_mem_segments (whole ▸ List.mem_append_left _ member)
    constructor
    · rw [steps, parts, List.filter_reverse, same, List.reverse_reverse]
    · obtain ⟨first, rest, cut⟩ := List.exists_cons_of_ne_nil nonempty
      rw [isAbsolute_iff (parts.trans cut), ← List.head?_reverse, cut, List.head?_cons,
        Option.some_inj, and_iff_left_iff_imp]
      rintro rfl rfl
      exact notRoot (List.reverse_eq_iff.mp cut)

theorem isAbsolute_parent (path : String) : isAbsolute (parent path) = isAbsolute path := by
  obtain ⟨_, _, _, same⟩ := parent_spec path
  exact same

/-- The steps of a path to a file are those of its parent and the name of the file. -/
theorem steps_of_parent (leads : Disk.isIdle (fileName path) = false) :
    steps path = steps (parent path) ++ [fileName path] := by
  obtain ⟨before, cut, same, _⟩ := parent_spec path
  rw [steps, cut, List.filter_append, same, List.filter_singleton, leads]
  rfl

end Path

end TestDouble
