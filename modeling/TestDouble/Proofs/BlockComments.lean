import Mathlib.Computability.Language
import Mathlib.Order.Nat
import TestDouble.Proofs.Slices

/-!
# Block comments

A block comment is given by a regular expression, `/\*[^*]*\*+([^/*][^*]*\*+)*/`, of which the lexer
takes the longest match. Main result: `BlockComment.ends_at_first_close`. There is never more than one
match: the text up to the first `*/` behind the opening. Without such a pair nothing matches, and the
lexer gives up on all that is left.

The expression is taken apart sign by sign: whether it matches depends, behind the opening, on the
first sign and on what is left of the expression behind that. Two parts can be left (`inside`, and
`behindStar` where stars have just been read), and `commentLength?` goes from one to the other in the
same way.
-/

namespace TestDouble

open scoped Computability

/-- The longest beginning of a text that a language holds. -/
structure LongestMatch (language : Language Char) (text found : List Char) : Prop where
  isPrefix : found <+: text
  mem : found ∈ language
  longest : ∀ other, other <+: text → other ∈ language → other.length ≤ found.length

namespace BlockComment

/-! ### The regular expression -/

/-- One sign of those allowed. -/
def sign (allowed : Char → Prop) : Language Char := {text | ∃ c, allowed c ∧ text = [c]}

/-- Signs up to a star and that star with all that follow it: `[^*]*\*+`. -/
def stretch : Language Char := (sign (· ≠ '*'))∗ * (sign (· = '*') * (sign (· = '*'))∗)

/-- Where stars go on with another stretch and not with a slash: `[^/*][^*]*\*+`. -/
def group : Language Char := sign (fun c => c ≠ '/' ∧ c ≠ '*') * stretch

/-- What follows the opening: `[^*]*\*+([^/*][^*]*\*+)*/`. -/
def inside : Language Char := stretch * group∗ * sign (· = '/')

/-- What follows the first of some stars. -/
def behindStar : Language Char := (sign (· = '*'))∗ * (group∗ * sign (· = '/'))

/-- The block comments: `/\*[^*]*\*+([^/*][^*]*\*+)*/`. -/
def expression : Language Char := sign (· = '/') * (sign (· = '*') * inside)

theorem cons_mem_sign_mul {allowed : Char → Prop} {language : Language Char} {c : Char}
    {text : List Char} : c :: text ∈ sign allowed * language ↔ allowed c ∧ text ∈ language := by
  rw [Language.mem_mul]
  constructor
  · rintro ⟨_, ⟨d, isAllowed, rfl⟩, rest, mem, joined⟩
    obtain ⟨rfl, rfl⟩ := List.cons.inj joined
    exact ⟨isAllowed, mem⟩
  · rintro ⟨isAllowed, mem⟩
    exact ⟨[c], ⟨c, isAllowed, rfl⟩, text, mem, rfl⟩

theorem nil_notMem_sign_mul {allowed : Char → Prop} {language : Language Char} :
    [] ∉ sign allowed * language := by
  rw [Language.mem_mul]
  rintro ⟨_, ⟨d, -, rfl⟩, rest, -, joined⟩
  cases joined

/-- Behind a repetition, either it is over or it goes on. -/
theorem kstar_mul (repeated behind : Language Char) :
    repeated∗ * behind = behind + repeated * (repeated∗ * behind) := by
  calc repeated∗ * behind
      = (1 + repeated * repeated∗) * behind := by rw [Language.one_add_self_mul_kstar_eq_kstar]
    _ = behind + repeated * (repeated∗ * behind) := by rw [add_mul, one_mul, mul_assoc]

theorem inside_eq :
    inside = sign (· = '*') * behindStar + sign (· ≠ '*') * inside := by
  have parted : inside = (sign (· ≠ '*'))∗ * (sign (· = '*') * behindStar) := by
    simp only [inside, stretch, behindStar, mul_assoc]
  rw [parted]
  exact kstar_mul _ _

theorem behindStar_eq :
    behindStar = sign (· = '/') * 1 + sign (fun c => c ≠ '/' ∧ c ≠ '*') * inside +
      sign (· = '*') * behindStar := by
  have goesOn : group * (group∗ * sign (· = '/')) = sign (fun c => c ≠ '/' ∧ c ≠ '*') * inside := by
    simp only [group, inside, mul_assoc]
  calc behindStar
      = group∗ * sign (· = '/') + sign (· = '*') * behindStar := kstar_mul _ _
    _ = sign (· = '/') * 1 + sign (fun c => c ≠ '/' ∧ c ≠ '*') * inside +
          sign (· = '*') * behindStar := by rw [kstar_mul group, goesOn, mul_one]

theorem nil_notMem_inside : [] ∉ inside := by
  rw [inside_eq, Language.mem_add, not_or]
  exact ⟨nil_notMem_sign_mul, nil_notMem_sign_mul⟩

theorem cons_mem_inside {c : Char} {text : List Char} :
    c :: text ∈ inside ↔ if c = '*' then text ∈ behindStar else text ∈ inside := by
  rw [inside_eq, Language.mem_add, cons_mem_sign_mul, cons_mem_sign_mul, ← inside_eq]
  split <;> simp_all

theorem nil_notMem_behindStar : [] ∉ behindStar := by
  rw [behindStar_eq, Language.mem_add, Language.mem_add, not_or, not_or]
  exact ⟨⟨nil_notMem_sign_mul, nil_notMem_sign_mul⟩, nil_notMem_sign_mul⟩

theorem cons_mem_behindStar {c : Char} {text : List Char} :
    c :: text ∈ behindStar ↔
      if c = '/' then text = [] else if c = '*' then text ∈ behindStar else text ∈ inside := by
  rw [behindStar_eq, Language.mem_add, Language.mem_add, cons_mem_sign_mul, cons_mem_sign_mul,
    cons_mem_sign_mul, Language.mem_one, ← behindStar_eq]
  split
  next slash => simp [slash]
  next notSlash => split <;> simp_all

theorem mem_expression_iff {text : List Char} :
    text ∈ expression ↔ ∃ content ∈ inside, text = '/' :: '*' :: content := by
  constructor
  · intro mem
    rcases text with _ | ⟨c, _ | ⟨d, content⟩⟩
    · exact absurd mem nil_notMem_sign_mul
    · exact absurd (cons_mem_sign_mul.mp mem).2 nil_notMem_sign_mul
    · obtain ⟨rfl, opened⟩ := cons_mem_sign_mul.mp mem
      obtain ⟨rfl, matched⟩ := cons_mem_sign_mul.mp opened
      exact ⟨content, matched, rfl⟩
  · rintro ⟨content, matched, rfl⟩
    exact cons_mem_sign_mul.mpr ⟨rfl, cons_mem_sign_mul.mpr ⟨rfl, matched⟩⟩

/-! ### The scan for the end of a comment -/

open Munch (commentLength? commentLength?_cons commentLength?_append commentLength?_take)

/-- What follows the opening is matched exactly when the scan takes it all. -/
theorem mem_inside_iff (text : List Char) (n : Nat) :
    text ∈ inside ↔ commentLength? text n = some (n + text.length) := by
  -- A star may be the first half of the end, so behind one the scan looks at it once more.
  suffices both : (∀ n, text ∈ inside ↔ commentLength? text n = some (n + text.length)) ∧
      ∀ n, text ∈ behindStar ↔ commentLength? ('*' :: text) n = some (n + 1 + text.length) from
    both.1 n
  induction text with
  | nil =>
    exact ⟨fun n => iff_of_false nil_notMem_inside nofun,
      fun n => iff_of_false nil_notMem_behindStar nofun⟩
  | cons c text ih =>
    obtain ⟨inside_iff, behindStar_iff⟩ := ih
    have inner (n : Nat) : n + (c :: text).length = n + 1 + text.length := by
      rw [List.length_cons]
      omega
    constructor
    · intro n
      rw [cons_mem_inside, inner]
      split
      next star =>
        subst star
        exact behindStar_iff n
      next notStar =>
        rw [commentLength?_cons, if_neg fun closes => notStar closes.1]
        exact inside_iff (n + 1)
    · intro n
      rw [cons_mem_behindStar, inner]
      split
      next slash =>
        subst slash
        simp [commentLength?]
      next notSlash =>
        have goesOn : commentLength? ('*' :: c :: text) n = commentLength? (c :: text) (n + 1) := by
          rw [commentLength?_cons, if_neg fun closes => notSlash (Option.some.inj closes.2)]
        rw [goesOn]
        split
        next star =>
          subst star
          exact behindStar_iff (n + 1)
        next notStar =>
          rw [commentLength?_cons, if_neg fun closes => notStar closes.1]
          exact inside_iff (n + 1 + 1)

/-- A star and a slash stand at the place. -/
def ClosesAt (text : List Char) (place : Nat) : Prop := ['*', '/'] <+: text.drop place

instance (text : List Char) : DecidablePred (ClosesAt text) :=
  fun _ => inferInstanceAs (Decidable (_ <+: _))

theorem closesAt_zero {c : Char} {text : List Char} :
    ClosesAt (c :: text) 0 ↔ c = '*' ∧ text.head? = some '/' := by
  rw [ClosesAt, List.drop_zero, List.cons_prefix_cons]
  refine and_congr eq_comm ?_
  cases text with
  | nil => simp
  | cons d text => simp [eq_comm]

/-- The first pair behind the first sign is one place further on, counted from that sign. -/
theorem isLeast_closesAt_cons {c : Char} {text : List Char} (goesOn : ¬ClosesAt (c :: text) 0)
    {place : Nat} :
    IsLeast {i | ClosesAt (c :: text) i} (place + 1) ↔ IsLeast {i | ClosesAt text i} place := by
  refine and_congr Iff.rfl ⟨fun below i closes => ?_, fun below i closes => ?_⟩
  · exact Nat.le_of_succ_le_succ (below (show ClosesAt (c :: text) (i + 1) from closes))
  · cases i with
    | zero => exact absurd closes goesOn
    | succ i => exact Nat.succ_le_succ (below (show ClosesAt text i from closes))

/-- The scan ends behind the first pair. -/
theorem commentLength?_eq_some_iff {text : List Char} {n k : Nat} :
    commentLength? text n = some k ↔
      ∃ place, IsLeast {i | ClosesAt text i} place ∧ k = n + place + 2 := by
  induction text generalizing n with
  | nil =>
    refine iff_of_false nofun ?_
    rintro ⟨place, ⟨closes, -⟩, -⟩
    simp [ClosesAt] at closes
  | cons c text ih =>
    rw [commentLength?_cons]
    split
    next closes =>
      rw [← closesAt_zero] at closes
      have first : IsLeast {i | ClosesAt (c :: text) i} 0 := ⟨closes, fun i _ => Nat.zero_le i⟩
      rw [Option.some.injEq]
      constructor
      · rintro rfl
        exact ⟨0, first, rfl⟩
      · rintro ⟨place, least, rfl⟩
        rw [least.unique first, Nat.add_zero]
    next goesOn =>
      rw [← closesAt_zero] at goesOn
      rw [ih]
      constructor
      · rintro ⟨place, least, rfl⟩
        exact ⟨place + 1, (isLeast_closesAt_cons goesOn).mpr least, by omega⟩
      · rintro ⟨_ | place, least, rfl⟩
        · exact absurd least.1 goesOn
        · exact ⟨place, (isLeast_closesAt_cons goesOn).mp least, by omega⟩

/-! ### The longest match -/

/-- A beginning of an opened text is a block comment exactly when it ends with the first pair. -/
theorem prefix_mem_iff {rest found : List Char} :
    found <+: '/' :: '*' :: rest ∧ found ∈ expression ↔
      ∃ place, IsLeast {i | ClosesAt rest i} place ∧ found = '/' :: '*' :: rest.take (place + 2) := by
  constructor
  · rintro ⟨begins, matched⟩
    obtain ⟨content, inContent, rfl⟩ := mem_expression_iff.mp matched
    obtain ⟨behind, rfl⟩ : content <+: rest := by simpa using begins
    have ended := commentLength?_append ((mem_inside_iff content 0).mp inContent) behind
    obtain ⟨place, least, length⟩ := commentLength?_eq_some_iff.mp ended
    rw [Nat.zero_add, Nat.zero_add] at length
    exact ⟨place, least, by rw [← length, List.take_left]⟩
  · rintro ⟨place, least, rfl⟩
    have ended : commentLength? rest 0 = some (0 + place + 2) :=
      commentLength?_eq_some_iff.mpr ⟨place, least, rfl⟩
    obtain ⟨length, same, bound, taken⟩ := commentLength?_take ended
    obtain rfl : place + 2 = length := by omega
    refine ⟨by simpa using List.take_prefix (place + 2) rest, mem_expression_iff.mpr ⟨_, ?_, rfl⟩⟩
    rw [mem_inside_iff _ 0, taken, List.length_take_of_le bound]

theorem longestMatch_iff {rest found : List Char} :
    LongestMatch expression ('/' :: '*' :: rest) found ↔
      ∃ place, IsLeast {i | ClosesAt rest i} place ∧ found = '/' :: '*' :: rest.take (place + 2) := by
  constructor
  · intro longest
    exact prefix_mem_iff.mp ⟨longest.isPrefix, longest.mem⟩
  · rintro ⟨place, least, rfl⟩
    obtain ⟨begins, matched⟩ := prefix_mem_iff.mpr ⟨place, least, rfl⟩
    refine ⟨begins, matched, fun other begins' matched' => ?_⟩
    -- There is one first pair, so every other match is the same.
    obtain ⟨place', least', rfl⟩ := prefix_mem_iff.mp ⟨begins', matched'⟩
    rw [least'.unique least]

theorem exists_prefix_mem_iff {rest : List Char} :
    (∃ found, found <+: '/' :: '*' :: rest ∧ found ∈ expression) ↔ ∃ place, ClosesAt rest place := by
  simp only [prefix_mem_iff]
  constructor
  · rintro ⟨_, place, least, -⟩
    exact ⟨place, least.1⟩
  · intro closes
    exact ⟨_, _, Nat.isLeast_find closes, rfl⟩

section

variable (location : Location) (done : List Piece) {rest found : List Char}

/-- The piece at a comment is the comment. -/
theorem cut_of_mem (begins : found <+: '/' :: '*' :: rest) (matched : found ∈ expression) :
    Piece.cut location ('/' :: '*' :: rest) done =
      Piece.cut (location.after found) (('/' :: '*' :: rest).drop found.length)
        (⟨some .blockComment, String.ofList found, location⟩ :: done) := by
  obtain ⟨content, inContent, rfl⟩ := mem_expression_iff.mp matched
  obtain ⟨behind, rfl⟩ : content <+: rest := by simpa using begins
  have ended := commentLength?_append ((mem_inside_iff content 0).mp inContent) behind
  have munched : Munch.munch '/' ('*' :: (content ++ behind)) =
      (some .blockComment, content.length + 1) := by
    rw [Nat.zero_add] at ended
    simp only [Munch.munch, Munch.slash, ended]
  rw [Piece.cut]
  simp only [munched, List.length_cons, List.take_succ_cons, List.drop_succ_cons, List.take_left,
    List.drop_left]

/-- A comment that never ends takes all the text. -/
theorem cut_of_not_closesAt (unclosed : ¬∃ place, ClosesAt rest place) :
    Piece.cut location ('/' :: '*' :: rest) done =
      (⟨none, String.ofList ('/' :: '*' :: rest), location⟩ :: done).reverse := by
  have endless : commentLength? rest 0 = none := by
    rw [Option.eq_none_iff_forall_ne_some]
    intro k ended
    obtain ⟨place, least, -⟩ := commentLength?_eq_some_iff.mp ended
    exact unclosed ⟨place, least.1⟩
  have munched : Munch.munch '/' ('*' :: rest) = (none, rest.length + 1) := by
    simp only [Munch.munch, Munch.slash, endless]
  rw [Piece.cut]
  simp only [munched, List.take_succ_cons, List.drop_succ_cons, List.take_length, List.drop_length]
  rw [Piece.cut]

end

/-- Of a text that opens a block comment, the longest match of the regular expression reaches up to
the first star and slash behind the opening, and nothing matches exactly when there is no such pair.
Wherever the lexer comes to the text, its next piece is that match, a block comment, or it is all of
the text and no token. -/
theorem ends_at_first_close (rest : List Char) (location : Location) (done : List Piece) :
    let text := '/' :: '*' :: rest
    (∀ found, LongestMatch expression text found ↔
      ∃ place, IsLeast {i | ClosesAt rest i} place ∧
        found = '/' :: '*' :: rest.take (place + 2)) ∧
    ((∃ found, found <+: text ∧ found ∈ expression) ↔ ∃ place, ClosesAt rest place) ∧
    ((∃ found, LongestMatch expression text found ∧
        Piece.cut location text done =
          Piece.cut (location.after found) (text.drop found.length)
            (⟨some .blockComment, String.ofList found, location⟩ :: done)) ∨
      (¬∃ found, found <+: text ∧ found ∈ expression) ∧
        Piece.cut location text done = (⟨none, String.ofList text, location⟩ :: done).reverse) := by
  intro text
  refine ⟨fun found => longestMatch_iff, exists_prefix_mem_iff, ?_⟩
  by_cases closed : ∃ place, ClosesAt rest place
  · left
    have least := Nat.isLeast_find closed
    have longest := longestMatch_iff.mpr ⟨_, least, rfl⟩
    exact ⟨_, longest, cut_of_mem location done longest.isPrefix longest.mem⟩
  · right
    exact ⟨fun matched => closed (exists_prefix_mem_iff.mp matched),
      cut_of_not_closesAt location done closed⟩

end BlockComment

end TestDouble
