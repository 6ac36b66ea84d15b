import TestDouble.Proofs.LiteralTexts
import TestDouble.Proofs.TypeSpelling

/-!
# Class literals

The type that a class literal names is found in its text: what stands before `.class`, less the bracket
pairs at its end. Main statements: `Token.MakeUp.ends_in_class_iff`, which says what tokens a text that
ends in `.class` has, and `ClassLiteral.isLiteral_type_iff`, which says when the tokens of a class literal
are taken for the type they name.
-/

namespace TestDouble

open Unicode (isBlank)

/-! ### What the text of a class literal names -/

/-- Bracket pairs, with white space before each of them. -/
inductive Text.Pairs : List Char → Nat → Prop where
  | nil : Pairs [] 0
  | cons {blanks text : List Char} {n : Nat} : (∀ c ∈ blanks, isBlank c = true) → Pairs text n →
      Pairs (blanks ++ '[' :: ']' :: text) (n + 1)

/-- Neither white space nor a bracket pair stands at the end of the text. -/
structure Text.IsBase (text : List Char) : Prop where
  solid : ∀ c, text.getLast? = some c → isBlank c = false
  bare : ¬['[', ']'] <:+ text

/-- The text is a class literal of the type: what the type is called, its bracket pairs, and `.class`,
with white space before the pairs and the dot. -/
def TypeRef.IsLiteral (literal : String) (t : TypeRef) : Prop :=
  ∃ base pairs blanks n, literal.toList = base ++ pairs ++ blanks ++ ".class".toList ∧ base ≠ [] ∧
    Text.IsBase base ∧ Text.Pairs pairs n ∧ (∀ c ∈ blanks, isBlank c = true) ∧
    t = { named (String.ofList base) with dimensions := n }

/-- Nothing but bracket pairs and white space stands before `.class`. -/
def Text.Nameless (literal : String) : Prop :=
  ∃ pairs blanks n, literal.toList = pairs ++ blanks ++ ".class".toList ∧ Text.Pairs pairs n ∧
    ∀ c ∈ blanks, isBlank c = true

namespace Text

variable {base text pairs blanks : List Char} {n : Nat}

theorem Pairs.concat (paired : Pairs text n) (blank : ∀ c ∈ blanks, isBlank c = true) :
    Pairs (text ++ (blanks ++ ['[', ']'])) (n + 1) := by
  induction paired with
  | nil => exact .cons blank .nil
  | cons blankBefore _ ih => simpa using Pairs.cons blankBefore ih

/-- The last pair of several. -/
theorem Pairs.eq_concat (paired : Pairs text (n + 1)) :
    ∃ before blanks, text = before ++ (blanks ++ ['[', ']']) ∧ Pairs before n ∧
      ∀ c ∈ blanks, isBlank c = true := by
  induction n generalizing text with
  | zero =>
    cases paired with
    | @cons blanks text _ blank later =>
    cases later
    exact ⟨[], blanks, rfl, .nil, blank⟩
  | succ n ih =>
    cases paired with
    | @cons first text _ blankFirst later =>
    obtain ⟨before, blanks, rfl, earlier, blank⟩ := ih later
    exact ⟨first ++ '[' :: ']' :: before, blanks, by simp, .cons blankFirst earlier, blank⟩

theorem Pairs.starts (paired : Pairs pairs n) (blank : ∀ c ∈ blanks, isBlank c = true) {c : Char}
    (first : (pairs ++ blanks ++ ".class".toList).head? = some c) :
    isBlank c = true ∨ c ∈ ['[', '.'] := by
  cases paired with
  | nil =>
    cases blanks with
    | nil =>
      obtain rfl : '.' = c := Option.some.inj first
      exact .inr (by decide)
    | cons d blanks =>
      obtain rfl : d = c := Option.some.inj first
      exact .inl (blank d (by simp))
  | @cons before _ _ blankBefore _ =>
    cases before with
    | nil =>
      obtain rfl : '[' = c := Option.some.inj first
      exact .inr (by decide)
    | cons d before =>
      obtain rfl : d = c := Option.some.inj first
      exact .inl (blankBefore d (by simp))

/-- No white space stands at the end of bracket pairs. -/
theorem IsBase.solid_append (isBase : IsBase base) (paired : Pairs pairs n) :
    ∀ c, (base ++ pairs).getLast? = some c → isBlank c = false := by
  cases n with
  | zero =>
    cases paired
    simpa using isBase.solid
  | succ n =>
    obtain ⟨before, blanks, rfl, -, -⟩ := paired.eq_concat
    intro c ends
    rw [← List.append_assoc, ← List.append_assoc, List.getLast?_append] at ends
    obtain rfl : ']' = c := Option.some.inj ends
    decide

theorem dropWhile_blanks (blank : ∀ c ∈ blanks, isBlank c = true)
    (solid : ∀ c, text.getLast? = some c → isBlank c = false) :
    (text ++ blanks).reverse.dropWhile isBlank = text.reverse := by
  have blankBehind : ∀ c ∈ blanks.reverse, isBlank c = true :=
    fun c member => blank c (List.mem_reverse.mp member)
  rw [List.reverse_append, List.dropWhile_append_of_pos blankBehind]
  rw [← List.head?_reverse] at solid
  cases reversed : text.reverse with
  | nil => rfl
  | cons c rest =>
    rw [reversed] at solid
    rw [List.dropWhile_cons_of_neg (by simp [solid c rfl])]

/-- White space behind a text that neither starts nor ends with any is removed. -/
theorem trim_behind (blank : ∀ c ∈ blanks, isBlank c = true)
    (starts : ∀ c, text.head? = some c → isBlank c = false)
    (solid : ∀ c, text.getLast? = some c → isBlank c = false) : trim (text ++ blanks) = text := by
  cases text with
  | nil =>
    have none := List.dropWhile_eq_nil_iff.mpr blank
    rw [List.nil_append, trim, none]
    rfl
  | cons c text =>
    rw [trim, List.cons_append, List.dropWhile_cons_of_neg (by simp [starts c rfl]),
      ← List.cons_append, trimEnd, dropWhile_blanks blank solid, List.reverse_reverse]

/-- Every text is a base with bracket pairs behind it, and white space behind these. -/
theorem exists_parts (text : List Char) :
    ∃ base pairs blanks n, text = base ++ pairs ++ blanks ∧ IsBase base ∧ Pairs pairs n ∧
      ∀ c ∈ blanks, isBlank c = true := by
  have bracketed (name : List Char) (k : Nat)
      (solid : ∀ c, name.head? = some c → isBlank c = false) :
      ∃ base pairs n, name.reverse = base ++ pairs ∧ IsBase base ∧ Pairs pairs n := by
    -- The name is read from its end, so the induction takes the last pair off first.
    induction name, k using TypeRef.ofReversedName?.induct with
    | case1 => exact ⟨[], [], 0, rfl, ⟨nofun, by simp⟩, .nil⟩
    | case2 k rest ih =>
      obtain ⟨base, pairs, n, whole, isBase, paired⟩ := ih fun c => Munch.head_dropWhile rest
      have blank : ∀ c ∈ (rest.takeWhile isBlank).reverse, isBlank c = true := fun c member =>
        List.all_eq_true.mp List.all_takeWhile c (List.mem_reverse.mp member)
      refine ⟨base, _, n + 1, ?_, isBase, paired.concat blank⟩
      rw [← List.append_assoc, ← whole, ← List.append_assoc, ← List.reverse_append,
        List.takeWhile_append_dropWhile]
      simp
    | case3 k name _ notPair =>
      refine ⟨name.reverse, [], 0, by simp, ⟨?_, ?_⟩, .nil⟩
      · rwa [List.getLast?_reverse]
      · rintro ⟨front, ends⟩
        exact notPair front.reverse (by rw [← List.reverse_reverse name, ← ends]; simp)
  have blank : ∀ c ∈ (text.reverse.takeWhile isBlank).reverse, isBlank c = true := fun c member =>
    List.all_eq_true.mp List.all_takeWhile c (List.mem_reverse.mp member)
  obtain ⟨base, pairs, n, whole, isBase, paired⟩ :=
    bracketed (text.reverse.dropWhile isBlank) 0 fun c => Munch.head_dropWhile text.reverse
  refine ⟨base, pairs, _, n, ?_, isBase, paired, blank⟩
  rw [← whole, ← List.reverse_append, List.takeWhile_append_dropWhile, List.reverse_reverse]

end Text

/-- Behind a word, neither white space nor a bracket pair ends. -/
theorem Text.IsBase.of_word {word : List Char} (isWord : Munch.isWord word = true)
    (front : List Char) : IsBase (front ++ word) := by
  have continues (d : Char) (final : (front ++ word).getLast? = some d) :
      Munch.continuesWord d = true := by
    apply Munch.continuesWord_of_isWord isWord
    rw [List.getLast?_append] at final
    cases closes : word.getLast? with
    | none =>
      rw [List.getLast?_eq_none_iff.mp closes] at isWord
      cases isWord
    | some e =>
      rw [closes] at final
      rw [← Option.some.inj final]
      exact List.mem_of_getLast? closes
  constructor
  · intro d final
    by_contra blank
    have edge : Munch.isEdge d = true := by simp [Munch.isEdge, continues d final]
    rw [Munch.isEdge_of_isBlank (by simpa using blank)] at edge
    cases edge
  · rintro ⟨before, whole⟩
    have closed := continues ']' (by rw [← whole, List.getLast?_append]; rfl)
    exact absurd closed (by decide)

namespace TypeRef

open Text (IsBase Pairs)

/-- A base with bracket pairs behind it is taken for what it is. -/
theorem ofReversedName?_eq {base pairs : List Char} {n : Nat} (isBase : IsBase base)
    (paired : Pairs pairs n) (k : Nat) : ofReversedName? (base ++ pairs).reverse k =
      if base = [] then none
      else some { named (String.ofList base) with dimensions := k + n } := by
  -- On the number of pairs, of which the last is the first to be read.
  induction n generalizing pairs k with
  | zero =>
    cases paired
    rw [List.append_nil, ofReversedName?.eq_def]
    split
    next none => rw [if_pos (List.reverse_eq_nil_iff.mp none)]
    next rest bracketed =>
      have suffix : ['[', ']'] <:+ base := ⟨rest.reverse, by
        rw [← List.reverse_reverse base, bracketed]
        simp⟩
      exact absurd suffix isBase.bare
    next notEmpty _ =>
      rw [if_neg fun none => notEmpty (by rw [none]; rfl), List.reverse_reverse, Nat.add_zero]
  | succ n ih =>
    obtain ⟨before, blanks, rfl, earlier, blank⟩ := paired.eq_concat
    have whole : (base ++ (before ++ (blanks ++ ['[', ']']))).reverse =
        ']' :: '[' :: ((base ++ before) ++ blanks).reverse := by simp
    rw [whole, ofReversedName?, Text.dropWhile_blanks blank (isBase.solid_append earlier),
      ih earlier (k + 1), Nat.add_right_comm, Nat.add_assoc]

/-- What a literal names once the white space around it is gone. -/
theorem ofClassLiteral?_eq {literal : String} {base pairs blanks : List Char} {n : Nat}
    (trimmed : Text.trim literal.toList = base ++ pairs ++ blanks ++ ".class".toList)
    (starts : ∀ c, (base ++ pairs).head? = some c → isBlank c = false) (isBase : IsBase base)
    (paired : Pairs pairs n) (blank : ∀ c ∈ blanks, isBlank c = true) :
    ofClassLiteral? literal =
      if base = [] then none else some { named (String.ofList base) with dimensions := n } := by
  have ended : Text.withoutEnding? ".class".toList (base ++ pairs ++ blanks ++ ".class".toList) =
      some (base ++ pairs ++ blanks) := by
    rw [Text.withoutEnding?, if_pos (List.isSuffixOf_iff_suffix.mpr ⟨_, rfl⟩), List.length_append,
      Nat.add_sub_cancel, List.take_left]
  rw [ofClassLiteral?, trimmed, ended]
  dsimp only
  rw [Text.trim_behind blank starts (isBase.solid_append paired), ofReversedName?_eq isBase paired,
    Nat.zero_add]

end TypeRef

namespace Token.MakeUp

variable {tokens : List Token} {text : String}

theorem ofClassLiteral?_eq (made : MakeUp tokens text) {base pairs blanks : List Char} {n : Nat}
    (whole : text.toList = base ++ pairs ++ blanks ++ ".class".toList) (isBase : Text.IsBase base)
    (paired : Text.Pairs pairs n) (blank : ∀ c ∈ blanks, isBlank c = true) :
    TypeRef.ofClassLiteral? text =
      if base = [] then none
      else some { TypeRef.named (String.ofList base) with dimensions := n } := by
  -- The text starts with no white space, so what stands before `.class` starts with none.
  have starts : ∀ c, (base ++ pairs).head? = some c → isBlank c = false := by
    intro c first
    obtain ⟨d, opens, solid, -⟩ := made.starts (List.head?_eq_some_head made.nonempty)
    rw [whole, List.append_assoc, List.head?_append, first, Option.some_or] at opens
    rwa [← Option.some.inj opens] at solid
  exact TypeRef.ofClassLiteral?_eq (made.trim_eq.trans whole) starts isBase paired blank

theorem ofClassLiteral?_eq_some_iff (made : MakeUp tokens text) {t : TypeRef} :
    TypeRef.ofClassLiteral? text = some t ↔ TypeRef.IsLiteral text t := by
  constructor
  · intro found
    have ended : ∃ before, text.toList = before ++ ".class".toList := by
      rw [TypeRef.ofClassLiteral?, made.trim_eq] at found
      split at found
      next before isEnding => exact ⟨before, Text.append_of_withoutEnding? isEnding⟩
      next => cases found
    obtain ⟨before, whole⟩ := ended
    obtain ⟨base, pairs, blanks, n, rfl, isBase, paired, blank⟩ := Text.exists_parts before
    rw [made.ofClassLiteral?_eq whole isBase paired blank] at found
    split at found
    next => cases found
    next nonempty =>
      exact ⟨base, pairs, blanks, n, whole, nonempty, isBase, paired, blank,
        (Option.some.inj found).symm⟩
  · rintro ⟨base, pairs, blanks, n, whole, nonempty, isBase, paired, blank, rfl⟩
    rw [made.ofClassLiteral?_eq whole isBase paired blank, if_neg nonempty]

/-- A text is a class literal of some type exactly when it ends in `.class` and has a name before
that. -/
theorem isLiteral_iff (made : MakeUp tokens text) :
    (∃ t, TypeRef.IsLiteral text t) ↔ ".class".toList <:+ text.toList ∧ ¬Text.Nameless text := by
  constructor
  · rintro ⟨t, isLiteral⟩
    have found := made.ofClassLiteral?_eq_some_iff.mpr isLiteral
    obtain ⟨base, pairs, blanks, n, whole, -⟩ := isLiteral
    refine ⟨⟨_, whole.symm⟩, ?_⟩
    rintro ⟨pairs, blanks, n, nameless, paired, blank⟩
    -- With an empty base nothing would have been found.
    have noBase : text.toList = [] ++ pairs ++ blanks ++ ".class".toList := nameless
    rw [made.ofClassLiteral?_eq noBase ⟨nofun, by simp⟩ paired blank, if_pos rfl] at found
    cases found
  · rintro ⟨⟨before, whole⟩, named⟩
    obtain ⟨base, pairs, blanks, n, rfl, isBase, paired, blank⟩ := Text.exists_parts before
    have nonempty : base ≠ [] := by
      rintro rfl
      exact named ⟨pairs, blanks, n, whole.symm, paired, blank⟩
    exact ⟨_, base, pairs, blanks, n, whole.symm, nonempty, isBase, paired, blank, rfl⟩

end Token.MakeUp

/-! ### What the tokens of a class literal are -/

namespace Munch

/-- Signs that what is skipped between tokens starts or ends with. -/
def isGapEdge (c : Char) : Bool := isSpace c || c == '\uFEFF' || c == '/'

set_option maxRecDepth 8000 in
theorem isGapEdge_of_startsWord {c : Char} (starts : startsWord c = true) : isGapEdge c = false := by
  have notMark : c ≠ '\uFEFF' ∧ c ≠ '/' := by
    constructor <;> rintro rfl <;> exact absurd starts (by decide)
  simp [isGapEdge, not_isSpace_of_startsWord starts, notMark]

private theorem comment_ends {comment : List Char} {n : Nat}
    (ended : commentLength? comment n = some (n + comment.length)) :
    comment.getLast? = some '/' := by
  induction comment generalizing n with
  | nil => cases ended
  | cons c comment ih =>
    rw [commentLength?_cons] at ended
    split at ended
    next closes =>
      obtain ⟨-, slash⟩ := closes
      obtain ⟨more, rfl⟩ := List.head?_eq_some_iff.mp slash
      have length := Option.some.inj ended
      rw [List.length_cons, List.length_cons] at length
      obtain rfl : more = [] := List.eq_nil_of_length_eq_zero (by omega)
      rfl
    next =>
      have later := ih (n := n + 1) (by rw [ended, List.length_cons]; congr 1; omega)
      rw [List.getLast?_cons, later]
      rfl

namespace Gap

variable {gap : List Char} {d : Char}

theorem starts (isGap : Gap gap) (first : gap.head? = some d) : isGapEdge d = true := by
  cases isGap with
  | nil => cases first
  | space space _ =>
    obtain rfl := Option.some.inj first
    simp [isGapEdge, space]
  | mark _ | line _ _ | block _ _ =>
    obtain rfl := Option.some.inj first
    decide

private theorem ends_append {front text : List Char} {e : Char} (closed : front.getLast? = some e)
    (edge : isGapEdge e = true) (behind : text.getLast? = some d → isGapEdge d = true)
    (last : (front ++ text).getLast? = some d) : isGapEdge d = true := by
  rw [List.getLast?_append, closed] at last
  cases final : text.getLast? with
  | none =>
    rw [final] at last
    rwa [← Option.some.inj last]
  | some f =>
    rw [final] at last
    exact behind (final.trans last)

theorem ends (isGap : Gap gap) (last : gap.getLast? = some d) : isGapEdge d = true := by
  induction isGap with
  | nil => cases last
  | @space c text space _ ih =>
    have closed : [c].getLast? = some c := rfl
    exact ends_append closed (by simp [isGapEdge, space]) ih last
  | @mark text _ ih =>
    have closed : ['\uFEFF'].getLast? = some '\uFEFF' := rfl
    exact ends_append closed (by decide) ih last
  | @line comment text _ _ ih =>
    have closed : ('/' :: '/' :: comment ++ ['\n']).getLast? = some '\n' := List.getLast?_concat
    exact ends_append closed (by decide) ih (by simpa using last)
  | @block comment text ended _ ih =>
    have closed : ('/' :: '*' :: comment).getLast? = some '/' := by
      rw [List.getLast?_cons, List.getLast?_cons, comment_ends (by rw [ended, Nat.zero_add])]
      rfl
    exact ends_append closed (by decide) ih last

end Gap

namespace Shape

variable {c : Char} {w rest : List Char} {kind : Kind}

/-- A dot with a word right behind it is all that a token can be that ends in a dot or a letter and has
a letter right behind it. -/
theorem before_letter (shape : Shape c w rest kind) {d e : Char} (next : rest.head? = some d)
    (letter : d ∈ "class".toList) (last : (c :: w).getLast? = some e)
    (edge : e ∈ ".class".toList) : e = '.' ∧ (kind = .dot ∨ kind = .ellipsis) := by
  have letters : "class".toList.all (fun d => continuesWord d && isNumeral d) = true := by decide
  have continues := List.all_eq_true.mp letters d letter
  rw [Bool.and_eq_true] at continues
  -- Words and numbers do not stop before a letter; the others are told apart by their last sign.
  cases shape with
  | word _ _ stops =>
    rw [stops d next] at continues
    cases continues.1
  | number _ _ stops =>
    rw [stops d next] at continues
    cases continues.2
  | quoted _ _ closed | character _ closed =>
    rw [List.getLast?_cons, closed, Option.getD_some] at last
    obtain rfl := Option.some.inj last
    exact absurd edge (by decide)
  | ellipsis opened more =>
    subst opened more
    exact ⟨(Option.some.inj last).symm, .inr rfl⟩
  | dot opened alone =>
    subst opened alone
    exact ⟨(Option.some.inj last).symm, .inl rfl⟩
  | slash opened alone =>
    subst opened alone
    obtain rfl := Option.some.inj last
    exact absurd edge (by decide)
  | sign found alone =>
    subst alone
    obtain rfl : c = e := Option.some.inj last
    have none : ".class".toList.all (fun d => (Kind.ofCharacter? d).isNone) = true := by decide
    have noSign := List.all_eq_true.mp none c edge
    rw [found] at noSign
    cases noSign

/-- Only a number can hold a dot and a letter. -/
theorem kind_of_ending (shape : Shape c w rest kind) (ends : ".class".toList <:+ c :: w) :
    kind = .number := by
  have dot : '.' ∈ c :: w := ends.subset (by decide)
  have length := ends.length_le
  cases shape with
  | word starts continues _ =>
    rcases List.mem_cons.mp dot with first | later
    · rw [← first] at starts
      exact absurd starts (by decide)
    · exact absurd (continues '.' later) (by decide)
  | number => rfl
  | quoted _ _ closed | character _ closed =>
    obtain ⟨front, whole⟩ := ends
    have last : (c :: w).getLast? = some 's' := by
      rw [← whole, List.getLast?_append]
      rfl
    rw [List.getLast?_cons, closed] at last
    cases last
  | ellipsis _ more =>
    subst more
    simp at length
  | dot _ alone | slash _ alone | sign _ alone =>
    subst alone
    simp at length

theorem kind_of_class (shape : Shape 'c' "lass".toList [] kind) : kind = .classWord := by
  cases shape with
  | word => decide
  | number digit => cases digit
  | quoted _ opened | character opened | ellipsis opened | dot opened | slash opened => cases opened
  | sign found => cases found

end Shape

end Munch

/-- The tokens end in the word `class` right behind a dot or an ellipsis, or in a number that ends in
`.class`. -/
def Token.EndInClass (tokens : List Token) : Prop :=
  (∃ front sign word, tokens = front ++ [sign, word] ∧
    (sign.kind = .dot ∨ sign.kind = .ellipsis) ∧ word.kind = .classWord ∧ word.leading = "") ∨
  ∃ front number, tokens = front ++ [number] ∧ number.kind = .number ∧
    ".class".toList <:+ number.text.toList

/-- A cut through `.class` has a letter behind it, and a dot before it only when nothing else is. -/
theorem Text.of_cut_class {pre w : List Char} {c : Char} (some_ : pre ≠ [])
    (cut : ".class".toList = pre ++ c :: w) :
    c ∈ "class".toList ∧
      ∃ e ∈ ".class".toList, pre.getLast? = some e ∧ (e = '.' → pre = ['.']) := by
  obtain ⟨first, pre, rfl⟩ := List.exists_cons_of_ne_nil some_
  have spelled : ".class".toList = '.' :: "class".toList := by decide
  obtain ⟨isDot, inWord⟩ := List.cons.inj (spelled.symm.trans cut)
  subst isDot
  have inside : '.' :: pre <+: ".class".toList := ⟨c :: w, cut.symm⟩
  refine ⟨by rw [inWord]; simp, _, inside.subset (List.getLast_mem (List.cons_ne_nil '.' pre)),
    List.getLast?_eq_some_getLast _, fun last => ?_⟩
  cases pre with
  | nil => rfl
  | cons d more =>
    have again : '.' ∈ d :: more := by
      rw [List.getLast_cons (List.cons_ne_nil d more)] at last
      rw [← last]
      exact List.getLast_mem _
    have inLetters : '.' ∈ "class".toList := by
      rw [inWord]
      exact List.mem_append_left _ again
    exact absurd inLetters (by decide)

namespace Token.MakeUp

variable {tokens front : List Token} {t : Token} {text : String}

theorem text_eq (made : MakeUp tokens text) (member : t ∈ tokens) {spelled : String}
    (fixed : t.kind.spelling? = some spelled) : t.text = spelled :=
  (genuine_of_ofSource made.lexed member).fixed spelled fixed

/-- The text up to its last token. -/
theorem toList_concat (made : MakeUp (front ++ [t]) text) :
    text.toList = Mark.spread (front.map mark) ++ t.leading.toList ++ t.text.toList := by
  rw [made.spread, List.map_append, Mark.spread, List.flatMap_append]
  simp [Mark.spread, mark]

/-- A dot or a letter right before a last token that starts with a letter ends a dot or an ellipsis. -/
theorem sign_before (made : MakeUp (front ++ [t]) text) {c e : Char} {w : List Char}
    (spelled : t.text.toList = c :: w) (letter : c ∈ "class".toList) (sign : e ∈ ".class".toList)
    (final : (Mark.spread (front.map mark) ++ t.leading.toList).getLast? = some e) :
    e = '.' ∧ t.leading = "" ∧
      ∃ before u, front = before ++ [u] ∧ (u.kind = .dot ∨ u.kind = .ellipsis) := by
  -- What is skipped ends in white space, a mark or a slash, never in a sign of `.class`.
  have apart : t.leading.toList = [] := by
    by_contra skipped
    have closes := List.getLast?_eq_some_getLast skipped
    rw [List.getLast?_append, closes, Option.some_or] at final
    have edge := (made.gap (by simp)).ends (closes.trans final)
    have noEdge : ".class".toList.all (fun e => !Munch.isGapEdge e) = true := by decide
    have notEdge := List.all_eq_true.mp noEdge e sign
    rw [edge] at notEdge
    cases notEdge
  rw [apart, List.append_nil] at final
  obtain rfl | ⟨before, u, rfl⟩ := List.eq_nil_or_concat' front
  · cases final
  have split : MakeUp (before ++ u :: [t]) text := by simpa using made
  obtain ⟨d, v, spelledBefore, shape⟩ := split.shape
  have next : (Mark.spread ([t].map mark)).head? = some c := by
    simp [Mark.spread, mark, apart, spelled]
  have closes : (d :: v).getLast? = some e := by
    rw [List.map_append, Mark.spread, List.flatMap_append, List.getLast?_append] at final
    simpa [mark, spelledBefore] using final
  obtain ⟨isDot, kind⟩ := shape.before_letter next letter closes sign
  exact ⟨isDot, by simpa using apart, before, u, rfl, kind⟩

/-- A text whose last token starts behind a part of `.class` ends in a sign and the word. -/
theorem endInClass_of_cut (made : MakeUp (front ++ [t]) text) {pre : List Char} (some_ : pre ≠ [])
    (cut : ".class".toList = pre ++ t.text.toList)
    (final : pre <:+ Mark.spread (front.map mark) ++ t.leading.toList) :
    EndInClass (front ++ [t]) := by
  obtain ⟨c, w, spelled, shape⟩ := made.shape
  rw [spelled] at cut
  obtain ⟨letter, e, sign, last, onlyDot⟩ := Text.of_cut_class some_ cut
  have closes : (Mark.spread (front.map mark) ++ t.leading.toList).getLast? = some e := by
    obtain ⟨before, whole⟩ := final
    rw [← whole, List.getLast?_append, last, Option.some_or]
  obtain ⟨isDot, apart, before, u, rfl, kind⟩ := made.sign_before spelled letter sign closes
  -- So the part is the dot alone, and the last token spells the word.
  rw [onlyDot isDot] at cut
  have letters : ".class".toList = ['.'] ++ 'c' :: "lass".toList := by decide
  rw [letters] at cut
  obtain ⟨isC, isRest⟩ := List.cons.inj (List.append_cancel_left cut)
  subst isC isRest
  exact .inl ⟨before, u, t, by simp, kind, shape.kind_of_class, apart⟩

theorem ends_in_class_iff (made : MakeUp tokens text) :
    ".class".toList <:+ text.toList ↔ EndInClass tokens := by
  constructor
  · intro ends
    obtain rfl | ⟨front, t, rfl⟩ := List.eq_nil_or_concat' tokens
    · exact absurd rfl made.nonempty
    have whole := made.toList_concat
    have number (inside : ".class".toList <:+ t.text.toList) : EndInClass (front ++ [t]) := by
      obtain ⟨c, w, spelled, shape⟩ := made.shape
      exact .inr ⟨front, t, rfl, shape.kind_of_ending (by rwa [← spelled]), inside⟩
    -- Of two endings of a text one is an ending of the other.
    rcases List.suffix_or_suffix_of_suffix ends ⟨_, whole.symm⟩ with inside | ⟨pre, cut⟩
    · exact number inside
    · cases pre with
      | nil => exact number ⟨[], cut.symm⟩
      | cons first pre =>
        refine made.endInClass_of_cut (List.cons_ne_nil first pre) cut.symm ?_
        obtain ⟨before, joined⟩ := ends
        rw [whole, ← cut, ← List.append_assoc] at joined
        exact ⟨before, List.append_cancel_right joined⟩
  · rintro (⟨front, sign, word, rfl, isSign, isClass, apart⟩ | ⟨front, number, rfl, -, ends⟩)
    · have wordText : word.text = "class" := made.text_eq (by simp) (by rw [isClass]; rfl)
      have signText : sign.text = "." ∨ sign.text = "..." := by
        rcases isSign with isDot | isEllipsis
        · exact .inl (made.text_eq (by simp) (by rw [isDot]; rfl))
        · exact .inr (made.text_eq (by simp) (by rw [isEllipsis]; rfl))
      have split : front ++ [sign, word] = (front ++ [sign]) ++ [word] := by simp
      rw [split] at made
      rw [made.toList_concat, apart, wordText, List.map_append, Mark.spread, List.flatMap_append]
      rcases signText with isDot | isEllipsis
      · exact ⟨Mark.spread (front.map mark) ++ sign.leading.toList, by
          simp [Mark.spread, mark, isDot]⟩
      · exact ⟨Mark.spread (front.map mark) ++ sign.leading.toList ++ ['.', '.'], by
          simp [Mark.spread, mark, isEllipsis]⟩
    · exact ends.trans ⟨_, made.toList_concat.symm⟩

end Token.MakeUp

/-! ### Class literals of types without arguments -/

/-- Tokens that are brackets in pairs. -/
inductive Token.Pairs : List Token → Nat → Prop where
  | nil : Pairs [] 0
  | cons {left right : Token} {ts : List Token} {n : Nat} : left.kind = .leftBracket →
      right.kind = .rightBracket → Pairs ts n → Pairs (left :: right :: ts) (n + 1)

/-- The tokens of a class literal: a dotted name or a primitive type, bracket pairs, and `.class`. -/
structure ClassLiteral where
  name : List Token
  pairs : List Token
  dimensions : Nat
  dot : Token
  word : Token
  named : NameKinds (name.map fun t => some t.kind) ∨ ∃ p, name.map Token.kind = [.primitive p]
  paired : Token.Pairs pairs dimensions
  isDot : dot.kind = .dot
  isClass : word.kind = .classWord

namespace ClassLiteral

def tokens (l : ClassLiteral) : List Token := l.name ++ (l.pairs ++ [l.dot, l.word])

/-- The type that the tokens name. -/
def type (l : ClassLiteral) : TypeRef :=
  { TypeRef.named (String.join (l.name.map Token.text)) with dimensions := l.dimensions }

/-- Nothing is skipped in the name, between the brackets of a pair and before `class`, and only white
space before a pair and before the dot. -/
structure IsTight (l : ClassLiteral) : Prop where
  name : ∀ t ∈ l.name, t.leading = ""
  left : ∀ t ∈ l.pairs, t.kind = .leftBracket → ∀ c ∈ t.leading.toList, isBlank c = true
  right : ∀ t ∈ l.pairs, t.kind = .rightBracket → t.leading = ""
  dot : ∀ c ∈ l.dot.leading.toList, isBlank c = true
  word : l.word.leading = ""

end ClassLiteral

/-- Whether a token of the kind is a part of a name: an identifier, or a primitive type. -/
def Kind.names : Kind → Bool
  | identifier | primitive _ => true
  | _ => false

theorem NameKinds.ends {kinds : List (Option Kind)} (named : NameKinds kinds) :
    kinds.head? = some (some .identifier) ∧ kinds.getLast? = some (some .identifier) ∧
      ∀ kind ∈ kinds, kind = some .identifier ∨ kind = some .dot := by
  induction named with
  | one => simp
  | more _ ih =>
    obtain ⟨-, last, all⟩ := ih
    refine ⟨rfl, by simp [List.getLast?_cons, last], ?_⟩
    rintro kind (_ | ⟨_, _ | ⟨_, later⟩⟩)
    · exact .inl rfl
    · exact .inr rfl
    · exact all kind later

/-- A name starts and ends with a word, and holds words and dots only. -/
theorem ClassLiteral.name_ends (l : ClassLiteral) :
    (∃ first, l.name.head? = some first ∧ first.kind.names = true) ∧
      (∃ last, l.name.getLast? = some last ∧ last.kind.names = true) ∧
      ∀ t ∈ l.name, t.kind.names = true ∨ t.kind = .dot := by
  rcases l.named with dotted | ⟨p, primitive⟩
  · obtain ⟨head, last, all⟩ := dotted.ends
    rw [List.head?_map, Option.map_eq_some_iff] at head
    rw [List.getLast?_map, Option.map_eq_some_iff] at last
    obtain ⟨first, starts, firstKind⟩ := head
    obtain ⟨final, ends, finalKind⟩ := last
    refine ⟨⟨first, starts, ?_⟩, ⟨final, ends, ?_⟩, fun t member => ?_⟩
    · rw [Option.some.inj firstKind]
      rfl
    · rw [Option.some.inj finalKind]
      rfl
    · rcases all (some t.kind) (List.mem_map_of_mem member) with word | dot
      · rw [Option.some.inj word]
        exact .inl rfl
      · exact .inr (Option.some.inj dot)
  · obtain ⟨t, single, kind⟩ := List.map_eq_singleton_iff.mp primitive
    have names : t.kind.names = true := by
      rw [kind]
      rfl
    rw [single]
    exact ⟨⟨t, rfl, names⟩, ⟨t, rfl, names⟩, fun u member => by simp_all⟩

namespace Token.MakeUp

variable {tokens : List Token} {t : Token} {text : String}

theorem isWord (made : MakeUp tokens text) (member : t ∈ tokens) (names : t.kind.names = true) :
    Munch.isWord t.text.toList = true := by
  have genuine := genuine_of_ofSource made.lexed member
  cases kind : t.kind with
  | identifier => exact genuine.word kind
  | primitive p =>
    rw [genuine.fixed p.keyword (by rw [kind]; rfl)]
    exact isWord_primitive p
  | _ =>
    rw [kind] at names
    cases names

/-- The texts of tokens that start with no sign of what is skipped are told from what is skipped. -/
theorem leading_of_texts {ts : List Token} {behind behind' : List Char}
    (gaps : ∀ t ∈ ts, Munch.Gap t.leading.toList)
    (solid : ∀ t ∈ ts, ∃ c w, t.text.toList = c :: w ∧ Munch.isGapEdge c = false)
    (same : ts.flatMap (fun t => t.text.toList) ++ behind = Mark.spread (ts.map mark) ++ behind') :
    (∀ t ∈ ts, t.leading = "") ∧ behind = behind' := by
  induction ts with
  | nil => exact ⟨nofun, by simpa [Mark.spread] using same⟩
  | cons t ts ih =>
    obtain ⟨gap, gapsBehind⟩ := List.forall_mem_cons.mp gaps
    obtain ⟨⟨c, w, spelled, notGap⟩, solidBehind⟩ := List.forall_mem_cons.mp solid
    rw [List.flatMap_cons, List.map_cons, Mark.spread_cons] at same
    -- Where something is skipped, the text of the token cannot start.
    have apart : t.leading.toList = [] := by
      cases leading : t.leading.toList with
      | nil => rfl
      | cons d more =>
        simp only [mark, leading, spelled, List.cons_append, List.append_assoc] at same
        have edge := gap.starts (d := d) (by rw [leading]; rfl)
        rw [← (List.cons.inj same).1, notGap] at edge
        cases edge
    simp only [mark, apart, List.nil_append, List.append_assoc] at same
    obtain ⟨others, rest⟩ := ih gapsBehind solidBehind (List.append_cancel_left same)
    exact ⟨List.forall_mem_cons.mpr ⟨by simpa using apart, others⟩, rest⟩

end Token.MakeUp

/-- White space and a gap before the same bracket are the same. -/
theorem Munch.Gap.eq_blanks {gap blanks behind behind' : List Char} (isGap : Gap gap)
    (blank : ∀ c ∈ blanks, isBlank c = true) {sign : Char} (notBlank : isBlank sign = false)
    (notGap : isGapEdge sign = false)
    (same : blanks ++ sign :: behind = gap ++ sign :: behind') : blanks = gap ∧ behind = behind' := by
  -- Neither side may contain the bracket, so both stop at its first occurrence.
  induction isGap generalizing blanks with
  | nil =>
    cases blanks with
    | nil => exact ⟨rfl, (List.cons.inj same).2⟩
    | cons c blanks =>
      rw [(List.cons.inj same).1] at blank
      rw [blank sign (by simp)] at notBlank
      cases notBlank
  | @space c gap space _ ih =>
    cases blanks with
    | nil =>
      rw [(List.cons.inj same).1] at notGap
      simp [isGapEdge, space] at notGap
    | cons d blanks =>
      obtain ⟨first, later⟩ := List.cons.inj same
      obtain ⟨rfl, rest⟩ := ih (fun e member => blank e (.tail d member)) later
      exact ⟨by rw [first], rest⟩
  | mark _ | line _ _ | block _ _ =>
    cases blanks with
    | nil =>
      rw [(List.cons.inj same).1] at notGap
      exact absurd notGap (by decide)
    | cons d blanks =>
      have first := blank d (by simp)
      rw [(List.cons.inj same).1] at first
      exact absurd first (by decide)

namespace Token

variable {ts : List Token} {n : Nat}

/-- The brackets of tight pairs and what is skipped between them are pairs in the text. -/
theorem Pairs.spread (paired : Pairs ts n) (texts : ∀ t ∈ ts, ∀ s, t.kind.spelling? = some s → t.text = s)
    (left : ∀ t ∈ ts, t.kind = .leftBracket → ∀ c ∈ t.leading.toList, isBlank c = true)
    (right : ∀ t ∈ ts, t.kind = .rightBracket → t.leading = "") :
    Text.Pairs (Mark.spread (ts.map mark)) n := by
  induction paired with
  | nil => exact .nil
  | @cons l r ts n isLeft isRight _ ih =>
    have leftText : l.text = "[" := texts l (by simp) "[" (by rw [isLeft]; rfl)
    have rightText : r.text = "]" := texts r (by simp) "]" (by rw [isRight]; rfl)
    have apart := right r (by simp) isRight
    have later := ih (fun t member => texts t (by simp [member]))
      (fun t member => left t (by simp [member])) fun t member => right t (by simp [member])
    have pair := Text.Pairs.cons (left l (by simp) isLeft) later
    simpa [Mark.spread, mark, leftText, rightText, apart] using pair

/-- Bracket tokens whose text is made of pairs and white space are tight, and the white space is what
is skipped behind them. -/
theorem Pairs.tight (paired : Pairs ts n) (texts : ∀ t ∈ ts, ∀ s, t.kind.spelling? = some s → t.text = s)
    (gaps : ∀ t ∈ ts, Munch.Gap t.leading.toList) {pairs blanks behind gap behind' : List Char}
    (found : Text.Pairs pairs n) (blank : ∀ c ∈ blanks, isBlank c = true) (isGap : Munch.Gap gap)
    (same : pairs ++ (blanks ++ '.' :: behind) = Mark.spread (ts.map mark) ++ (gap ++ '.' :: behind')) :
    (∀ t ∈ ts, t.kind = .leftBracket → ∀ c ∈ t.leading.toList, isBlank c = true) ∧
      (∀ t ∈ ts, t.kind = .rightBracket → t.leading = "") ∧ blanks = gap := by
  -- Over the pairs of tokens: the text has as many, so both are taken apart together.
  induction paired generalizing pairs with
  | nil =>
    cases found
    have dots : blanks ++ '.' :: behind = gap ++ '.' :: behind' := by simpa [Mark.spread] using same
    obtain ⟨rfl, -⟩ := isGap.eq_blanks blank (by decide) (by decide) dots
    exact ⟨List.forall_mem_nil _, List.forall_mem_nil _, rfl⟩
  | @cons l r ts n isLeft isRight _ ih =>
    cases found with
    | @cons before pairs _ blankBefore later =>
    have leftText : l.text = "[" := texts l (by simp) "[" (by rw [isLeft]; rfl)
    have rightText : r.text = "]" := texts r (by simp) "]" (by rw [isRight]; rfl)
    have opened : before ++ '[' :: ']' :: (pairs ++ (blanks ++ '.' :: behind)) =
        l.leading.toList ++ '[' :: (r.leading.toList ++ ']' :: (Mark.spread (ts.map mark) ++
          (gap ++ '.' :: behind'))) := by
      simpa [Mark.spread, mark, leftText, rightText] using same
    obtain ⟨leading, inner⟩ := (gaps l (by simp)).eq_blanks blankBefore (by decide) (by decide) opened
    -- Nothing can be skipped before the bracket that the text has there.
    have apart : r.leading.toList = [] := by
      cases skipped : r.leading.toList with
      | nil => rfl
      | cons c more =>
        rw [skipped] at inner
        have edge := (gaps r (by simp)).starts (d := c) (by rw [skipped]; rfl)
        rw [← (List.cons.inj inner).1] at edge
        cases edge
    rw [apart] at inner
    obtain ⟨tightLeft, tightRight, sameGap⟩ := ih (fun t member => texts t (by simp [member]))
      (fun t member => gaps t (by simp [member])) later
      (by simpa [Mark.spread, mark] using (List.cons.inj inner).2)
    refine ⟨?_, ?_, sameGap⟩
    · rintro t (_ | ⟨_, _ | ⟨_, member⟩⟩) kind
      · rwa [← leading]
      · rw [isRight] at kind
        cases kind
      · exact tightLeft t member kind
    · rintro t (_ | ⟨_, _ | ⟨_, member⟩⟩) kind
      · rw [isLeft] at kind
        cases kind
      · simpa using apart
      · exact tightRight t member kind

end Token

namespace ClassLiteral

variable {l : ClassLiteral} {text : String}

/-- The text of a class literal, from the text of its name on. -/
theorem toList_eq (made : Token.MakeUp l.tokens text) :
    text.toList = Mark.spread (l.name.map Token.mark) ++
      (Mark.spread (l.pairs.map Token.mark) ++ (l.dot.leading.toList ++
        '.' :: (l.word.leading.toList ++ "class".toList))) := by
  have dotText : l.dot.text = "." := made.text_eq (by simp [tokens]) (by rw [l.isDot]; rfl)
  have wordText : l.word.text = "class" := made.text_eq (by simp [tokens]) (by rw [l.isClass]; rfl)
  rw [made.spread]
  simp [tokens, Mark.spread, Token.mark, dotText, wordText]

theorem word_leading (made : Token.MakeUp l.tokens text) :
    ".class".toList <:+ text.toList ↔ l.word.leading = "" := by
  have split : l.tokens = (l.name ++ l.pairs ++ [l.dot]) ++ [l.word] := by simp [tokens]
  rw [made.ends_in_class_iff]
  constructor
  · rintro (⟨front, sign, word, same, -, -, apart⟩ | ⟨front, number, same, kind, -⟩)
    · have ends : (l.name ++ l.pairs ++ [l.dot]) ++ [l.word] = (front ++ [sign]) ++ [word] := by
        rw [← split, same]
        simp
      rwa [List.singleton_inj.mp (List.append_inj' ends rfl).2]
    · rw [split] at same
      have isClass := l.isClass
      rw [List.singleton_inj.mp (List.append_inj' same rfl).2, kind] at isClass
      cases isClass
  · exact fun apart => .inl ⟨l.name ++ l.pairs, l.dot, l.word, by simp [tokens], .inl l.isDot,
      l.isClass, apart⟩

/-- The text of a class literal starts with a word. -/
theorem starts_with_word (made : Token.MakeUp l.tokens text) :
    ∃ c, Munch.startsWord c = true ∧ text.toList.head? = some c := by
  obtain ⟨⟨first, isFirst, names⟩, -⟩ := l.name_ends
  obtain ⟨more, name⟩ := List.head?_eq_some_iff.mp isFirst
  have word := made.isWord (t := first) (by simp [tokens, name]) names
  have apart := made.leading first (by simp [tokens, name])
  cases spelled : first.text.toList with
  | nil =>
    rw [spelled] at word
    cases word
  | cons c w =>
    rw [spelled, Munch.isWord, Bool.and_eq_true] at word
    refine ⟨c, word.1, ?_⟩
    rw [toList_eq made, name]
    simp [Mark.spread, Token.mark, apart, spelled]

/-- A class literal is taken for one exactly when nothing is skipped before `class`. -/
theorem isLiteral_iff (made : Token.MakeUp l.tokens text) :
    (∃ t, TypeRef.IsLiteral text t) ↔ l.word.leading = "" := by
  rw [made.isLiteral_iff, word_leading made]
  refine and_iff_left ?_
  rintro ⟨pairs, blanks, n, nameless, paired, blank⟩
  -- The text starts with a word, and no pair, white space or dot does.
  obtain ⟨c, starts, opens⟩ := starts_with_word made
  rw [nameless] at opens
  have noWord : ['[', '.'].all (fun d => !Munch.startsWord d) = true := by decide
  rcases paired.starts blank opens with isBlank | sign
  · have edge := Munch.isEdge_of_startsWord starts
    rw [Munch.isEdge_of_isBlank isBlank] at edge
    cases edge
  · have notStarts := List.all_eq_true.mp noWord c sign
    rw [starts] at notStarts
    cases notStarts

/-- What is skipped before a token of the name is told from the token. -/
theorem name_solid (made : Token.MakeUp l.tokens text) :
    ∀ t ∈ l.name, ∃ c w, t.text.toList = c :: w ∧ Munch.isGapEdge c = false := by
  obtain ⟨-, -, all⟩ := l.name_ends
  intro t member
  have inTokens : t ∈ l.tokens := by simp [tokens, member]
  rcases all t member with names | dot
  · have word := made.isWord inTokens names
    cases spelled : t.text.toList with
    | nil =>
      rw [spelled] at word
      cases word
    | cons c w =>
      rw [spelled, Munch.isWord, Bool.and_eq_true] at word
      exact ⟨c, w, rfl, Munch.isGapEdge_of_startsWord word.1⟩
  · have isDot : t.text = "." := made.text_eq inTokens (by rw [dot]; rfl)
    rw [isDot]
    exact ⟨'.', [], rfl, by decide⟩

/-- The text of the name, without what is skipped in it. -/
theorem toList_name (l : ClassLiteral) :
    (String.join (l.name.map Token.text)).toList = l.name.flatMap fun t => t.text.toList := by
  rw [String.toList_join, List.flatMap_map]

/-- The name ends in a sign of a word. -/
theorem isBase_name (made : Token.MakeUp l.tokens text) :
    Text.IsBase (l.name.flatMap fun t => t.text.toList) := by
  obtain ⟨-, ⟨last, isLast, names⟩, -⟩ := l.name_ends
  obtain ⟨front, name⟩ := List.getLast?_eq_some_iff.mp isLast
  have word := made.isWord (t := last) (by simp [tokens, name]) names
  rw [name, List.flatMap_append, List.flatMap_singleton]
  exact .of_word word _

/-- White space in its place, and nothing skipped elsewhere, is what it takes for a class literal to be
that of its type. -/
theorem isLiteral_type_iff (made : Token.MakeUp l.tokens text) :
    TypeRef.IsLiteral text l.type ↔ l.IsTight := by
  have texts : ∀ t ∈ l.pairs, ∀ s, t.kind.spelling? = some s → t.text = s :=
    fun t member s fixed => made.text_eq (by simp [tokens, member]) fixed
  have ending : ".class".toList = '.' :: "class".toList := by decide
  have whole := toList_eq made
  constructor
  · intro isLiteral
    have word := (isLiteral_iff made).mp ⟨_, isLiteral⟩
    obtain ⟨base, pairs, blanks, n, parted, -, -, paired, blank, same⟩ := isLiteral
    obtain ⟨sameName, -, sameDimensions, -⟩ := TypeRef.mk.inj same
    change String.join _ = String.ofList base at sameName
    have isBase : base = l.name.flatMap fun t => t.text.toList := by
      rw [← toList_name, sameName, String.toList_ofList]
    rw [← sameDimensions] at paired
    have joined : (l.name.flatMap fun t => t.text.toList) ++ (pairs ++ (blanks ++ '.' :: "class".toList)) =
        Mark.spread (l.name.map Token.mark) ++ (Mark.spread (l.pairs.map Token.mark) ++
          (l.dot.leading.toList ++ '.' :: "class".toList)) := by
      rw [whole, word, ending, isBase] at parted
      simpa using parted.symm
    -- From the name on, what the two ways of writing the text have in common is compared.
    obtain ⟨name, behind⟩ := Token.MakeUp.leading_of_texts
      (fun t member => made.gap (by simp [tokens, member])) (name_solid made) joined
    obtain ⟨left, right, dot⟩ := l.paired.tight texts
      (fun t member => made.gap (by simp [tokens, member])) paired blank
      (made.gap (by simp [tokens])) behind
    exact ⟨name, left, right, by rwa [← dot], word⟩
  · intro tight
    have name : Mark.spread (l.name.map Token.mark) = l.name.flatMap fun t => t.text.toList := by
      rw [Mark.spread, List.flatMap_map]
      apply List.flatMap_congr
      intro t member
      simp [Token.mark, tight.name t member]
    have nonempty : (l.name.flatMap fun t => t.text.toList) ≠ [] := by
      obtain ⟨⟨first, isFirst, -⟩, -⟩ := l.name_ends
      obtain ⟨more, split⟩ := List.head?_eq_some_iff.mp isFirst
      obtain ⟨c, w, spelled, -⟩ := name_solid made first (by simp [split])
      simp [split, spelled]
    refine ⟨_, _, l.dot.leading.toList, l.dimensions, ?_, nonempty, isBase_name made,
      l.paired.spread texts tight.left tight.right, tight.dot, ?_⟩
    · rw [whole, name, tight.word, ending]
      simp
    · rw [← toList_name, String.ofList_toList]
      rfl

end ClassLiteral

end TestDouble
