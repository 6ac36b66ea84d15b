import TestDouble.Proofs.ClassLiterals
import TestDouble.Proofs.TypeInverse

/-!
# Types are found again in their class literals

A generated class names its types by class literals, and an annotation that holds one is read by taking
the literal apart from its end. Main statement: `TypeRef.found_in_class_literal`. A type without type
arguments is found in its own text, however white space is put around the literal and before the bracket
pairs; of a type with arguments the literal keeps the erasure.

Both parts are one lemma about dotted names, `TypeRef.ofClassLiteral?_of_dotted`: such a name starts and
ends in a word, so trimming stops at it and no bracket pair is taken out of it.
-/

namespace TestDouble

open Unicode (isBlank)

namespace TypeRef

/-- Whether no part of the type has type arguments. -/
def isArgumentFree : TypeRef → Bool
  | ⟨_, arguments, _, none, _⟩ => arguments.isEmpty
  | ⟨_, arguments, _, some outer, _⟩ => arguments.isEmpty && outer.isArgumentFree

/-- The text of the type, with any white space before each of its bracket pairs. -/
def IsSpaced (t : TypeRef) (written : List Char) : Prop :=
  ∃ pairs, Text.Pairs pairs t.dimensions ∧
    written = { t with dimensions := 0 }.text.toList ++ pairs

theorem pairs_brackets (n : Nat) : Text.Pairs (brackets n).toList n := by
  induction n with
  | zero => exact .nil
  | succ n ih =>
    have more : (brackets (n + 1)).toList = [] ++ '[' :: ']' :: (brackets n).toList := by
      simp [brackets, List.replicate_succ]
    rw [more]
    exact .cons (List.forall_mem_nil _) ih

theorem text_eq_append_brackets (t : TypeRef) :
    t.text = { t with dimensions := 0 }.text ++ brackets t.dimensions := by
  obtain ⟨name, arguments, dimensions, enclosing, span⟩ := t
  cases enclosing <;> simp [text, brackets]

/-- White space may be left out. -/
theorem isSpaced_text (t : TypeRef) : t.IsSpaced t.text.toList :=
  ⟨_, pairs_brackets t.dimensions, by rw [← String.toList_append, ← text_eq_append_brackets]⟩

end TypeRef

/-! ### Dotted names -/

namespace Dotted

variable {name : String}

theorem starts (dotted : Dotted IsWord name) :
    ∃ c, name.toList.head? = some c ∧ isBlank c = false := by
  have ofWord {w : String} (word : IsWord w) : ∃ c, w.toList.head? = some c ∧ isBlank c = false := by
    obtain ⟨c, more, spelled⟩ := List.exists_cons_of_ne_nil word.nonempty
    rw [IsWord, spelled, Munch.isWord, Bool.and_eq_true] at word
    refine ⟨c, by rw [spelled]; rfl, ?_⟩
    by_contra blank
    have edge := Munch.isEdge_of_startsWord word.1
    rw [Munch.isEdge_of_isBlank (by simpa using blank)] at edge
    cases edge
  induction dotted with
  | one word => exact ofWord word
  | more _ _ ih =>
    obtain ⟨c, first, solid⟩ := ih
    refine ⟨c, ?_, solid⟩
    rw [String.toList_append, String.toList_append, List.append_assoc, List.head?_append, first,
      Option.some_or]

theorem isBase (dotted : Dotted IsWord name) : Text.IsBase name.toList := by
  cases dotted with
  | one word => exact .of_word word []
  | @more before w _ word =>
    rw [String.toList_append]
    exact .of_word word (before ++ ".").toList

end Dotted

namespace TypeRef

variable {before pairs gap after : List Char} {n : Nat}

/-- The class literal of a dotted name with bracket pairs names just that. -/
theorem ofClassLiteral?_of_dotted {name : String} (dotted : Dotted IsWord name)
    (paired : Text.Pairs pairs n) (blankBefore : ∀ c ∈ before, isBlank c = true)
    (blankGap : ∀ c ∈ gap, isBlank c = true) (blankAfter : ∀ c ∈ after, isBlank c = true) :
    ofClassLiteral?
        (String.ofList (before ++ (name.toList ++ pairs ++ gap ++ ".class".toList) ++ after)) =
      some { named name with dimensions := n } := by
  obtain ⟨c, first, solid⟩ := dotted.starts
  have starts (rest : List Char) : (name.toList ++ rest).head? = some c := by
    rw [List.head?_append, first, Option.some_or]
  -- The literal proper starts with the first letter of the name and ends with the last of `class`.
  have trimmed : Text.trim (before ++ (name.toList ++ pairs ++ gap ++ ".class".toList) ++ after) =
      name.toList ++ pairs ++ gap ++ ".class".toList := by
    have opens : (name.toList ++ pairs ++ gap ++ ".class".toList).head? = some c := by
      rw [List.append_assoc, List.append_assoc, starts]
    have closes : (name.toList ++ pairs ++ gap ++ ".class".toList).getLast? = some 's' := by
      rw [List.getLast?_append]
      rfl
    exact Text.trim_between blankBefore blankAfter opens solid closes (by decide)
  have nonempty : name.toList ≠ [] := by
    intro none
    rw [none] at first
    cases first
  have solidFirst : ∀ d, (name.toList ++ pairs).head? = some d → isBlank d = false := by
    intro d isFirst
    rw [starts] at isFirst
    rwa [← Option.some.inj isFirst]
  rw [ofClassLiteral?_eq (by rw [String.toList_ofList, trimmed]) solidFirst dotted.isBase paired
    blankGap, if_neg nonempty, String.ofList_toList]

/-! ### Types that were read -/

variable {t : TypeRef}

theorem arguments_eq_nil (free : t.isArgumentFree = true) : t.arguments = [] := by
  obtain ⟨name, arguments, dimensions, enclosing, span⟩ := t
  cases enclosing with
  | none => exact List.isEmpty_iff.mp free
  | some outer =>
    rw [isArgumentFree, Bool.and_eq_true] at free
    exact List.isEmpty_iff.mp free.1

/-- Where a part is enclosed, the enclosing type has arguments; so a type without any is a dotted name. -/
theorem Named.eq_dotted (typeNamed : t.Named (Dotted IsWord)) (free : t.isArgumentFree = true) :
    Dotted IsWord t.name ∧ t = ⟨t.name, [], t.dimensions, none, t.span⟩ := by
  cases typeNamed with
  | primitive p dimensions span => exact ⟨.one (isWord_primitive p), rfl⟩
  | simple dimensions span dotted _ =>
    obtain rfl := List.isEmpty_iff.mp free
    exact ⟨dotted, rfl⟩
  | @member _ _ outer _ _ _ nonempty =>
    rw [isArgumentFree, Bool.and_eq_true] at free
    exact absurd (arguments_eq_nil free.2) nonempty

/-- A type without arguments is found in its class literal, white space or not. -/
theorem Named.found (typeNamed : t.Named (Dotted IsWord)) (free : t.isArgumentFree = true)
    {written : List Char} (spaced : t.IsSpaced written)
    (blankBefore : ∀ c ∈ before, isBlank c = true) (blankGap : ∀ c ∈ gap, isBlank c = true)
    (blankAfter : ∀ c ∈ after, isBlank c = true) :
    (ofClassLiteral? (String.ofList (before ++ (written ++ gap ++ ".class".toList) ++ after))).map
      withoutSpans = some t.withoutSpans := by
  obtain ⟨dotted, plain⟩ := typeNamed.eq_dotted free
  obtain ⟨pairs, paired, rfl⟩ := spaced
  have spelled : { t with dimensions := 0 }.text = t.name := by
    rw [plain]
    simp [text, TypeArgument.texts, TypeArgument.bracketed, brackets]
  rw [spelled, ofClassLiteral?_of_dotted dotted paired blankBefore blankGap blankAfter, plain]
  rfl

/-- What the class literal of the erasure names has the same erasure. -/
theorem Named.erasure_found (typeNamed : t.Named (Dotted IsWord)) :
    ofClassLiteral? (t.erasure ++ ".class") =
      some { named t.rawName with dimensions := t.dimensions } := by
  have found := ofClassLiteral?_of_dotted typeNamed.dotted_rawName (pairs_brackets t.dimensions)
    (List.forall_mem_nil _) (List.forall_mem_nil _) (List.forall_mem_nil _)
  rw [List.nil_append, List.append_nil, List.append_nil, ← String.toList_append,
    ← String.toList_append, String.ofList_toList] at found
  exact found

/-- The names in a type that was read from a source are words with dots between them. -/
theorem named_of_read {source : String} {tokens : List Token}
    (lexed : Token.ofSource source = .ok tokens) {last : Option Token} {ahead : List Token}
    (suffix : ahead <:+ tokens) {r : Consumed ⟨last, ahead⟩ TypeRef}
    (read : TypeRef.read ⟨last, ahead⟩ = .ok r) : r.value.Named (Dotted IsWord) := by
  obtain ⟨taken, passes, told⟩ := TypeRef.read_eq_ok (fun _ word => word) read
  have parted : ahead = taken ++ r.cursor.ahead := passes.ahead
  obtain ⟨front, rfl⟩ := suffix
  have vouched : Vouched IsWord ahead := (Vouched.ofSource lexed).right
  rw [parted] at vouched
  exact (told vouched.left).1.named

/-- A type that was read and has no type arguments is found, up to spans, in its class literal: its
text and `.class`, with any white space around the literal, before the bracket pairs and before the
dot. The class literal of the erasure of any type that was read names a type with that erasure. -/
theorem found_in_class_literal {source : String} {tokens : List Token}
    (lexed : Token.ofSource source = .ok tokens) {last : Option Token} {ahead : List Token}
    (suffix : ahead <:+ tokens) {r : Consumed ⟨last, ahead⟩ TypeRef}
    (read : TypeRef.read ⟨last, ahead⟩ = .ok r) :
    (r.value.isArgumentFree = true → ∀ written before gap after, r.value.IsSpaced written →
      (∀ c ∈ before, isBlank c = true) → (∀ c ∈ gap, isBlank c = true) →
      (∀ c ∈ after, isBlank c = true) →
      (ofClassLiteral? (String.ofList (before ++ (written ++ gap ++ ".class".toList) ++ after))).map
        withoutSpans = some r.value.withoutSpans) ∧
    ∃ found, ofClassLiteral? (r.value.erasure ++ ".class") = some found ∧
      found.erasure = r.value.erasure := by
  have typeNamed := named_of_read lexed suffix read
  constructor
  · intro free written before gap after spaced blankBefore blankGap blankAfter
    exact typeNamed.found free spaced blankBefore blankGap blankAfter
  · exact ⟨_, typeNamed.erasure_found, rfl⟩

/-- The tokens of an array type with space in it. -/
private def arrayTokens : List Token :=
  ((Token.ofSource "java . util.Map[ ] [] x").toOption).getD []

/-- The tokens of a member of a type with arguments. -/
private def memberTokens : List Token :=
  ((Token.ofSource "Outer<String>.Inner[] x").toOption).getD []

/-- An array type is found in its text and in one with more white space, a member of a type with
arguments in the literal of its erasure. -/
theorem found_in_class_literal_of_array_and_member :
    (∃ r, TypeRef.read ⟨none, arrayTokens⟩ = .ok r ∧ r.value.text = "java.util.Map[][]" ∧
      ∀ literal ∈ ["java.util.Map[][].class", " java.util.Map []\t[] .class\n"],
        (ofClassLiteral? literal).map withoutSpans = some r.value.withoutSpans) ∧
    ∃ r, TypeRef.read ⟨none, memberTokens⟩ = .ok r ∧ r.value.erasure = "Outer.Inner[]" ∧
      ∃ found, ofClassLiteral? "Outer.Inner[].class" = some found ∧
        found.erasure = "Outer.Inner[]" := by
  constructor
  · have lexed : Token.ofSource "java . util.Map[ ] [] x" = .ok arrayTokens := by decide +kernel
    have known : (TypeRef.read ⟨none, arrayTokens⟩).toOption.map (fun r =>
        (r.value.isArgumentFree, r.value.dimensions, { r.value with dimensions := 0 }.text)) =
        some (true, 2, "java.util.Map") := by decide +kernel
    cases read : TypeRef.read ⟨none, arrayTokens⟩ with
    | error e => simp [read, Except.toOption] at known
    | ok r =>
      simp only [read, Except.toOption, Option.map_some, Option.some.injEq, Prod.mk.injEq] at known
      obtain ⟨free, dimensions, base⟩ := known
      have spelled : r.value.text = "java.util.Map[][]" := by
        rw [text_eq_append_brackets, base, dimensions]
        rfl
      have found := (found_in_class_literal lexed (List.suffix_refl _) read).1 free
      refine ⟨r, rfl, spelled, List.forall_mem_cons.mpr ⟨?_, List.forall_mem_singleton.mpr ?_⟩⟩
      · -- The text itself, without white space around it.
        have plain := found _ [] [] [] r.value.isSpaced_text (by simp) (by simp) (by simp)
        have literal : String.ofList ([] ++ (r.value.text.toList ++ [] ++ ".class".toList) ++ []) =
            "java.util.Map[][].class" := by rw [spelled]; decide +kernel
        rwa [literal] at plain
      · have blank (c : Char) (isBlank : isBlank c = true) : ∀ d ∈ [c], Unicode.isBlank d = true :=
          List.forall_mem_singleton.mpr isBlank
        have pairs : Text.Pairs ([' '] ++ '[' :: ']' :: (['\t'] ++ ['[', ']'])) 2 :=
          .cons (blank _ rfl) (.cons (blank _ rfl) .nil)
        have spaced : r.value.IsSpaced "java.util.Map []\t[]".toList :=
          ⟨_, by rwa [dimensions], by rw [base]; decide +kernel⟩
        have literal : String.ofList ([' '] ++ ("java.util.Map []\t[]".toList ++ [' '] ++
            ".class".toList) ++ ['\n']) = " java.util.Map []\t[] .class\n" := by decide +kernel
        have loose := found _ [' '] [' '] ['\n'] spaced (blank _ rfl) (blank _ rfl) (blank _ rfl)
        rwa [literal] at loose
  · have lexed : Token.ofSource "Outer<String>.Inner[] x" = .ok memberTokens := by decide +kernel
    have known : (TypeRef.read ⟨none, memberTokens⟩).toOption.map (·.value.erasure) =
        some "Outer.Inner[]" := by decide +kernel
    cases read : TypeRef.read ⟨none, memberTokens⟩ with
    | error e => simp [read, Except.toOption] at known
    | ok r =>
      have erased : r.value.erasure = "Outer.Inner[]" := by simpa [read, Except.toOption] using known
      have found := (found_in_class_literal lexed (List.suffix_refl _) read).2
      rw [erased] at found
      exact ⟨r, rfl, erased, found⟩

end TypeRef

end TestDouble
