import TestDouble.Proofs.ForwardedCalls

/-!
# Templates and their parts

A template is a sequence of parts: characters that stand for themselves, doubled dollar signs and
placeholders. It can be cut into such parts in one way at most. The main result is
`Statement.expand_is_substitution`: a statement can be expanded exactly when its template is made of
parts whose placeholders take its arguments one by one, and then each part is replaced by what it
stands for. What an argument holds is never read as a template.
-/

namespace TestDouble

/-- A part of a template. -/
inductive TemplatePart where
  | plain (c : Char) (notDollar : c ≠ '$')
  | dollar
  | hole (kind : ArgumentKind)

/-- What a placeholder takes: the first kind takes any argument, the others only their own. -/
def ArgumentKind.Takes (placeholder kind : ArgumentKind) : Prop :=
  placeholder = .literal ∨ placeholder = kind

/-- What stands in the place of a placeholder: the argument, quoted if that is what the placeholder
is for. -/
def Argument.placed (placeholder : ArgumentKind) (a : Argument) : String :=
  if placeholder = .string then Text.Quoted.encode a.text else a.text

namespace TemplatePart

/-- The part as it stands in a template. -/
def written : TemplatePart → List Char
  | plain c _ => [c]
  | dollar => ['$', '$']
  | hole kind => ['$', kind.letter]

/-- The placeholders among parts, in their order. -/
def holes : List TemplatePart → List ArgumentKind
  | [] => []
  | plain _ _ :: parts | dollar :: parts => holes parts
  | hole kind :: parts => kind :: holes parts

/-- What parts stand for: a character itself, one dollar sign for two, and the arguments in the places
of the placeholders. -/
def assembled : List TemplatePart → List Argument → String
  | [], _ => ""
  | plain c _ :: parts, arguments => String.singleton c ++ assembled parts arguments
  | dollar :: parts, arguments => "$" ++ assembled parts arguments
  | hole kind :: parts, a :: arguments => a.placed kind ++ assembled parts arguments
  | hole _ :: parts, [] => assembled parts []

/-- The placeholders among the parts take the arguments one by one, none left over on either side. -/
def Take (parts : List TemplatePart) (arguments : List Argument) : Prop :=
  List.Forall₂ (fun placeholder a => placeholder.Takes a.kind) (holes parts) arguments

end TemplatePart

/-- The parts make up the template, and their placeholders take the arguments. -/
structure Statement.MadeOf (s : Statement) (parts : List TemplatePart) : Prop where
  spelled : parts.flatMap TemplatePart.written = s.template.toList
  taken : TemplatePart.Take parts s.arguments

namespace ArgumentKind

theorem ofLetter?_letter (kind : ArgumentKind) : ofLetter? kind.letter = some kind := by
  cases kind <;> rfl

theorem letter_ofLetter? {c : Char} {kind : ArgumentKind} (known : ofLetter? c = some kind) :
    kind.letter = c := by
  unfold ofLetter? at known
  split at known <;> cases known <;> rfl

theorem letter_ne_dollar (kind : ArgumentKind) : kind.letter ≠ '$' := by
  cases kind <;> decide

theorem letter_inj {kind kind' : ArgumentKind} (same : kind.letter = kind'.letter) :
    kind = kind' := by
  have both : some kind = some kind' := by
    rw [← ofLetter?_letter kind, same, ofLetter?_letter]
  exact Option.some.inj both

end ArgumentKind

/-- A placeholder that takes an argument puts it into its place, and otherwise there is nothing to
put there. -/
theorem Argument.fill?_eq_some_iff {placeholder : ArgumentKind} {a : Argument} {text : String} :
    a.fill? placeholder = some text ↔ placeholder.Takes a.kind ∧ text = a.placed placeholder := by
  have swapped : a.kind = placeholder ↔ placeholder = a.kind := eq_comm
  cases placeholder <;>
    simp [fill?, placed, ArgumentKind.Takes, swapped, eq_comm (a := text)]

namespace TemplatePart

/-- A template can be cut into parts in one way only. -/
theorem eq_of_written {parts parts' : List TemplatePart}
    (same : parts.flatMap written = parts'.flatMap written) : parts = parts' := by
  induction parts generalizing parts' with
  | nil =>
    cases parts' with
    | nil => rfl
    | cons part' parts' => cases part' <;> simp [written] at same
  | cons part parts ih =>
    cases parts' with
    | nil => cases part <;> simp [written] at same
    | cons part' parts' =>
      rw [List.flatMap_cons, List.flatMap_cons] at same
      -- Parts of different forms differ in their first two characters.
      cases part with
      | plain c notDollar =>
        cases part' with
        | plain c' notDollar' =>
          obtain ⟨rfl, later⟩ := List.cons.inj same
          rw [ih later]
        | dollar => exact absurd (List.cons.inj same).1 notDollar
        | hole kind' => exact absurd (List.cons.inj same).1 notDollar
      | dollar =>
        cases part' with
        | plain c' notDollar' => exact absurd (List.cons.inj same).1.symm notDollar'
        | dollar =>
          simp only [written, List.cons_append, List.nil_append, List.cons.injEq, true_and] at same
          rw [ih same]
        | hole kind' =>
          have second := (List.cons.inj (List.cons.inj same).2).1
          exact absurd second.symm kind'.letter_ne_dollar
      | hole kind =>
        cases part' with
        | plain c' notDollar' => exact absurd (List.cons.inj same).1.symm notDollar'
        | dollar =>
          have second := (List.cons.inj (List.cons.inj same).2).1
          exact absurd second kind.letter_ne_dollar
        | hole kind' =>
          obtain ⟨second, later⟩ := List.cons.inj (List.cons.inj same).2
          rw [ih later, ArgumentKind.letter_inj second]

end TemplatePart

namespace Statement

open TemplatePart (written holes assembled Take)

/-- Parts whose placeholders take the arguments are filled in, and the rest of the template with the
rest of the arguments behind them. -/
theorem fill_parts {parts : List TemplatePart} {arguments : List Argument}
    (taken : Take parts arguments) (rest : List Char) (others : List Argument) (used : Nat)
    (before : String) :
    fill (parts.flatMap written ++ rest) (arguments ++ others) used before =
      fill rest others (used + arguments.length) (before ++ assembled parts arguments) := by
  induction parts generalizing arguments used before with
  | nil =>
    cases taken
    simp [assembled]
  | cons part parts ih =>
    rw [List.flatMap_cons, List.append_assoc]
    cases part with
    | plain c notDollar =>
      have plain : '$' ∉ [c] := by simpa using Ne.symm notDollar
      have single : String.ofList [c] = String.singleton c := by
        rw [← String.toList_inj]
        simp
      rw [written, fill_plain plain, ih taken, assembled, String.append_assoc, single]
    | dollar =>
      have pushed : before.push '$' = before ++ "$" := by
        rw [← String.toList_inj]
        simp
      rw [written, List.cons_append, List.cons_append, List.nil_append, fill, ih taken, assembled,
        pushed, String.append_assoc]
    | hole kind =>
      obtain ⟨a, arguments, takes, later, rfl⟩ := List.forall₂_cons_left_iff.mp taken
      have filling := Argument.fill?_eq_some_iff.mpr ⟨takes, rfl⟩
      rw [written, List.cons_append, List.cons_append, List.nil_append, List.cons_append,
        fill_hole kind.ofLetter?_letter filling, ih later, assembled, String.append_assoc,
        List.length_cons, Nat.add_right_comm, Nat.add_assoc]

/-- A template that can be filled in is made of parts whose placeholders take the arguments. -/
theorem exists_parts_of_fill {chars : List Char} {arguments : List Argument} {used : Nat}
    {before text : String} (filled : fill chars arguments used before = .ok text) :
    ∃ parts, parts.flatMap written = chars ∧ Take parts arguments := by
  -- Four cases are no failures: a doubled sign, a placeholder that is filled, a character that is no
  -- dollar sign, and the end of both lists.
  fun_induction fill chars arguments used before with
  | case1 rest arguments used before ih =>
    obtain ⟨parts, rfl, taken⟩ := ih filled
    exact ⟨.dollar :: parts, rfl, taken⟩
  | case2 => cases filled
  | case3 => cases filled
  | case4 => cases filled
  | case5 used before letter rest notDollar kind known a others filler filling ih =>
    obtain ⟨parts, rfl, taken⟩ := ih filled
    obtain ⟨takes, -⟩ := Argument.fill?_eq_some_iff.mp filling
    obtain rfl := ArgumentKind.letter_ofLetter? known
    exact ⟨.hole kind :: parts, rfl, .cons takes taken⟩
  | case6 => cases filled
  | case7 c rest arguments used before notDouble notHole notLast ih =>
    obtain ⟨parts, rfl, taken⟩ := ih filled
    have notDollar : c ≠ '$' := by
      rintro rfl
      cases behind : parts.flatMap written with
      | nil => exact notLast rfl behind
      | cons d more => exact notHole d more rfl behind
    exact ⟨.plain c notDollar :: parts, rfl, taken⟩
  | case8 => exact ⟨[], rfl, .nil⟩
  | case9 => cases filled

/-- What a statement is expanded to, once the parts of its template are known. -/
theorem MadeOf.expand_eq {s : Statement} {parts : List TemplatePart} (made : s.MadeOf parts) :
    s.expand = .ok (assembled parts s.arguments) := by
  have filled := fill_parts made.taken [] [] 0 ""
  rw [List.append_nil, List.append_nil, made.spelled, fill, String.empty_append] at filled
  exact expand_of_fill filled

theorem exists_madeOf_of_expand {s : Statement} {text : String} (expanded : s.expand = .ok text) :
    ∃ parts, s.MadeOf parts := by
  obtain ⟨parts, spelled, taken⟩ := exists_parts_of_fill (mapError_eq_ok expanded)
  exact ⟨parts, spelled, taken⟩

/-- Two templates one behind the other, with the arguments of the first before those of the second. -/
def append (s t : Statement) : Statement :=
  ⟨s.template ++ t.template, s.arguments ++ t.arguments⟩

theorem expand_append {s t : Statement} {text more : String} (first : s.expand = .ok text)
    (second : t.expand = .ok more) : (s.append t).expand = .ok (text ++ more) := by
  obtain ⟨parts, made⟩ := exists_madeOf_of_expand first
  have same : text = assembled parts s.arguments := Except.ok.inj (first.symm.trans made.expand_eq)
  -- Behind the parts of the first template only the second one is left, with its own arguments.
  apply expand_of_fill
  rw [append, String.toList_append, ← made.spelled, fill_parts made.taken, String.empty_append, ← same]
  simpa using fill_append (mapError_eq_ok second) text (0 + s.arguments.length)

/-- A failure to expand a statement names its whole template. -/
theorem template_of_expand_error {s : Statement} {e : Error} (failed : s.expand = .error e) :
    ∃ fault, e = .template s.template fault := by
  rw [expand] at failed
  cases filled : fill s.template.toList s.arguments 0 "" with
  | ok text =>
    rw [filled] at failed
    cases failed
  | error fault =>
    rw [filled] at failed
    exact ⟨fault, (Except.error.inj failed).symm⟩

/-- Expansion is substitution. A statement is expanded exactly when its template is made of parts whose
placeholders take its arguments, to what these parts stand for; otherwise the failure names the whole
template. There are no two ways to cut a template into parts. Hence statements one behind the other are
expanded one behind the other, and a statement that is just code stands for that code. -/
theorem expand_is_substitution :
    (∀ s : Statement,
      (∀ text, s.expand = .ok text ↔
        ∃ parts, s.MadeOf parts ∧ text = assembled parts s.arguments) ∧
      ((¬ ∃ parts, s.MadeOf parts) ↔ ∃ fault, s.expand = .error (.template s.template fault))) ∧
    (∀ parts parts' : List TemplatePart,
      parts.flatMap written = parts'.flatMap written → parts = parts') ∧
    (∀ s t : Statement, ∀ text more, s.expand = .ok text → t.expand = .ok more →
      (s.append t).expand = .ok (text ++ more)) ∧
    ∀ text, (code text).expand = .ok text := by
  refine ⟨fun s => ⟨fun text => ?_, ?_⟩, fun _ _ => TemplatePart.eq_of_written,
    fun s t text more => expand_append, expand_code⟩
  · constructor
    · intro expanded
      obtain ⟨parts, made⟩ := exists_madeOf_of_expand expanded
      exact ⟨parts, made, Except.ok.inj (expanded.symm.trans made.expand_eq)⟩
    · rintro ⟨parts, made, rfl⟩
      exact made.expand_eq
  · constructor
    · intro notMade
      cases expanded : s.expand with
      | ok text => exact absurd (exists_madeOf_of_expand expanded) notMade
      | error e =>
        obtain ⟨fault, rfl⟩ := template_of_expand_error expanded
        exact ⟨fault, rfl⟩
    · rintro ⟨fault, failed⟩ ⟨parts, made⟩
      rw [made.expand_eq] at failed
      cases failed

/-- Dollar signs at both ends, a placeholder at the very end, and arguments that look like templates. -/
theorem expand_is_substitution_of_dollars :
    let first : Statement := ⟨"$$$L=$$$$", [⟨.name, "$L$$"⟩]⟩
    let second : Statement := ⟨"$N($S", [⟨.name, "f$"⟩, ⟨.string, "$T\""⟩]⟩
    (first.append second).expand = .ok "$$L$$=$$f$(\"$T\\\"\"" ∧
      ¬ ∃ parts, (Statement.mk "$$$" []).MadeOf parts := by
  obtain ⟨each, -, joined, -⟩ := expand_is_substitution
  constructor
  · exact joined _ _ "$$L$$=$$" "f$(\"$T\\\"\"" (by decide +kernel) (by decide +kernel)
  · exact (each _).2.mpr ⟨.danglingDollar, by decide +kernel⟩

end Statement

end TestDouble
