import TestDouble.Proofs.MemberReading
import TestDouble.Proofs.NestedValues

/-!
# Lists of declarators

A declaration may declare several fields: names with commas between them, each with its own bracket
pairs and its own initializer. The list is split at the commas between declarators, whatever commas the
initializers hold in their brackets, so each name becomes a field of its own. What one of them has,
dimensions or an initializer, is not handed on to the next.
-/

namespace TestDouble

/-! ### Dimensions -/

/-- As many dimensions are counted as there are bracket pairs. -/
theorem Cursor.bracketPairs_of_passes {origin c d : Cursor} (within : c.size ≤ origin.size)
    {pairs : List (Token × Token)}
    (square : ∀ p ∈ pairs, p.1.kind = .leftBracket ∧ p.2.kind = .rightBracket)
    (passes : c.Passes (pairs.flatMap fun p => [p.1, p.2]) d)
    (ends : d.nextKind ≠ some .leftBracket) (n : Nat) :
    ∃ h, bracketPairs origin c within n = ⟨n + pairs.length, d, h⟩ := by
  induction pairs generalizing c n with
  | nil =>
    obtain rfl : d = c := passes.unique (.refl c) rfl
    exact ⟨within, by rw [bracketPairs, acceptPair?_eq_none ends]; rfl⟩
  | cons p pairs ih =>
    obtain ⟨⟨left, right⟩, square⟩ := List.forall_mem_cons.mp square
    rw [List.flatMap_cons] at passes
    obtain ⟨c₁, here, later⟩ := passes.split
    obtain ⟨last, tokens⟩ := c
    obtain rfl : tokens = p.1 :: p.2 :: c₁.ahead := here.ahead
    have taken : acceptPair? ⟨last, p.1 :: p.2 :: c₁.ahead⟩ .leftBracket .rightBracket =
        some ⟨p.2, ⟨some p.2, c₁.ahead⟩, by simp only [size, List.length_cons]; omega⟩ := by
      rw [acceptPair?, if_pos ⟨left, right⟩]
    have same : (⟨some p.2, c₁.ahead⟩ : Cursor) = c₁ := Passes.unique ⟨rfl, rfl⟩ here rfl
    have inOrigin : size ⟨some p.2, c₁.ahead⟩ ≤ origin.size := by
      simp only [size, List.length_cons] at within ⊢
      omega
    obtain ⟨h, counted⟩ := ih inOrigin square (same.symm ▸ later) (n + 1)
    refine ⟨h, ?_⟩
    rw [bracketPairs, taken]
    simp only [counted, List.length_cons]
    congr 1
    omega

theorem Cursor.dimensions_of_passes {c d : Cursor} {pairs : List (Token × Token)}
    (square : ∀ p ∈ pairs, p.1.kind = .leftBracket ∧ p.2.kind = .rightBracket)
    (passes : c.Passes (pairs.flatMap fun p => [p.1, p.2]) d)
    (ends : d.nextKind ≠ some .leftBracket) : ∃ h, c.dimensions = ⟨pairs.length, d, h⟩ := by
  obtain ⟨h, counted⟩ := bracketPairs_of_passes c.size_le square passes ends 0
  exact ⟨h, by rw [dimensions, counted, Nat.zero_add]⟩

namespace Declarator

/-! ### Declarators as they are written -/

/-- The tokens of a declarator: a name, bracket pairs, and perhaps an initializer behind a sign of
assignment. No comma and no semicolon of the initializer stands outside of its brackets. -/
structure Form where
  name : Token
  pairs : List (Token × Token)
  value : Option (Token × List Token)
  named : name.kind = .identifier
  square : ∀ p ∈ pairs, p.1.kind = .leftBracket ∧ p.2.kind = .rightBracket
  assigned : ∀ v ∈ value, v.1.kind = .assign ∧ Token.IsValue [.comma, .semicolon] v.2

namespace Form

/-- What stands behind the name. -/
def rest (form : Form) : List Token :=
  (form.pairs.flatMap fun p => [p.1, p.2]) ++ form.value.toList.flatMap fun v => v.1 :: v.2

/-- The initializer, from its first to its last token. -/
def initializer (form : Form) : Option Fragment := form.value.bind fun v => Fragment.ofTokens? v.2

/-- The declarator says what the form does. -/
structure Gives (form : Form) (d : Declarator) : Prop where
  name : d.name = form.name.text
  dimensions : d.dimensions = form.pairs.length
  initializer : d.initializer = form.initializer

variable {form : Form} {ending : Token} {others : List Token}

/-- A form with a comma or a semicolon behind it looks like a declarator. -/
theorem comesNext (ends : ending.kind = .comma ∨ ending.kind = .semicolon) :
    Declarator.comesNext (form.name :: (form.rest ++ ending :: others)) = true := by
  obtain ⟨name, pairs, value, named, square, assigned⟩ := form
  rcases pairs with _ | ⟨p, pairs⟩
  · cases value with
    | none => rcases ends with kind | kind <;> simp [rest, Declarator.comesNext, named, kind]
    | some v =>
      obtain ⟨isAssign, -⟩ := assigned v rfl
      simp [rest, Declarator.comesNext, named, isAssign]
  · obtain ⟨left, -⟩ := square p List.mem_cons_self
    simp [rest, Declarator.comesNext, named, left]

/-- The rest of a form is read up to the comma or the semicolon that ends it. -/
theorem readRest {c d : Cursor} (passes : c.Passes form.rest d) (ahead : d.ahead = ending :: others)
    (ends : ending.kind = .comma ∨ ending.kind = .semicolon)
    (stops : endsInitializer (ending :: others) = true) :
    ∃ found h, Declarator.readRest form.name.text c = .ok ⟨found, d, h⟩ ∧ form.Gives found := by
  obtain ⟨name, pairs, value, named, square, assigned⟩ := form
  have other : ending.kind.opens = false ∧ ending.kind ≠ .leftBracket ∧ ending.kind ≠ .assign := by
    rcases ends with kind | kind <;> simp [kind, Kind.opens]
  obtain ⟨notOpen, notBracket, notAssign⟩ := other
  obtain ⟨c₀, passedPairs, passedValue⟩ := Cursor.Passes.split passes
  cases value with
  | none =>
    obtain rfl : d = c₀ := passedValue.unique (.refl c₀) rfl
    obtain ⟨h, counted⟩ := Cursor.dimensions_of_passes square passedPairs
      (by simp [Cursor.nextKind, ahead, notBracket])
    refine ⟨⟨name.text, pairs.length, none, d.lastStop⟩, h, ?_, rfl, rfl, rfl⟩
    rw [Declarator.readRest, counted]
    simp only [Cursor.clause_of_nextKind
      (show d.nextKind ≠ some .assign by simp [Cursor.nextKind, ahead, notAssign])]
    rfl
  | some v =>
    obtain ⟨assign, taken⟩ := v
    obtain ⟨isAssign, value⟩ : assign.kind = .assign ∧ Token.IsValue [.comma, .semicolon] taken :=
      assigned _ rfl
    obtain ⟨first, more, rfl⟩ := List.exists_cons_of_ne_nil value.nonempty
    have passedValue : c₀.Passes ([assign] ++ first :: more) d := by simpa using passedValue
    obtain ⟨c₁, passedAssign, passedValue⟩ := passedValue.split
    obtain ⟨h, counted⟩ := Cursor.dimensions_of_passes square passedPairs
      (by simp [passedAssign.nextKind, isAssign])
    -- An initializer ends at no other token, whatever stands inside its brackets.
    have only (t : Token) (rest : List Token) (ended : endsInitializer (t :: rest) = true) :
        t.kind ∈ [Kind.comma, .semicolon] := by
      simp only [endsInitializer, Bool.or_eq_true, Bool.and_eq_true, beq_iff_eq] at ended
      rcases ended with kind | ⟨kind, -⟩ <;> simp [kind]
    have length : Fragment.valueLength? endsInitializer c₁.ahead 0 0 = some (first :: more).length := by
      rw [passedValue.ahead, ahead]
      exact Fragment.valueLength?_of_isValue only value notOpen (.inr stops)
    obtain ⟨h', read⟩ := readRest_of_dimensions counted passedAssign isAssign passedValue length name.text
    exact ⟨_, h', read, rfl, rfl, rfl⟩

end Form

/-! ### Lists of them -/

/-- The tokens of a list of declarators: a first one, more of them behind commas, a semicolon. -/
structure Forms where
  first : Form
  more : List (Token × Form)
  semicolon : Token
  parted : ∀ m ∈ more, m.1.kind = .comma
  ended : semicolon.kind = .semicolon

namespace Forms

/-- The forms in their order. -/
def all (forms : Forms) : List Form := forms.first :: forms.more.map Prod.snd

/-- What stands behind a declarator: the comma and the next one, or the semicolon. -/
def behind (semicolon : Token) : List (Token × Form) → List Token
  | [] => [semicolon]
  | (comma, next) :: more => comma :: next.name :: (next.rest ++ behind semicolon more)

/-- What stands behind the first name. -/
def rest (forms : Forms) : List Token := forms.first.rest ++ behind forms.semicolon forms.more

variable {more : List (Token × Form)} {semicolon : Token}

/-- A declarator looks like one before more of them, or before the semicolon. -/
theorem comesNext_behind (parted : ∀ m ∈ more, m.1.kind = .comma)
    (ended : semicolon.kind = .semicolon) (form : Form) (others : List Token) :
    comesNext (form.name :: (form.rest ++ (behind semicolon more ++ others))) = true := by
  cases more with
  | nil => exact Form.comesNext (.inr ended)
  | cons m more => exact Form.comesNext (.inl (parted m List.mem_cons_self))

/-- Such a list is read form by form, behind the declarators read before. -/
theorem readAll {origin c d : Cursor} (within : c.size ≤ origin.size) {form : Form}
    (parted : ∀ m ∈ more, m.1.kind = .comma) (ended : semicolon.kind = .semicolon)
    (passes : c.Passes (form.rest ++ behind semicolon more) d) (read : List Declarator) :
    ∃ ds h, Declarator.readAll origin c within form.name.text read =
        .ok ⟨read.reverse ++ ds, d, h⟩ ∧
      List.Forall₂ Form.Gives (form :: more.map Prod.snd) ds := by
  induction more generalizing form c read with
  | nil =>
    obtain ⟨c₁, passedForm, passedEnd⟩ := passes.split
    have ahead : c₁.ahead = semicolon :: d.ahead := passedEnd.ahead
    obtain ⟨found, h₁, rested, gives⟩ :=
      Form.readRest passedForm ahead (.inr ended) (by simp [endsInitializer, ended])
    have last : ∃ h, Declarator.readAll origin c within form.name.text read =
        .ok ⟨(found :: read).reverse, d, h⟩ := readAll_of_semicolon rested passedEnd ended
    obtain ⟨h, whole⟩ := last
    exact ⟨[found], h, by rw [whole, List.reverse_cons], .cons gives .nil⟩
  | cons m more ih =>
    obtain ⟨comma, next⟩ := m
    have isComma : comma.kind = .comma := parted _ List.mem_cons_self
    have parted (m : Token × Form) (member : m ∈ more) := parted m (List.mem_cons_of_mem _ member)
    obtain ⟨c₁, passedForm, passedMore⟩ := passes.split
    have ahead : c₁.ahead = comma :: next.name :: (next.rest ++ (behind semicolon more ++ d.ahead)) := by
      simpa [behind] using passedMore.ahead
    -- The comma is told from those of initializers by the name behind it and the sign behind that.
    have looks := comesNext_behind parted ended next d.ahead
    obtain ⟨found, h₁, rested, gives⟩ := Form.readRest passedForm ahead (.inl isComma)
      (by simp [endsInitializer, isComma, looks])
    obtain ⟨c₂, passedComma, passedMore⟩ := passedMore.uncons
    obtain ⟨c₃, passedName, passedMore⟩ := passedMore.uncons
    have further : ∃ h, Declarator.readAll origin c within form.name.text read =
        Declarator.readAll origin c₃ h next.name.text (found :: read) :=
      readAll_of_comma rested passedComma isComma passedName next.named
    obtain ⟨h₃, goesOn⟩ := further
    obtain ⟨ds, h, whole, each⟩ := ih h₃ parted passedMore (found :: read)
    refine ⟨found :: ds, h, ?_, .cons gives each⟩
    rw [goesOn, whole, List.reverse_cons, List.append_assoc]
    rfl

theorem getLast?_behind (semicolon : Token) (more : List (Token × Form)) :
    (behind semicolon more).getLast? = some semicolon := by
  induction more with
  | nil => rfl
  | cons m more ih => simp [behind, List.getLast?_cons, ih]

/-- The tokens of each declarator are found in the list. -/
theorem infix_behind {form : Form} (member : form ∈ more.map Prod.snd) :
    form.rest <:+: behind semicolon more := by
  induction more with
  | nil => cases member
  | cons m more ih =>
    obtain ⟨comma, next⟩ := m
    rcases List.mem_cons.mp member with rfl | member
    · exact ⟨[comma, form.name], behind semicolon more, by simp [behind]⟩
    · have later : behind semicolon more <:+ behind semicolon ((comma, next) :: more) :=
        ⟨comma :: next.name :: next.rest, by simp [behind]⟩
      exact (ih member).trans later.isInfix

theorem infix_rest {forms : Forms} {form : Form} (member : form ∈ forms.all) :
    form.rest <:+: forms.rest := by
  rcases List.mem_cons.mp member with rfl | member
  · exact (List.prefix_append ..).isInfix
  · exact (infix_behind member).trans (List.suffix_append ..).isInfix

end Forms

/-! ### Fields -/

/-- The field has the name, the dimensions and the initializer of the form, and what all fields of the
declaration share. -/
structure Form.Declares (q : Qualifiers) (type : TypeRef) (form : Form) (f : Field) : Prop where
  modifiers : f.modifiers = q.modifiers
  annotations : f.annotations = q.annotations
  type : f.type = type.addDimensions form.pairs.length
  name : f.name = form.name.text
  initializer : f.initializer = form.initializer

theorem Form.Gives.declares {form : Form} {d : Declarator} (gives : form.Gives d) (q : Qualifiers)
    (type : TypeRef) (start : Location) : form.Declares q type (d.field q type start) := by
  refine ⟨rfl, rfl, ?_, gives.name, gives.initializer⟩
  rw [field, gives.dimensions]

/-- Behind the first name a list of declarators is read up to its semicolon, into one field for each of
them, in their order. The initializer of a field quotes the source from its first to its last token. -/
theorem readAll_splits_list (forms : Forms) {c d : Cursor} (passes : c.Passes forms.rest d)
    (q : Qualifiers) (type : TypeRef) (start : Location) :
    (∃ ds h, readAll c c c.size_le forms.first.name.text [] = .ok ⟨ds, d, h⟩ ∧
      List.Forall₂ (Form.Declares q type) forms.all (ds.map (field q type start))) ∧
    d.last = some forms.semicolon ∧
    ∀ source tokens, Token.ofSource source = .ok tokens → c.ahead <:+ tokens →
      ∀ form ∈ forms.all, ∀ v ∈ form.value,
        ∃ f, form.initializer = some f ∧ Token.Quotes source v.2 f.text := by
  refine ⟨?_, ?_, ?_⟩
  · obtain ⟨ds, h, read, each⟩ :=
      Forms.readAll c.size_le forms.parted forms.ended passes []
    refine ⟨ds, h, read, ?_⟩
    rw [List.forall₂_map_right_iff]
    exact each.imp fun _ _ gives => gives.declares q type start
  · rw [passes.last, Forms.rest, List.getLast?_append, Forms.getLast?_behind]
    rfl
  · intro source tokens lexed within form member v written
    obtain ⟨-, value⟩ := form.assigned v written
    obtain ⟨first, more, split⟩ := List.exists_cons_of_ne_nil value.nonempty
    have run : first :: more <:+: tokens := by
      have own : first :: more <:+: form.rest := by
        rw [Form.rest, Option.mem_def.mp written, ← split]
        exact ⟨form.pairs.flatMap (fun p => [p.1, p.2]) ++ [v.1], [], by simp⟩
      have inList : form.rest <:+: c.ahead :=
        (Forms.infix_rest member).trans ⟨[], d.ahead, passes.ahead.symm⟩
      exact own.trans (inList.trans within.isInfix)
    refine ⟨Fragment.ofTokens first more, ?_, split ▸ Token.quotes_of_run lexed run⟩
    rw [Form.initializer, Option.mem_def.mp written, Option.bind_some, split]
    rfl

/-- Three declarators: with a call, with braces, and without an initializer. -/
private def listSource : String := "a = f(x, y), b[] = \x7b1, 2\x7d, c;"

private def listTokens : List Token := ((Token.ofSource listSource).toOption).getD []

private def listToken (i : Nat) : Token := listTokens.getD i default

private def listForms : Forms where
  first := ⟨listToken 0, [], some (listToken 1, (listTokens.drop 2).take 6),
    by decide +kernel, by simp, by decide +kernel⟩
  more := [
    (listToken 8, ⟨listToken 9, [(listToken 10, listToken 11)],
      some (listToken 12, (listTokens.drop 13).take 5),
      by decide +kernel, by decide +kernel, by decide +kernel⟩),
    (listToken 18, ⟨listToken 19, [], none, by decide +kernel, by simp, by simp⟩)]
  semicolon := listToken 20
  parted := by decide +kernel
  ended := by decide +kernel

private def Form.summary (form : Form) : String × Nat × Option String :=
  (form.name.text, form.pairs.length, form.initializer.map Fragment.text)

private theorem listTokens_lexed : Token.ofSource listSource = .ok listTokens := by
  have some_ : (Token.ofSource listSource).toOption.isSome = true := by decide +kernel
  obtain ⟨ts, found⟩ := Option.isSome_iff_exists.mp some_
  rw [toOption_eq_some found, listTokens, found]
  rfl

/-- The commas in the brackets of the initializers do not split the list. -/
theorem readAll_splits_list_of_three :
    ∃ forms c d ds h, c.Passes (Forms.rest forms) d ∧ c.ahead = listTokens.tail ∧ d.ahead = [] ∧
      readAll c c c.size_le "a" [] = .ok ⟨ds, d, h⟩ ∧
      List.Forall₂ (Form.Declares ⟨.single .finalMember, []⟩ (.named "int")) forms.all
        (ds.map (field ⟨.single .finalMember, []⟩ (.named "int") .origin)) ∧
      (∀ form ∈ forms.all, ∀ v ∈ form.value,
        ∃ f, form.initializer = some f ∧ Token.Quotes listSource v.2 f.text) ∧
      forms.all.map Form.summary = [("a", 0, some "f(x, y)"),
        ("b", 1, some "\x7b1, 2\x7d"), ("c", 0, none)] := by
  have passes : Cursor.Passes ⟨some (listToken 0), listTokens.tail⟩ listForms.rest
      ⟨some (listToken 20), []⟩ := ⟨by decide +kernel, by decide +kernel⟩
  have first : listForms.first.name.text = "a" := by decide +kernel
  have summary : listForms.all.map Form.summary = [("a", 0, some "f(x, y)"),
      ("b", 1, some "\x7b1, 2\x7d"), ("c", 0, none)] := by
    decide +kernel
  obtain ⟨⟨ds, h, read, each⟩, -, quotes⟩ :=
    readAll_splits_list listForms passes ⟨.single .finalMember, []⟩ (.named "int") .origin
  rw [first] at read
  exact ⟨listForms, _, _, ds, h, passes, rfl, rfl, read, each,
    quotes _ _ listTokens_lexed (List.tail_suffix _), summary⟩

end Declarator

end TestDouble
