import Mathlib.Data.List.TakeWhile
import TestDouble.Proofs.Written
import TestDouble.TypeRef

/-!
# How types are spelled

Which type references are made of words the way a source makes them, the lexemes of such a type in
order, and the proof that its text is taken apart into exactly these lexemes.
-/

namespace TestDouble

/-! ### Dotted names -/

/-- Words with a dot between two. -/
inductive Dotted (Word : String → Prop) : String → Prop where
  | one {w : String} : Word w → Dotted Word w
  | more {name w : String} : Dotted Word name → Word w → Dotted Word (name ++ "." ++ w)

/-- A word, reserved or not. -/
def IsWord (w : String) : Prop := Munch.isWord w.toList = true

instance (w : String) : Decidable (IsWord w) := inferInstanceAs (Decidable (_ = true))

/-- A word that is not reserved. -/
structure IsIdentifier (w : String) : Prop where
  word : IsWord w
  free : Kind.ofWord w = .identifier

instance (w : String) : Decidable (IsIdentifier w) :=
  decidable_of_iff (IsWord w ∧ Kind.ofWord w = .identifier)
    ⟨fun both => ⟨both.1, both.2⟩, fun identifier => ⟨identifier.word, identifier.free⟩⟩

namespace Dotted

variable {P Q : String → Prop}

theorem imp (weaker : ∀ w, P w → Q w) {name : String} (dotted : Dotted P name) : Dotted Q name := by
  induction dotted with
  | one word => exact .one (weaker _ word)
  | more _ word ih => exact .more ih (weaker _ word)

theorem append {name other : String} (first : Dotted P name) (second : Dotted P other) :
    Dotted P (name ++ "." ++ other) := by
  induction second with
  | one word => exact .more first word
  | @more other last _ word ih =>
    have shifted : name ++ "." ++ (other ++ "." ++ last) = name ++ "." ++ other ++ "." ++ last := by
      simp only [String.append_assoc]
    rw [shifted]
    exact .more ih word

end Dotted

theorem IsWord.nonempty {w : String} (word : IsWord w) : w.toList ≠ [] := by
  intro empty
  simp [IsWord, empty, Munch.isWord] at word

theorem IsWord.dot_not_mem {w : String} (word : IsWord w) : '.' ∉ w.toList :=
  Munch.not_mem_of_isWord word (by decide)

/-- The kinds of identifiers with a dot between two. -/
inductive NameKinds : List (Option Kind) → Prop where
  | one : NameKinds [some .identifier]
  | more {kinds : List (Option Kind)} :
      NameKinds kinds → NameKinds (some .identifier :: some .dot :: kinds)

/-- The text is cut into identifiers with a dot between two, and nothing else. -/
def LexesAsName (name : String) : Prop := NameKinds ((Piece.ofSource name).map Piece.kind)

private theorem kinds_ofSource (source : String) :
    (Piece.ofSource source).map Piece.kind = (Munch.pieces source.toList).map Prod.fst := by
  have cut := Piece.map_bare_cut .origin source.toList []
  rw [Piece.ofSource, ← List.nil_append (Munch.pieces source.toList)]
  rw [List.reverse_nil, List.map_nil] at cut
  rw [← cut, List.map_map]
  rfl

/-- What a piece that is an identifier says of the text it starts. -/
private theorem identifier_piece {c : Char} {rest : List Char}
    (identifier : (Munch.munch c rest).1 = some .identifier) :
    IsWord (String.ofList (c :: rest.take (Munch.munch c rest).2)) ∧
      Munch.wordKind (String.ofList (c :: rest.take (Munch.munch c rest).2))
        (rest.drop (Munch.munch c rest).2) = .identifier := by
  have munched : Munch.munch c rest = (some .identifier, (Munch.munch c rest).2) :=
    Prod.ext identifier rfl
  rcases Munch.munch_eq_some munched with ⟨word, same⟩ | ⟨notIdentifier, _⟩
  · exact ⟨by rwa [IsWord, String.toList_ofList], same.symm⟩
  · exact absurd rfl notIdentifier

private theorem dot_piece {c : Char} {rest : List Char}
    (dot : (Munch.munch c rest).1 = some .dot) :
    c = '.' ∧ rest.take (Munch.munch c rest).2 = [] := by
  have member : (some .dot, c :: rest.take (Munch.munch c rest).2) ∈ Munch.pieces (c :: rest) := by
    rw [Munch.pieces_cons, dot]
    exact List.mem_cons_self
  have text := (Munch.word_of_mem_pieces member).2 "." rfl
  have chars : ['.'] = c :: rest.take (Munch.munch c rest).2 := by
    rw [← String.toList_ofList (l := c :: _), ← text]
    rfl
  injection chars with first more
  exact ⟨first.symm, more.symm⟩

private theorem eq_nil_of_pieces {source : List Char} (none : Munch.pieces source = []) :
    source = [] := by
  rw [← Munch.flatMap_pieces source, none]
  rfl

private theorem isIdentifier_of_pieces {source : List Char}
    (same : (Munch.pieces source).map Prod.fst = [some .identifier]) :
    IsIdentifier (String.ofList source) := by
  cases source with
  | nil => simp at same
  | cons c rest =>
    rw [Munch.pieces_cons, List.map_cons, List.cons.injEq, List.map_eq_nil_iff] at same
    obtain ⟨word, kind⟩ := identifier_piece same.1
    have nothing := eq_nil_of_pieces same.2
    have all : rest.take (Munch.munch c rest).2 = rest :=
      List.take_of_length_le (List.drop_eq_nil_iff.mp nothing)
    rw [nothing, all] at kind
    rw [all] at word
    exact ⟨word, kind⟩

private theorem dotted_of_nameKinds {kinds : List (Option Kind)} (spelled : NameKinds kinds) :
    ∀ source, (Munch.pieces source).map Prod.fst = kinds →
      Dotted IsIdentifier (String.ofList source) := by
  induction spelled with
  | one =>
    intro source same
    exact .one (isIdentifier_of_pieces same)
  | more _ ih =>
    intro source same
    cases source with
    | nil => simp at same
    | cons c rest =>
      rw [Munch.pieces_cons, List.map_cons, List.cons.injEq] at same
      obtain ⟨word, kind⟩ := identifier_piece same.1
      cases behind : rest.drop (Munch.munch c rest).2 with
      | nil => simp [behind] at same
      | cons d others =>
        rw [behind] at same kind
        rw [Munch.pieces_cons, List.map_cons, List.cons.injEq] at same
        obtain ⟨rfl, none⟩ := dot_piece same.2.1
        -- The dot shows that the word before it ends there, so it is not reserved.
        have free : Kind.ofWord (String.ofList (c :: rest.take (Munch.munch c rest).2)) =
            .identifier := by
          have ended : Munch.startsLikeWord ('.' :: others) = false :=
            (by decide : Munch.startsLikeWord ['.'] = false)
          rwa [Munch.wordKind, ended, if_neg (by decide)] at kind
        have parted : c :: rest =
            (c :: rest.take (Munch.munch c rest).2) ++ '.' :: others.drop (Munch.munch '.' others).2 := by
          have split := List.take_append_drop (Munch.munch '.' others).2 others
          rw [none, List.nil_append] at split
          rw [split, ← behind, List.cons_append, List.take_append_drop]
        have dotted := (Dotted.one (IsIdentifier.mk word free)).append (ih _ same.2.2)
        have spelled (more : List Char) :
            String.ofList ('.' :: more) = "." ++ String.ofList more := by
          rw [← List.singleton_append, String.ofList_append]
        rw [parted, String.ofList_append, spelled]
        rwa [String.append_assoc] at dotted

theorem LexesAsName.dotted {name : String} (lexes : LexesAsName name) :
    Dotted IsIdentifier name := by
  rw [LexesAsName, kinds_ofSource] at lexes
  simpa using dotted_of_nameKinds lexes name.toList rfl

private theorem NameKinds.append {first second : List (Option Kind)} (h₁ : NameKinds first)
    (h₂ : NameKinds second) : NameKinds (first ++ some .dot :: second) := by
  induction h₁ with
  | one => exact .more h₂
  | more _ ih => exact .more ih

private theorem IsIdentifier.pieces {w : String} (identifier : IsIdentifier w) {rest : List Char}
    (ended : Munch.ends rest = true) :
    Munch.pieces (w.toList ++ rest) = (some .identifier, w.toList) :: Munch.pieces rest := by
  rw [Munch.pieces_word identifier.word ended, identifier.free]

/-- A dotted name is cut into its identifiers and dots where the end of its last word shows. -/
private theorem Dotted.pieces {name : String} (dotted : Dotted IsIdentifier name) :
    ∀ rest, Munch.ends rest = true → ∃ ps, NameKinds (ps.map Prod.fst) ∧
      Munch.pieces (name.toList ++ rest) = ps ++ Munch.pieces rest := by
  induction dotted with
  | @one w identifier =>
    intro rest ended
    exact ⟨[(some .identifier, w.toList)], .one, identifier.pieces ended⟩
  | @more name w _ identifier ih =>
    intro rest ended
    -- The dot behind the name ends its last word.
    obtain ⟨ps, kinds, cut⟩ := ih ('.' :: (w.toList ++ rest)) (Munch.ends_of_mem_signs (by decide) _)
    obtain ⟨c, more, chars⟩ := List.exists_cons_of_ne_nil identifier.word.nonempty
    have notDot : c ≠ '.' := by
      rintro rfl
      exact identifier.word.dot_not_mem (by simp [chars])
    have last : Munch.pieces ('.' :: (w.toList ++ rest)) =
        (some .dot, ['.']) :: (some .identifier, w.toList) :: Munch.pieces rest := by
      rw [← identifier.pieces ended, chars, List.cons_append, Munch.pieces_dot notDot]
    refine ⟨ps ++ [(some .dot, ['.']), (some .identifier, w.toList)], ?_, ?_⟩
    · rw [List.map_append]
      exact kinds.append .one
    · have joined : (name ++ "." ++ w).toList ++ rest = name.toList ++ '.' :: (w.toList ++ rest) := by
        simp [String.toList_append]
      rw [joined, cut, last, List.append_assoc]
      rfl

/-- A text is cut into identifiers and dots exactly when it consists of identifiers that are not
reserved, with dots between them. -/
theorem lexesAsName_iff {name : String} : LexesAsName name ↔ Dotted IsIdentifier name := by
  refine ⟨LexesAsName.dotted, fun dotted => ?_⟩
  obtain ⟨ps, kinds, cut⟩ := dotted.pieces [] rfl
  rw [List.append_nil, Munch.pieces_nil, List.append_nil] at cut
  rwa [LexesAsName, kinds_ofSource, cut]

/-- The text is cut into one piece, an identifier. -/
def LexesAsWord (name : String) : Prop :=
  (Piece.ofSource name).map Piece.kind = [some .identifier]

instance (name : String) : Decidable (LexesAsWord name) := inferInstanceAs (Decidable (_ = _))

theorem LexesAsWord.isIdentifier {name : String} (lexes : LexesAsWord name) : IsIdentifier name := by
  rw [LexesAsWord, kinds_ofSource] at lexes
  simpa using isIdentifier_of_pieces lexes

theorem lexesAsWord_iff {name : String} : LexesAsWord name ↔ IsIdentifier name := by
  refine ⟨LexesAsWord.isIdentifier, fun identifier => ?_⟩
  have cut := @IsIdentifier.pieces name identifier [] rfl
  rw [List.append_nil, Munch.pieces_nil] at cut
  rw [LexesAsWord, kinds_ofSource, cut, List.map_singleton]

/-! ### Lexemes of names -/

theorem Text.piecesFrom_read (separator : Char) (text piece : List Char) (read : List (List Char)) :
    Text.piecesFrom separator text piece read =
      read.reverse ++ Text.piecesFrom separator text piece [] := by
  induction text generalizing piece read with
  | nil => simp [Text.piecesFrom]
  | cons c text ih =>
    rw [Text.piecesFrom, Text.piecesFrom]
    split
    · rw [ih [] (piece.reverse :: read), ih [] [piece.reverse]]
      simp
    · exact ih (c :: piece) read

theorem Text.piecesFrom_of_not_mem {separator : Char} (word piece : List Char)
    (read : List (List Char)) (missing : separator ∉ word) :
    Text.piecesFrom separator word piece read = read.reverse ++ [piece.reverse ++ word] := by
  induction word generalizing piece with
  | nil => simp [Text.piecesFrom]
  | cons c word ih =>
    rw [List.mem_cons, not_or] at missing
    rw [Text.piecesFrom, if_neg (Ne.symm missing.1), ih _ missing.2]
    simp

theorem Text.piecesFrom_append {separator : Char} (text word piece : List Char)
    (read : List (List Char)) (missing : separator ∉ word) :
    Text.piecesFrom separator (text ++ separator :: word) piece read =
      Text.piecesFrom separator text piece read ++ [word] := by
  induction text generalizing piece read with
  | nil =>
    simp only [List.nil_append, Text.piecesFrom, if_true]
    rw [Text.piecesFrom_of_not_mem _ _ _ missing]
    simp
  | cons c text ih =>
    rw [List.cons_append, Text.piecesFrom, Text.piecesFrom]
    split
    · exact ih _ _
    · exact ih _ _

/-- The first piece is what stands before the first separator. -/
theorem Text.piecesFrom_eq (separator : Char) (text piece : List Char)
    (read : List (List Char)) : ∃ more, Text.piecesFrom separator text piece read =
      read.reverse ++ (piece.reverse ++ text.takeWhile (· ≠ separator)) :: more := by
  induction text generalizing piece read with
  | nil => exact ⟨[], by simp [Text.piecesFrom]⟩
  | cons c text ih =>
    rw [Text.piecesFrom]
    split
    next same =>
      obtain ⟨more, parts⟩ := ih [] (piece.reverse :: read)
      exact ⟨text.takeWhile (· ≠ separator) :: more, by rw [parts]; simp [same]⟩
    next other =>
      obtain ⟨more, parts⟩ := ih (c :: piece) read
      exact ⟨more, by rw [parts]; simp [other]⟩

namespace Lexeme

/-- The lexemes of a dotted name: its words, with a dot between two. -/
def name (text : String) : List Lexeme :=
  match Text.pieces '.' text.toList with
  | [] => []
  | first :: more =>
    word (String.ofList first) ::
      more.flatMap fun w => [Kind.dot.lexeme, word (String.ofList w)]

theorem name_word {w : String} (isWord : IsWord w) : name w = [word w] := by
  rw [name, Text.pieces, Text.piecesFrom_of_not_mem _ _ _ isWord.dot_not_mem]
  simp

theorem name_eq_cons (text : String) :
    ∃ rest, name text = word (String.ofList (text.toList.takeWhile (· ≠ '.'))) :: rest := by
  obtain ⟨more, parts⟩ := Text.piecesFrom_eq '.' text.toList [] []
  rw [name, Text.pieces, parts]
  exact ⟨_, rfl⟩

theorem name_more (text : String) {w : String} (isWord : IsWord w) :
    name (text ++ "." ++ w) = name text ++ [Kind.dot.lexeme, word w] := by
  have chars : (text ++ "." ++ w).toList = text.toList ++ '.' :: w.toList := by
    rw [String.toList_append, String.toList_append]
    simp
  rw [name, Text.pieces, chars, Text.piecesFrom_append _ _ _ _ isWord.dot_not_mem, name, Text.pieces]
  obtain ⟨more, parts⟩ := Text.piecesFrom_eq '.' text.toList [] []
  simp [parts]

theorem name_ne_nil (text : String) : name text ≠ [] := by
  obtain ⟨rest, spelled⟩ := name_eq_cons text
  simp [spelled]

/-- The lexemes of bracket pairs. -/
def dimensions : Nat → List Lexeme
  | 0 => []
  | n + 1 => Kind.leftBracket.lexeme :: Kind.rightBracket.lexeme :: dimensions n

/-- The lexemes of a list between angle brackets; none for no item. -/
def bracketed : List (List Lexeme) → List Lexeme
  | [] => []
  | items => Kind.less.lexeme :: [Kind.comma.lexeme].intercalate items ++ [Kind.greater.lexeme]

end Lexeme

/-! ### Types made of names -/

mutual

/-- A type whose names are as given. A primitive type stands alone, and only a type with arguments
encloses another; it has no dimensions. -/
inductive TypeRef.Named (Name : String → Prop) : TypeRef → Prop where
  | primitive (p : Primitive) (dimensions : Nat) (span : Span) :
      TypeRef.Named Name ⟨p.keyword, [], dimensions, none, span⟩
  | simple {name : String} {arguments : List TypeArgument} (dimensions : Nat) (span : Span) :
      Name name → (∀ a ∈ arguments, TypeArgument.Named Name a) →
      TypeRef.Named Name ⟨name, arguments, dimensions, none, span⟩
  | member {name : String} {arguments : List TypeArgument} {outer : TypeRef} (dimensions : Nat)
      (span : Span) : TypeRef.Named Name outer → outer.arguments ≠ [] → outer.dimensions = 0 →
      Name name → (∀ a ∈ arguments, TypeArgument.Named Name a) →
      TypeRef.Named Name ⟨name, arguments, dimensions, some outer, span⟩

inductive TypeArgument.Named (Name : String → Prop) : TypeArgument → Prop where
  | type {type : TypeRef} : TypeRef.Named Name type → TypeArgument.Named Name (.type type)
  | wildcard (span : Span) : TypeArgument.Named Name (.wildcard span)
  | bounded (kind : BoundKind) {bound : TypeRef} (span : Span) : TypeRef.Named Name bound →
      TypeArgument.Named Name (.bounded kind bound span)

end

mutual

theorem TypeRef.Named.imp {P Q : String → Prop} (weaker : ∀ name, P name → Q name) {t : TypeRef} :
    t.Named P → t.Named Q
  | .primitive p dimensions span => .primitive p dimensions span
  | .simple dimensions span name named =>
    .simple dimensions span (weaker _ name) fun a member => (named a member).imp weaker
  | .member dimensions span outer nonempty flat name named =>
    .member dimensions span (outer.imp weaker) nonempty flat (weaker _ name)
      fun a member => (named a member).imp weaker

theorem TypeArgument.Named.imp {P Q : String → Prop} (weaker : ∀ name, P name → Q name)
    {a : TypeArgument} : a.Named P → a.Named Q
  | .type named => .type (named.imp weaker)
  | .wildcard span => .wildcard span
  | .bounded kind span named => .bounded kind span (named.imp weaker)

end

mutual

/-- The lexemes of a type as it is written. -/
def TypeRef.lexemes : TypeRef → List Lexeme
  | ⟨name, arguments, dimensions, none, _⟩ =>
    Lexeme.name name ++ Lexeme.bracketed (TypeArgument.lexemesOf arguments) ++
      Lexeme.dimensions dimensions
  | ⟨name, arguments, dimensions, some outer, _⟩ =>
    outer.lexemes ++ Kind.dot.lexeme :: Lexeme.name name ++
      Lexeme.bracketed (TypeArgument.lexemesOf arguments) ++ Lexeme.dimensions dimensions

def TypeArgument.lexemes : TypeArgument → List Lexeme
  | .type type => type.lexemes
  | .wildcard _ => [Kind.question.lexeme]
  | .bounded kind bound _ => Kind.question.lexeme :: Lexeme.word kind.keyword :: bound.lexemes

def TypeArgument.lexemesOf : List TypeArgument → List (List Lexeme)
  | [] => []
  | argument :: rest => argument.lexemes :: TypeArgument.lexemesOf rest

end

@[simp] theorem TypeArgument.lexemesOf_eq_map (arguments : List TypeArgument) :
    lexemesOf arguments = arguments.map lexemes := by
  induction arguments with
  | nil => rfl
  | cons argument rest ih => rw [lexemesOf, ih, List.map_cons]

theorem TypeRef.lexemes_ne_nil (t : TypeRef) : t.lexemes ≠ [] := by
  obtain ⟨name, arguments, dimensions, _ | outer, span⟩ := t
  · simp [lexemes, Lexeme.name_ne_nil]
  · simp [lexemes]

theorem TypeArgument.lexemes_ne_nil (a : TypeArgument) : a.lexemes ≠ [] := by
  cases a with
  | type type => simpa [lexemes] using type.lexemes_ne_nil
  | wildcard span => simp [lexemes]
  | bounded kind bound span => simp [lexemes]

namespace TypeRef

/-- The first word of the name of a type, whatever encloses it. -/
def firstWord (t : TypeRef) : String := String.ofList (t.rawName.toList.takeWhile (· ≠ '.'))

/-- The lexemes of a type are those of its name and of what encloses it, then those of its
arguments and its dimensions. -/
theorem lexemes_mk (name : String) (arguments : List TypeArgument) (dimensions : Nat)
    (enclosing : Option TypeRef) (span : Span) :
    (TypeRef.mk name arguments dimensions enclosing span).lexemes =
      (TypeRef.mk name [] 0 enclosing .synthetic).lexemes ++
        Lexeme.bracketed (arguments.map TypeArgument.lexemes) ++ Lexeme.dimensions dimensions := by
  cases enclosing <;>
    simp [lexemes, Lexeme.bracketed, Lexeme.dimensions]

theorem firstWord_mk (name : String) (arguments : List TypeArgument) (dimensions : Nat)
    (enclosing : Option TypeRef) (span : Span) :
    (TypeRef.mk name arguments dimensions enclosing span).firstWord =
      (TypeRef.mk name [] 0 enclosing .synthetic).firstWord := by
  cases enclosing <;> rfl

private theorem takeWhile_dotted (a b : String) :
    (a ++ "." ++ b).toList.takeWhile (· ≠ '.') = a.toList.takeWhile (· ≠ '.') := by
  rw [String.toList_append, String.toList_append, List.append_assoc]
  generalize a.toList = chars
  induction chars with
  | nil => rfl
  | cons c chars ih =>
    by_cases dot : c = '.'
    · simp [dot]
    · simpa [dot] using ih

private theorem rawName_more (name w : String) (enclosing : Option TypeRef) (span : Span) :
    ∃ before, (TypeRef.mk name [] 0 enclosing span).rawName = before ∧
      (TypeRef.mk (name ++ "." ++ w) [] 0 enclosing span).rawName = before ++ "." ++ w := by
  cases enclosing with
  | none => exact ⟨_, rfl, rfl⟩
  | some outer =>
    refine ⟨_, rfl, ?_⟩
    simp only [rawName, String.append_assoc]

theorem firstWord_more (name w : String) (enclosing : Option TypeRef) (span : Span) :
    (TypeRef.mk (name ++ "." ++ w) [] 0 enclosing span).firstWord =
      (TypeRef.mk name [] 0 enclosing span).firstWord := by
  obtain ⟨before, first, more⟩ := rawName_more name w enclosing span
  rw [firstWord, firstWord, first, more, takeWhile_dotted]

theorem firstWord_enclosed (name : String) (outer : TypeRef) (span : Span) :
    (TypeRef.mk name [] 0 (some outer) span).firstWord = outer.firstWord := by
  rw [firstWord, firstWord, rawName, takeWhile_dotted]

theorem firstWord_word {w : String} (word : IsWord w) (span : Span) :
    (TypeRef.mk w [] 0 none span).firstWord = w := by
  have notDot : ∀ c ∈ w.toList, decide (c ≠ '.') = true := by
    intro c member
    simpa using fun same : c = '.' => word.dot_not_mem (same ▸ member)
  have all : w.toList.takeWhile (· ≠ '.') = w.toList := by
    rwa [List.takeWhile_eq_self_iff]
  rw [firstWord, rawName, all, String.ofList_toList]

/-- A type starts with the first word of its name. -/
theorem lexemes_eq_cons (t : TypeRef) : ∃ rest, t.lexemes = Lexeme.word t.firstWord :: rest := by
  induction t using rawName.induct with
  | case1 name arguments dimensions span =>
    obtain ⟨rest, spelled⟩ := Lexeme.name_eq_cons name
    rw [lexemes, spelled]
    exact ⟨_, rfl⟩
  | case2 name arguments dimensions outer span ih =>
    obtain ⟨rest, spelled⟩ := ih
    rw [lexemes, spelled, firstWord_mk, firstWord_enclosed]
    exact ⟨_, rfl⟩

end TypeRef

/-! ### What is written is what is spelled -/

open Munch (Written Closed)

theorem IsWord.head_ne_dot {w : String} (word : IsWord w) :
    (w.toList.head?.any fun c => c != '.') = true := by
  have missing := word.dot_not_mem
  cases chars : w.toList with
  | nil => exact absurd chars word.nonempty
  | cons c more =>
    rw [chars, List.mem_cons, not_or] at missing
    simp [Ne.symm missing.1]

private theorem ends_dot (text : String) : Munch.ends ("." ++ text).toList = true := by
  rw [String.toList_append]
  exact Munch.ends_of_mem_signs (by decide) _

theorem Dotted.written {name : String} (dotted : Dotted IsWord name) :
    Written name (Lexeme.name name) ∧ (name.toList.head?.any fun c => c != '.') = true := by
  induction dotted with
  | one word =>
    rw [Lexeme.name_word word]
    exact ⟨.word word, word.head_ne_dot⟩
  | @more name w _ word ih =>
    rw [Lexeme.name_more _ word, String.append_assoc]
    refine ⟨ih.1.append (Written.dot (.word word) word.head_ne_dot) (ends_dot w), ?_⟩
    rw [String.toList_append]
    cases chars : name.toList with
    | nil => simp [chars] at ih
    | cons c more => simpa [chars] using ih.2

theorem TypeRef.closed_brackets (n : Nat) :
    Closed (TypeRef.brackets n) (Lexeme.dimensions n) ∧
      Munch.ends (TypeRef.brackets n).toList = true := by
  induction n with
  | zero => exact ⟨fun _ => ⟨[], .nil, rfl⟩, rfl⟩
  | succ n ih =>
    have opening : Closed "[" [Kind.leftBracket.lexeme] := Closed.sign (c := '[') rfl rfl rfl
    have closing : Closed "]" [Kind.rightBracket.lexeme] := Closed.sign (c := ']') rfl rfl rfl
    have parted : TypeRef.brackets (n + 1) = "[" ++ "]" ++ TypeRef.brackets n := by
      simp [TypeRef.brackets, List.replicate_succ]
    rw [parted]
    refine ⟨(opening.append closing).append ih.1, ?_⟩
    rw [String.toList_append, String.toList_append]
    exact Munch.ends_of_mem_signs (by decide) _

/-- A list between angle brackets. -/
theorem Munch.Written.bracketed {α : Type} {text : α → String} {lexemes : α → List Lexeme}
    {items : List α} (each : ∀ x ∈ items, Written (text x) (lexemes x) ∧ lexemes x ≠ []) :
    Closed (TypeArgument.bracketed (items.map text)) (Lexeme.bracketed (items.map lexemes)) ∧
      Munch.ends (TypeArgument.bracketed (items.map text)).toList = true := by
  cases items with
  | nil => exact ⟨fun _ => ⟨[], .nil, rfl⟩, rfl⟩
  | cons x items =>
    have opening : Closed "<" [Kind.less.lexeme] := Closed.sign (c := '<') rfl rfl rfl
    have closing : Closed ">" [Kind.greater.lexeme] := Closed.sign (c := '>') rfl rfl rfl
    have listed := (Written.intercalate Written.comma each).1
    have opened := opening.append_written listed
    refine ⟨opened.append_closed closing (Munch.ends_of_mem_signs (by decide) []) (by decide), ?_⟩
    rw [TypeArgument.bracketed, String.toList_append, String.toList_append]
    · exact Munch.ends_of_mem_signs (by decide) _
    · simp

/-- A name with type arguments and dimensions behind it. -/
private theorem written_part {name : String} {ls : List Lexeme} {arguments : List TypeArgument}
    (written : Written name ls)
    (each : ∀ a ∈ arguments, Written a.text a.lexemes ∧ a.lexemes ≠ []) (dimensions : Nat) :
    Written (name ++ TypeArgument.bracketed (TypeArgument.texts arguments []) ++
        TypeRef.brackets dimensions)
      (ls ++ Lexeme.bracketed (TypeArgument.lexemesOf arguments) ++
        Lexeme.dimensions dimensions) := by
  obtain ⟨closed, ended⟩ := Written.bracketed each
  obtain ⟨closedPairs, endedPairs⟩ := TypeRef.closed_brackets dimensions
  rw [TypeArgument.texts_eq, List.reverse_nil, List.nil_append, TypeArgument.lexemesOf_eq_map]
  exact (written.append closed.written ended).append closedPairs.written endedPairs

theorem isWord_primitive (p : Primitive) : IsWord p.keyword := by
  cases p <;> decide

private theorem isWord_bound (kind : BoundKind) : IsWord kind.keyword := by
  cases kind <;> decide

theorem TypeRef.Named.dotted_rawName {t : TypeRef} :
    t.Named (Dotted IsWord) → Dotted IsWord t.rawName
  | .primitive p _ _ => by
    rw [TypeRef.rawName]
    exact .one (isWord_primitive p)
  | .simple _ _ dotted _ => by
    rw [TypeRef.rawName]
    exact dotted
  | .member _ _ outer _ _ dotted _ => by
    rw [TypeRef.rawName]
    exact outer.dotted_rawName.append dotted

mutual

/-- The text of a type made of words is taken apart into the lexemes of the type. -/
theorem TypeRef.Named.written {t : TypeRef} :
    t.Named (Dotted IsWord) → Written t.text t.lexemes
  | .primitive p dimensions span => by
    rw [TypeRef.text, TypeRef.lexemes, Lexeme.name_word (isWord_primitive p)]
    exact written_part (.word (isWord_primitive p)) (by simp) dimensions
  | .simple dimensions span dotted named => by
    rw [TypeRef.text, TypeRef.lexemes]
    exact written_part dotted.written.1 (fun a member => ⟨(named a member).written, a.lexemes_ne_nil⟩)
      dimensions
  | .member dimensions span outer _ _ dotted named => by
    obtain ⟨written, notDot⟩ := dotted.written
    have whole := written_part (outer.written.append (.dot written notDot) (ends_dot _))
      (fun a member => ⟨(named a member).written, a.lexemes_ne_nil⟩) dimensions
    rw [← String.append_assoc] at whole
    rw [TypeRef.text, TypeRef.lexemes]
    exact whole

theorem TypeArgument.Named.written {a : TypeArgument} :
    a.Named (Dotted IsWord) → Written a.text a.lexemes
  | .type named => by
    rw [TypeArgument.text, TypeArgument.lexemes]
    exact named.written
  | .wildcard span => by
    rw [TypeArgument.text, TypeArgument.lexemes]
    exact (Closed.sign (c := '?') rfl rfl rfl).written
  | .bounded kind span named => by
    have question : Closed "?" [Kind.question.lexeme] := Closed.sign (c := '?') rfl rfl rfl
    rw [TypeArgument.text, TypeArgument.lexemes]
    exact (question.written.blank (.word (isWord_bound kind)) (by simp) (by simp)).blank
      named.written (by simp) (TypeRef.lexemes_ne_nil _)

end

end TestDouble
