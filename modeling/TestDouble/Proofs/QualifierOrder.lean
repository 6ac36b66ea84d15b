import TestDouble.Proofs.Concatenation
import TestDouble.Proofs.DeclarationInverse

/-!
# The order of modifiers and annotations

Before a declaration, modifiers, annotations and the words `sealed` and `non-sealed` may stand in any
order and any number of times. Up to something that cannot continue such a sequence, all of it is
taken: what counts is which modifiers occur, and the annotations in their order. The main point is
that an annotation ends where it ends when nothing follows it, so none takes a part of what comes
next.
-/

namespace TestDouble

/-! ### Reading with more tokens behind -/

namespace Cursor.Extends

variable {more : List Token} {c c' d : Cursor} (x : Extends more c c')

include x

theorem expect {kind : Kind} {what : String} {t : Token} {h : d.size < c.size}
    (read : c.expect kind what = .ok ⟨t, d, h⟩) :
    ∃ d' h', c'.expect kind what = .ok ⟨t, d', h'⟩ ∧ Extends more d d' := by
  rw [Cursor.expect] at read ⊢
  cases found : c.accept? kind with
  | none =>
    rw [found] at read
    cases read
  | some r =>
    rw [found] at read
    cases read
    obtain ⟨d', h', found', x'⟩ := x.accept?_some found
    rw [found']
    exact ⟨d', h', rfl, x'⟩

theorem acceptPair?_some {first second : Kind} {t : Token} {h : d.size < c.size}
    (found : c.acceptPair? first second = some ⟨t, d, h⟩) :
    ∃ d' h', c'.acceptPair? first second = some ⟨t, d', h'⟩ ∧ Extends more d d' := by
  obtain ⟨last, _ | ⟨t₁, _ | ⟨t₂, rest⟩⟩⟩ := c
  · cases found
  · cases found
  obtain ⟨last', ahead'⟩ := c'
  obtain rfl : ahead' = t₁ :: t₂ :: (rest ++ more) := x.ahead
  simp only [Cursor.acceptPair?] at found ⊢
  split at found
  next kinds =>
    cases found
    rw [if_pos kinds]
    exact ⟨⟨some t, rest ++ more⟩, by simp only [Cursor.size, List.length_cons]; omega, rfl, rfl, rfl⟩
  next => cases found

omit x in
theorem nameTail {origin origin' b b' : Cursor} {within : b.size < origin.size}
    (within' : b'.size < origin'.size) (x : Extends more b b') {word name : String}
    {h : d.size < origin.size} (passed : Cursor.nameTail origin b within word = ⟨name, d, h⟩)
    (ends : (d.ahead ++ more).head?.map Token.kind ≠ some .dot) :
    ∃ d' h', Cursor.nameTail origin' b' within' word = ⟨name, d', h'⟩ ∧ Extends more d d' := by
  rw [Cursor.nameTail] at passed ⊢
  cases found : b.acceptPair? .dot .identifier with
  | none =>
    rw [found] at passed
    cases passed
    have stays : b'.nextKind ≠ some .dot := by rwa [Cursor.nextKind, x.ahead]
    rw [Cursor.acceptPair?_eq_none stays]
    exact ⟨b', within', rfl, x⟩
  | some r =>
    obtain ⟨t, b₁, shorter⟩ := r
    simp only [found] at passed
    obtain ⟨b₁', shorter', found', x₁⟩ := x.acceptPair?_some found
    simp only [found']
    exact x₁.nameTail (by omega) passed ends
termination_by b.size

/-- A name goes no further than it did if no dot follows it. -/
theorem dottedName {name : String} {h : d.size < c.size} (read : c.dottedName = .ok ⟨name, d, h⟩)
    (ends : (d.ahead ++ more).head?.map Token.kind ≠ some .dot) :
    ∃ d' h', c'.dottedName = .ok ⟨name, d', h'⟩ ∧ Extends more d d' := by
  obtain ⟨⟨word, c₁, h₁⟩, first, finished⟩ := bind_eq_ok read
  obtain ⟨⟨t, _, _⟩, expected, same⟩ := bind_eq_ok first
  cases same
  obtain ⟨c₁', h₁', expected', x₁⟩ := x.expect expected
  obtain ⟨d', h', passed, x'⟩ := x₁.nameTail h₁' (Except.ok.inj finished) ends
  refine ⟨d', h', ?_, x'⟩
  rw [Cursor.dottedName, Cursor.identifier, expected', ok_bind]
  exact congrArg Except.ok passed

theorem skip {n : Nat} (within : n ≤ c.size) :
    ∃ within', Extends more (c.skip n within) (c'.skip n within') := by
  have taken : c'.ahead.take n = c.ahead.take n := by
    rw [x.ahead, List.take_append_of_le_length within]
  have size : c'.size = c.size + more.length := by
    rw [Cursor.size, x.ahead, List.length_append, Cursor.size]
  refine ⟨by omega, ?_, ?_⟩
  · rw [Cursor.skip, Cursor.skip, taken, x.last]
  · rw [Cursor.skip, Cursor.skip, x.ahead, List.drop_append_of_le_length within]

omit x in
theorem sepByTail {α : Type} {origin origin' b b' : Cursor} {separator : Kind}
    {item : (e : Cursor) → e.size ≤ origin.size → Reading α e}
    {item' : (e : Cursor) → e.size ≤ origin'.size → Reading α e}
    (each : ∀ e e' h h', Extends more e e' → ∀ v f shorter, item e h = .ok ⟨v, f, shorter⟩ →
      ∃ f' shorter', item' e' h' = .ok ⟨v, f', shorter'⟩ ∧ Extends more f f')
    {within : b.size ≤ origin.size} (within' : b'.size ≤ origin'.size) (x : Extends more b b')
    {before values : List α} {h : d.size < origin.size}
    (read : Cursor.sepByTail origin separator item b within before = .ok ⟨values, d, h⟩)
    (follows : d.ahead ≠ []) :
    ∃ d' h', Cursor.sepByTail origin' separator item' b' within' before = .ok ⟨values, d', h'⟩ ∧
      Extends more d d' := by
  rw [Cursor.sepByTail] at read ⊢
  obtain ⟨⟨value, b₁, h₁⟩, itemRead, read⟩ := bind_eq_ok read
  obtain ⟨b₁', h₁', itemRead', x₁⟩ := each b b' within within' x _ _ _ itemRead
  rw [itemRead', ok_bind]
  cases found : b₁.accept? separator with
  | none =>
    simp only [found] at read
    cases read
    simp only [x₁.accept?_none found (absurd · follows)]
    exact ⟨b₁', by omega, rfl, x₁⟩
  | some r =>
    obtain ⟨t, b₂, h₂⟩ := r
    simp only [found] at read
    obtain ⟨b₂', h₂', found', x₂⟩ := x₁.accept?_some found
    simp only [found']
    exact x₂.sepByTail each (by omega) read follows
termination_by b.size

/-- Items are read one by one as before, when something follows the last of them. -/
theorem sepBy {α : Type} {separator : Kind} {item : (e : Cursor) → e.size ≤ c.size → Reading α e}
    {item' : (e : Cursor) → e.size ≤ c'.size → Reading α e}
    (each : ∀ e e' h h', Extends more e e' → ∀ v f shorter, item e h = .ok ⟨v, f, shorter⟩ →
      ∃ f' shorter', item' e' h' = .ok ⟨v, f', shorter'⟩ ∧ Extends more f f')
    {values : List α} {h : d.size < c.size} (read : c.sepBy separator item = .ok ⟨values, d, h⟩)
    (follows : d.ahead ≠ []) :
    ∃ d' h', c'.sepBy separator item' = .ok ⟨values, d', h'⟩ ∧ Extends more d d' :=
  x.sepByTail each c'.size_le read follows

/-- So are the items before a closing bracket, of which there may be none. -/
theorem items {α : Type} {item : (e : Cursor) → e.size ≤ c.size → Reading α e}
    (item' : (e : Cursor) → e.size ≤ c'.size → Reading α e)
    (each : ∀ e e' h h', Extends more e e' → ∀ v f shorter, item e h = .ok ⟨v, f, shorter⟩ →
      ∃ f' shorter', item' e' h' = .ok ⟨v, f', shorter'⟩ ∧ Extends more f f')
    {values : List α} {h : d.size ≤ c.size}
    (read : (if c.sees [.rightParen] then return ⟨[], c, c.size_le⟩
      else do
        let ⟨found, c₁, h₁⟩ ← c.sepBy .comma item
        return ⟨found, c₁, Cursor.le_of_lt h₁⟩ : Passing (List α) c) = .ok ⟨values, d, h⟩)
    (follows : d.ahead ≠ []) :
    ∃ d' h', (if c'.sees [.rightParen] then return ⟨[], c', c'.size_le⟩
      else do
        let ⟨found, c₁, h₁⟩ ← c'.sepBy .comma item'
        return ⟨found, c₁, Cursor.le_of_lt h₁⟩ : Passing (List α) c') = .ok ⟨values, d', h'⟩ ∧
        Extends more d d' := by
  -- What follows the list is ahead before it too, so the next token is the same on both sides.
  have within : c.ahead ≠ [] := by
    have positive := List.length_pos_iff.mpr follows
    exact List.length_pos_iff.mp (Nat.lt_of_lt_of_le positive h)
  have sees : c'.sees [.rightParen] = c.sees [.rightParen] := by
    obtain ⟨t, rest, ahead⟩ := List.exists_cons_of_ne_nil within
    rw [Cursor.sees_one, Cursor.sees_one, Cursor.nextKind, Cursor.nextKind, x.ahead, ahead]
    rfl
  rw [sees]
  split at read
  next none =>
    cases read
    rw [if_pos none]
    exact ⟨c', c'.size_le, rfl, x⟩
  next some =>
    rw [if_neg some]
    obtain ⟨⟨found, c₁, h₁⟩, separated, finished⟩ := bind_eq_ok read
    cases finished
    obtain ⟨c₁', h₁', separated', x₁⟩ := x.sepBy each separated follows
    exact ⟨c₁', Cursor.le_of_lt h₁', bind_of_ok separated' rfl, x₁⟩

/-- What a keyword introduces is read as before, and still missing unless more tokens bring it. -/
theorem clause {α : Type} {kind : Kind} {item : (e : Cursor) → e.size ≤ c.size → Reading α e}
    (item' : (e : Cursor) → e.size ≤ c'.size → Reading α e)
    (each : ∀ e e' h h', Extends more e e' → ∀ v f shorter, item e h = .ok ⟨v, f, shorter⟩ →
      ∃ f' shorter', item' e' h' = .ok ⟨v, f', shorter'⟩ ∧ Extends more f f')
    {value : Option α} {h : d.size ≤ c.size} (read : c.clause kind item = .ok ⟨value, d, h⟩)
    (other : more.head?.map Token.kind ≠ some kind) :
    ∃ d' h', c'.clause kind item' = .ok ⟨value, d', h'⟩ ∧ Extends more d d' := by
  rw [Cursor.clause] at read ⊢
  cases found : c.accept? kind with
  | none =>
    simp only [found] at read
    cases read
    rw [x.accept?_none found fun _ => other]
    exact ⟨c', c'.size_le, rfl, x⟩
  | some r =>
    obtain ⟨t, e, shorter⟩ := r
    simp only [found] at read
    obtain ⟨⟨v, f, shorter⟩, itemRead, finished⟩ := bind_eq_ok read
    cases finished
    obtain ⟨e', shorter', found', x₁⟩ := x.accept?_some found
    obtain ⟨f', shorter', itemRead', x₂⟩ := each e e' _ (le_of_lt shorter') x₁ _ _ _ itemRead
    simp only [found']
    exact ⟨f', by omega, bind_of_ok itemRead' rfl, x₂⟩

/-- Where nothing is left, the other cursor stands before the tokens that are added. -/
theorem eq_of_nil (atEnd : c.ahead = []) (last : c.last = d.last) (behind : more = d.ahead) :
    c' = d := by
  have ahead : c'.ahead = d.ahead := by rw [x.ahead, atEnd, List.nil_append, behind]
  have last' : c'.last = d.last := x.last.trans last
  obtain ⟨_, _⟩ := d
  obtain ⟨_, _⟩ := c'
  cases ahead
  cases last'
  rfl

end Cursor.Extends

namespace Fragment

/-- A value that ends before a token ends there too when more tokens follow. -/
theorem valueLength?_extends {stops : List Token → Bool}
    (blind : ∀ t rest rest', stops (t :: rest) = stops (t :: rest')) {ts : List Token}
    (more : List Token) {depth n m : Nat} (found : valueLength? stops ts depth n = some m) :
    m < n + ts.length ∧ valueLength? stops (ts ++ more) depth n = some m := by
  induction ts generalizing depth n with
  | nil => cases found
  | cons t ts ih =>
    have step {depth : Nat} (found : valueLength? stops ts depth (n + 1) = some m) :
        m < n + (ts.length + 1) ∧ valueLength? stops (ts ++ more) depth (n + 1) = some m := by
      obtain ⟨before, again⟩ := ih found
      exact ⟨by omega, again⟩
    rw [List.length_cons, List.cons_append]
    simp only [valueLength?, blind t (ts ++ more) ts] at found ⊢
    split_ifs at found ⊢ with opens closes outside stop
    · exact step found
    · cases found
      exact ⟨by omega, rfl⟩
    · exact step found
    · cases found
      exact ⟨by omega, rfl⟩
    · exact step found

theorem readValue_extends {more : List Token} {c c' d : Cursor} (x : c.Extends more c')
    {what : String} {stops : List Token → Bool}
    (blind : ∀ t rest rest', stops (t :: rest) = stops (t :: rest')) {v : Fragment}
    {h : d.size < c.size} (read : readValue c what stops = .ok ⟨v, d, h⟩) :
    1 < c.size ∧ ∃ d' h', readValue c' what stops = .ok ⟨v, d', h'⟩ ∧ d.Extends more d' := by
  obtain ⟨first, others, passes, rfl, counted⟩ := readValue_eq_ok read
  obtain ⟨before, counted'⟩ := valueLength?_extends blind more counted
  rw [← x.ahead] at counted'
  obtain ⟨within, rfl⟩ := passes.eq_skip
  obtain ⟨within', skipped⟩ := x.skip within
  have passes' : c'.Passes (first :: others) (c'.skip _ within') := by
    refine ⟨?_, ?_⟩
    · rw [x.ahead, skipped.ahead, passes.ahead, List.append_assoc]
    · rw [skipped.last, passes.last, x.last]
  obtain ⟨h', read'⟩ := readValue_of_passes passes' counted' what
  exact ⟨by rw [Cursor.size]; omega, _, h', read', skipped⟩

end Fragment

namespace Annotation

variable {more run : List Token} {c c' d : Cursor}

theorem readArgument_extends (x : c.Extends more c') {a : AnnotationArgument} {h : d.size < c.size}
    (read : readArgument c = .ok ⟨a, d, h⟩) :
    ∃ d' h', readArgument c' = .ok ⟨a, d', h'⟩ ∧ d.Extends more d' := by
  have blind (t : Token) (rest rest' : List Token) : atComma (t :: rest) = atComma (t :: rest') := rfl
  -- A single token is no argument: nothing would end it.
  obtain ⟨last, _ | ⟨key, _ | ⟨sign, rest⟩⟩⟩ := c
  · cases read
  · obtain ⟨⟨v, c₁, h₁⟩, valueRead, -⟩ := bind_eq_ok read
    obtain ⟨two, -⟩ := Fragment.readValue_extends x blind valueRead
    exact absurd two (Nat.lt_irrefl 1)
  obtain ⟨last', ahead'⟩ := c'
  obtain rfl : ahead' = key :: sign :: (rest ++ more) := x.ahead
  simp only [readArgument] at read ⊢
  by_cases named : key.kind = .identifier ∧ sign.kind = .assign
  · rw [if_pos named] at read ⊢
    obtain ⟨⟨v, c₁, h₁⟩, valueRead, finished⟩ := bind_eq_ok read
    cases finished
    have behind : Cursor.Extends more ⟨some sign, rest⟩ ⟨some sign, rest ++ more⟩ := ⟨rfl, rfl⟩
    obtain ⟨-, d', h', valueRead', x'⟩ := Fragment.readValue_extends behind blind valueRead
    exact ⟨d', by simp only [Cursor.size, List.length_cons] at h' ⊢; omega,
      bind_of_ok valueRead' rfl, x'⟩
  · rw [if_neg named] at read ⊢
    obtain ⟨⟨v, c₁, h₁⟩, valueRead, finished⟩ := bind_eq_ok read
    cases finished
    obtain ⟨-, d', h', valueRead', x'⟩ := Fragment.readValue_extends x blind valueRead
    exact ⟨d', h', bind_of_ok valueRead' rfl, x'⟩

theorem readArguments_extends (x : c.Extends more c') {arguments : List AnnotationArgument}
    {h : d.size < c.size} (read : readArguments c = .ok ⟨arguments, d, h⟩) :
    ∃ d' h', readArguments c' = .ok ⟨arguments, d', h'⟩ ∧ d.Extends more d' := by
  obtain ⟨⟨listed, c₁, h₁⟩, items, read⟩ := bind_eq_ok read
  obtain ⟨⟨closing, c₂, h₂⟩, closed, finished⟩ := bind_eq_ok read
  cases finished
  have follows : c₁.ahead ≠ [] := by
    rw [(Cursor.expect_eq_ok closed).1.ahead]
    exact List.cons_ne_nil _ _
  obtain ⟨c₁', h₁', items', x₁⟩ := x.items (fun c' _ => readArgument c')
    (fun _ _ _ _ x _ _ _ read => readArgument_extends x read) items follows
  obtain ⟨d', h', closed', x'⟩ := x₁.expect closed
  exact ⟨d', by omega, bind_of_ok items' (bind_of_ok closed' rfl), x'⟩

/-- The tokens are those of an annotation, which is read from them with nothing left over. -/
def Fills (run : List Token) (a : Annotation) : Prop :=
  ∃ d h, read (.start run) = .ok ⟨a, d, h⟩ ∧ d.ahead = []

theorem Fills.starts {a : Annotation} (fills : Fills run a) :
    ∃ sign word rest, run = sign :: word :: rest ∧ sign.kind = .atSign ∧ word.kind = .identifier := by
  obtain ⟨e, h, alone, all⟩ := fills
  obtain ⟨⟨sign, c₁, h₁⟩, opened, returned⟩ := bind_eq_ok alone
  obtain ⟨⟨name, c₂, h₂⟩, named, -⟩ := bind_eq_ok returned
  obtain ⟨⟨_, c₃, h₃⟩, first, -⟩ := bind_eq_ok named
  obtain ⟨passedSign, isSign⟩ := Cursor.expect_eq_ok opened
  obtain ⟨word, passedWord, isWord, -⟩ := Cursor.identifier_eq_ok first
  exact ⟨sign, word, c₃.ahead, passedSign.ahead.trans (congrArg (sign :: ·) passedWord.ahead), isSign,
    isWord⟩

/-- Wherever the tokens of an annotation stand, this annotation is read and nothing else, unless a dot
or a round bracket follows. -/
theorem read_of_fills {a : Annotation} (fills : Fills run a) (passes : c.Passes run d)
    (notDot : d.nextKind ≠ some .dot) (notParen : d.nextKind ≠ some .leftParen) :
    ∃ h, read c = .ok ⟨a, d, h⟩ := by
  obtain ⟨e, h, alone, all⟩ := fills
  obtain ⟨first, rest, whole, -, -⟩ := read_eq_ok alone
  obtain ⟨⟨sign, c₁, h₁⟩, opened, returned⟩ := bind_eq_ok alone
  obtain ⟨⟨name, c₂, h₂⟩, named, returned⟩ := bind_eq_ok returned
  obtain ⟨⟨arguments, c₃, h₃⟩, listed, finished⟩ := bind_eq_ok returned
  cases finished
  obtain ⟨passedSign, isSign⟩ := Cursor.expect_eq_ok opened
  obtain rfl : run = sign :: c₁.ahead := passedSign.ahead
  -- Behind the sign, the tokens that follow the annotation are the only difference.
  obtain ⟨c₁', passedSign', passes'⟩ := passes.uncons
  obtain ⟨h₁', accepted'⟩ := passedSign'.accept? isSign
  have x₁ : c₁.Extends d.ahead c₁' := ⟨passedSign'.last.trans passedSign.last.symm, passes'.ahead⟩
  -- What follows matters to the name only if there are no arguments.
  have ends : (c₂.ahead ++ d.ahead).head?.map Token.kind ≠ some .dot := by
    rw [Cursor.clause] at listed
    cases found : c₂.accept? .leftParen with
    | none =>
      simp only [found] at listed
      cases listed
      rwa [all]
    | some r =>
      obtain ⟨passedParen, kind⟩ := Cursor.accept?_eq_some found
      rw [passedParen.ahead]
      simp [kind]
  obtain ⟨c₂', h₂', named', x₂⟩ := x₁.dottedName named ends
  obtain ⟨c₃', h₃', listed', x₃⟩ := x₂.clause (fun c' _ => readArguments c')
    (fun _ _ _ _ x _ _ _ read => readArguments_extends x read) listed notParen
  -- Both stop behind the last token of the annotation.
  have tokens : sign :: c₁.ahead = first :: rest := by
    have ahead := whole.ahead
    rwa [all, List.append_nil] at ahead
  have last : e.last = d.last := by
    rw [whole.last, passes.last, ← tokens, List.getLast?_cons]
    rfl
  obtain rfl : c₃' = d := x₃.eq_of_nil all last rfl
  have location : c.location = (Cursor.start (sign :: c₁.ahead)).location := by
    rw [Cursor.location, Cursor.location, passes.ahead]
    rfl
  have stop : c₃'.lastStop = e.lastStop := by rw [Cursor.lastStop, Cursor.lastStop, x₃.last]
  have expected : c.expect .atSign "'@'" = .ok ⟨sign, c₁', h₁'⟩ := by rw [Cursor.expect, accepted']
  refine ⟨by omega, ?_⟩
  rw [read, expected, ok_bind]
  simp only [named', ok_bind, listed', location, stop]
  rfl

end Annotation

/-! ### Sequences -/

/-- One of the words and annotations before a declaration, an annotation with its tokens. The words
`sealed` and `non-sealed` leave no trace. -/
inductive Qualifier where
  | modifier (m : Modifier)
  | annotated (run : List Token) (a : Annotation)
  | sealed

namespace Qualifier

/-- The tokens spell the words `non-sealed`; any operator may stand between them. -/
def NonSealed (t₁ t₂ t₃ : Token) : Prop :=
  t₁.kind = .identifier ∧ t₁.text = "non" ∧ t₂.kind = .operator ∧ t₃.kind = .identifier ∧
    t₃.text = "sealed"

/-- The tokens are those of one modifier, annotation or word. -/
inductive Spelled : Qualifier → List Token → Prop where
  | modifier {m : Modifier} {t : Token} : t.kind = .modifier m → Spelled (.modifier m) [t]
  | annotated {run : List Token} {a : Annotation} : Annotation.Fills run a →
      Spelled (.annotated run a) run
  | sealed {t : Token} : t.kind = .identifier → t.text = "sealed" → Spelled .sealed [t]
  | nonSealed {t₁ t₂ t₃ : Token} : NonSealed t₁ t₂ t₃ → Spelled .sealed [t₁, t₂, t₃]

/-- The tokens are those of a sequence, one after the other. -/
inductive AllSpelled : List Qualifier → List Token → Prop where
  | nil : AllSpelled [] []
  | cons {q : Qualifier} {qs : List Qualifier} {r rest : List Token} :
      Spelled q r → AllSpelled qs rest → AllSpelled (q :: qs) (r ++ rest)

def modifier? : Qualifier → Option Modifier
  | modifier m => some m
  | _ => none

def value? : Qualifier → Option Annotation
  | annotated _ a => some a
  | _ => none

/-- The tokens of an annotation. -/
def run? : Qualifier → Option (List Token)
  | annotated run _ => some run
  | _ => none

end Qualifier

/-- What comes next cannot continue such a sequence: it is no modifier, neither `sealed` nor
`non-sealed`, no round bracket and no dot, and a sign of annotations only where an annotation type is
declared. -/
structure Cursor.EndsQualifiers (d : Cursor) : Prop where
  noModifier : ∀ m, d.nextKind ≠ some (.modifier m)
  noSealed : d.seesWord "sealed" = false
  noNonSealed : ∀ t₁ t₂ t₃ rest, d.ahead = t₁ :: t₂ :: t₃ :: rest → ¬Qualifier.NonSealed t₁ t₂ t₃
  noParen : d.nextKind ≠ some .leftParen
  noDot : d.nextKind ≠ some .dot
  noMarker : ∀ t rest, d.ahead = t :: rest → t.kind = .atSign →
    rest.head?.map Token.kind = some .interfaceWord

namespace Qualifier

variable {c d : Cursor} {q : Qualifier} {qs : List Qualifier} {taken : List Token}

theorem Spelled.starts (spelled : Spelled q taken) : ∃ t rest, taken = t :: rest ∧
    t.kind ≠ .dot ∧ t.kind ≠ .leftParen := by
  cases spelled with
  | modifier kind => exact ⟨_, [], rfl, by simp [kind]⟩
  | annotated fills =>
    obtain ⟨sign, word, rest, rfl, isSign, -⟩ := fills.starts
    exact ⟨sign, word :: rest, rfl, by simp [isSign]⟩
  | sealed kind _ => exact ⟨_, [], rfl, by simp [kind]⟩
  | @nonSealed t₁ t₂ t₃ words => exact ⟨t₁, [t₂, t₃], rfl, by simp [words.1]⟩

/-- Nothing in a sequence, and nothing behind it, continues an annotation. -/
theorem AllSpelled.apart (all : AllSpelled qs taken) (passes : c.Passes taken d)
    (ends : d.EndsQualifiers) : c.nextKind ≠ some .dot ∧ c.nextKind ≠ some .leftParen := by
  rw [Cursor.nextKind, passes.ahead]
  cases all with
  | nil => exact ⟨ends.noDot, ends.noParen⟩
  | cons spelled _ =>
    obtain ⟨t, rest, rfl, notDot, notParen⟩ := spelled.starts
    simp [notDot, notParen]

end Qualifier

namespace Qualifiers

open Qualifier (Spelled AllSpelled NonSealed)

variable {c d : Cursor} {q : Qualifier} {qs : List Qualifier} {taken : List Token}

theorem afterNonSealed?_eq_none
    (other : ∀ t₁ t₂ t₃ rest, c.ahead = t₁ :: t₂ :: t₃ :: rest → ¬NonSealed t₁ t₂ t₃) :
    afterNonSealed? c.ahead = none := by
  unfold afterNonSealed?
  split
  next t₁ t₂ t₃ rest ahead => exact if_neg (other t₁ t₂ t₃ rest ahead)
  next => rfl

theorem modifier?_eq_none (other : ∀ m, c.nextKind ≠ some (.modifier m)) : modifier? c = none := by
  obtain ⟨last, _ | ⟨t, rest⟩⟩ := c
  · rfl
  rw [modifier?]
  split
  next m kind => exact absurd (congrArg some kind) (other m)
  next => rfl

/-- Where nothing can continue them, modifiers and annotations end. -/
theorem readFrom_of_ends {origin : Cursor} (ends : c.EndsQualifiers) (within : c.size ≤ origin.size)
    (s : ModifierSet) (as : List Annotation) :
    readFrom origin c within s as = .ok ⟨⟨s, as.reverse⟩, c, within⟩ := by
  have noMarker : Annotation.comesNext c = false := by
    obtain ⟨last, _ | ⟨t, rest⟩⟩ := c
    · rfl
    unfold Annotation.comesNext
    rw [Cursor.sees_one, Cursor.sees_two]
    by_cases sign : t.kind = .atSign
    · simp [Cursor.nextKind, sign, ends.noMarker t rest rfl sign]
    · simp [Cursor.nextKind, sign]
  have noSealed : c.acceptWord? "sealed" = none := by
    have notSeen := ends.noSealed
    obtain ⟨last, _ | ⟨t, rest⟩⟩ := c
    · rfl
    · simpa [Cursor.seesWord, Cursor.acceptWord?] using notSeen
  rw [readFrom, noMarker, if_neg (by decide), modifier?_eq_none ends.noModifier]
  simp only [passSealed?_of_none noSealed (afterNonSealed?_eq_none ends.noNonSealed)]
  rfl

theorem identifier_first (word : c.nextKind = some .identifier) :
    Annotation.comesNext c = false ∧ modifier? c = none := by
  have noMarker : Annotation.comesNext c = false :=
    Annotation.comesNext_eq_false (by simp [word])
  exact ⟨noMarker, modifier?_eq_none fun m => by simp [word]⟩

/-- One word or annotation is taken, and reading goes on behind it. -/
theorem readFrom_of_spelled {origin : Cursor} (spelled : Spelled q taken) (passes : c.Passes taken d)
    (notDot : d.nextKind ≠ some .dot) (notParen : d.nextKind ≠ some .leftParen)
    (within : c.size ≤ origin.size) (s : ModifierSet) (as : List Annotation) :
    ∃ within', readFrom origin c within s as =
      readFrom origin d within' (q.modifier?.toList.foldl .insert s) (q.value?.toList ++ as) := by
  have size := passes.size_eq
  refine ⟨by omega, ?_⟩
  rw [readFrom]
  -- The reader tries an annotation, a modifier and then `sealed`; those before the one that is
  -- there must fail.
  cases spelled with
  | @modifier m t kind =>
    have next : c.nextKind = some (.modifier m) := passes.nextKind.trans (congrArg some kind)
    have noMarker : Annotation.comesNext c = false :=
      Annotation.comesNext_eq_false (by simp [next])
    obtain ⟨last, ahead⟩ := c
    obtain rfl : ahead = t :: d.ahead := passes.ahead
    obtain ⟨last', ahead'⟩ := d
    obtain rfl : last' = some t := passes.last
    have found : modifier? ⟨last, t :: ahead'⟩ =
        some ⟨m, ⟨some t, ahead'⟩, Cursor.size_tail_lt ..⟩ := by
      simp only [modifier?, kind]
    rw [noMarker, if_neg (by decide), found]
    rfl
  | @annotated run a fills =>
    obtain ⟨sign, word, rest, split, isSign, isWord⟩ := fills.starts
    have comes : Annotation.comesNext c = true := by
      unfold Annotation.comesNext
      rw [Cursor.sees_one, Cursor.sees_two, Cursor.nextKind, passes.ahead, split]
      simp [isSign, isWord]
    obtain ⟨h, read⟩ := Annotation.read_of_fills fills passes notDot notParen
    rw [if_pos comes, read, ok_bind]
    rfl
  | @sealed t kind text =>
    obtain ⟨noMarker, noModifier⟩ := identifier_first (passes.nextKind.trans (congrArg some kind))
    obtain ⟨last, ahead⟩ := c
    obtain rfl : ahead = t :: d.ahead := passes.ahead
    obtain ⟨last', ahead'⟩ := d
    obtain rfl : last' = some t := passes.last
    have found : passSealed? ⟨last, t :: ahead'⟩ =
        some ⟨t, ⟨some t, ahead'⟩, Cursor.size_tail_lt ..⟩ := by
      rw [passSealed?, Cursor.acceptWord?, if_pos ⟨kind, text⟩]
    rw [noMarker, if_neg (by decide), noModifier]
    simp only [found]
    rfl
  | @nonSealed t₁ t₂ t₃ words =>
    obtain ⟨c₁, passed, -⟩ := passes.uncons
    obtain ⟨noMarker, noModifier⟩ :=
      identifier_first (passed.nextKind.trans (congrArg some words.1))
    obtain ⟨last, ahead⟩ := c
    obtain rfl : ahead = t₁ :: t₂ :: t₃ :: d.ahead := passes.ahead
    obtain ⟨last', ahead'⟩ := d
    obtain rfl : last' = some t₃ := passes.last
    have noSealed : Cursor.acceptWord? ⟨last, t₁ :: t₂ :: t₃ :: ahead'⟩ "sealed" = none := by
      simp [Cursor.acceptWord?, words.2.1]
    have behind : afterNonSealed? (t₁ :: t₂ :: t₃ :: ahead') = some (t₃, ahead') := if_pos words
    obtain ⟨h, found⟩ := passSealed?_of_some noSealed behind
    rw [noMarker, if_neg (by decide), noModifier]
    simp only [found]
    rfl

/-- Reading takes the whole sequence: the modifiers join the set, the annotations keep their order. -/
theorem readFrom_of_allSpelled {origin : Cursor} (all : AllSpelled qs taken)
    (passes : c.Passes taken d) (ends : d.EndsQualifiers) (within : c.size ≤ origin.size)
    (s : ModifierSet) (as : List Annotation) :
    ∃ h, readFrom origin c within s as = .ok
      ⟨⟨(qs.filterMap Qualifier.modifier?).foldl .insert s,
        as.reverse ++ qs.filterMap Qualifier.value?⟩, d, h⟩ := by
  induction all generalizing c s as with
  | nil =>
    obtain rfl : d = c := (Cursor.Spells.nil_eq ⟨[], passes, rfl⟩)
    exact ⟨within, by simpa using readFrom_of_ends ends within s as⟩
  | @cons q qs first rest spelled all ih =>
    obtain ⟨c₁, passedFirst, passedRest⟩ := passes.split
    obtain ⟨notDot, notParen⟩ := all.apart passedRest ends
    obtain ⟨within₁, step⟩ := readFrom_of_spelled spelled passedFirst notDot notParen within s as
    obtain ⟨h, read⟩ := ih passedRest within₁ (q.modifier?.toList.foldl .insert s)
      (q.value?.toList ++ as)
    refine ⟨h, ?_⟩
    rw [step, read]
    cases q <;> simp [List.filterMap_cons, Qualifier.modifier?, Qualifier.value?]

theorem read_of_allSpelled (all : AllSpelled qs taken) (passes : c.Passes taken d)
    (ends : d.EndsQualifiers) :
    ∃ s h, read c = .ok ⟨⟨s, qs.filterMap Qualifier.value?⟩, d, h⟩ ∧
      ∀ m, s.contains m = true ↔ .modifier m ∈ qs := by
  obtain ⟨h, read⟩ := readFrom_of_allSpelled all passes ends c.size_le .empty []
  refine ⟨_, h, read, fun m => ?_⟩
  rw [ModifierSet.contains_foldl_insert, ModifierSet.contains_empty, Bool.false_or, decide_eq_true_iff,
    List.mem_filterMap]
  constructor
  · rintro ⟨q, listed, found⟩
    cases q with
    | modifier n =>
      obtain rfl := Option.some.inj found
      exact listed
    | annotated run a => cases found
    | sealed => cases found
  · exact fun listed => ⟨.modifier m, listed, rfl⟩

theorem fills_runs (all : AllSpelled qs taken) :
    List.Forall₂ Annotation.Fills (qs.filterMap Qualifier.run?) (qs.filterMap Qualifier.value?) := by
  induction all with
  | nil => exact .nil
  | cons spelled _ ih =>
    cases spelled with
    | annotated fills => exact .cons fills ih
    | modifier _ => exact ih
    | sealed _ _ => exact ih
    | nonSealed _ => exact ih

/-- Annotations whose tokens match are the same but for their spans. -/
theorem through_of_matching {runs runs' : List (List Token)} {as as' : List Annotation}
    (same : List.Forall₂ (Token.Matching id) runs runs')
    (each : List.Forall₂ Annotation.Fills runs as) (each' : List.Forall₂ Annotation.Fills runs' as') :
    as.map (·.through id) = as'.map (·.through id) := by
  induction same generalizing as as' with
  | nil =>
    cases each
    cases each'
    rfl
  | cons matching _ ih =>
    obtain _ | ⟨⟨d, h, read, -⟩, each⟩ := each
    obtain _ | ⟨⟨d', h', read', -⟩, each'⟩ := each'
    have alike : (Cursor.start _).Matches id (.start _) := matching
    have echo := Annotation.read_echo alike
    rw [read, read'] at echo
    obtain ⟨both⟩ := echo
    rw [List.map_cons, List.map_cons, ih each each', both.value]

theorem allSpelled_of_modifiers {ms : List Modifier}
    (spelled : taken.map Token.lexeme = ms.map fun m => Lexeme.word m.keyword) :
    AllSpelled (ms.map .modifier) taken := by
  induction ms generalizing taken with
  | nil =>
    obtain rfl := List.map_eq_nil_iff.mp spelled
    exact .nil
  | cons m ms ih =>
    obtain ⟨t, rest, rfl, lexeme, others⟩ := List.map_eq_cons_iff.mp spelled
    have kind : t.kind = .modifier m :=
      (congrArg Lexeme.kind lexeme).trans (kind_modifier m)
    exact .cons (r := [t]) (.modifier kind) (ih others)

/-- The keywords of a set are read as the set that they were written for. -/
theorem read_text (s : ModifierSet) :
    ∃ tokens d h, Token.ofSource s.text = .ok tokens ∧
      read (.start tokens) = .ok ⟨⟨s, []⟩, d, h⟩ ∧ d.ahead = [] := by
  obtain ⟨tokens, lexed, spelled⟩ : ∃ tokens, Token.ofSource s.text = .ok tokens ∧
      tokens.map Token.lexeme = s.lexemes := by
    by_cases none : s.toList = []
    · have nothing : Munch.scan [] s.text.toList = some [] := by
        simp [ModifierSet.text, none, Munch.scan, Munch.marks]
      obtain ⟨tokens, lexed, marked⟩ := Token.ofSource_of_scan nothing
      obtain rfl := List.map_eq_nil_iff.mp marked
      exact ⟨[], lexed, by simp [ModifierSet.lexemes, none]⟩
    · exact s.written.ofSource (by simpa [ModifierSet.lexemes] using none)
  let d : Cursor := ⟨tokens.getLast?, []⟩
  have ends : d.EndsQualifiers := by
    constructor <;> simp [d, Cursor.nextKind, Cursor.seesWord]
  obtain ⟨s', h, returned, occurs⟩ := read_of_allSpelled (c := .start tokens) (d := d)
    (allSpelled_of_modifiers spelled) ⟨by simp [d, Cursor.start], by simp [d, Cursor.start]⟩ ends
  obtain rfl : s' = s := by
    apply ModifierSet.ext_contains
    intro m
    have listed : m ∈ Modifier.all := by cases m <;> decide
    rw [Bool.eq_iff_iff, occurs]
    simp [ModifierSet.toList, listed]
  refine ⟨tokens, d, h, lexed, ?_, rfl⟩
  rw [returned]
  congr 3
  simp [Qualifier.value?]

/-- Modifiers, annotations, `sealed` and `non-sealed` are taken in whatever order they stand, all of
them and nothing else: the set has the modifiers that occur, and the annotations keep their order.
Hence the same modifiers and the same annotations give the same, up to spans, however they are mixed
and repeated; and the text of a set is read as that set again. -/
theorem read_forgets_order :
    (∀ qs taken c d, AllSpelled qs taken → c.Passes taken d → d.EndsQualifiers →
      ∃ s h, read c = .ok ⟨⟨s, qs.filterMap Qualifier.value?⟩, d, h⟩ ∧
        ∀ m, s.contains m = true ↔ .modifier m ∈ qs) ∧
    (∀ qs qs' taken taken' c c' d d', AllSpelled qs taken → AllSpelled qs' taken' →
      c.Passes taken d → c'.Passes taken' d' → d.EndsQualifiers → d'.EndsQualifiers →
      (∀ m, .modifier m ∈ qs ↔ .modifier m ∈ qs') →
      List.Forall₂ (Token.Matching id) (qs.filterMap Qualifier.run?) (qs'.filterMap Qualifier.run?) →
      ∃ s as as' h h', read c = .ok ⟨⟨s, as⟩, d, h⟩ ∧ read c' = .ok ⟨⟨s, as'⟩, d', h'⟩ ∧
        as.map (·.through id) = as'.map (·.through id)) ∧
    ∀ s : ModifierSet, ∃ tokens d h, Token.ofSource s.text = .ok tokens ∧
      read (.start tokens) = .ok ⟨⟨s, []⟩, d, h⟩ ∧ d.ahead = [] := by
  refine ⟨fun qs taken c d all passes ends => read_of_allSpelled all passes ends, ?_, read_text⟩
  intro qs qs' taken taken' c c' d d' all all' passes passes' ends ends' modifiers annotations
  obtain ⟨s, h, returned, occurs⟩ := read_of_allSpelled all passes ends
  obtain ⟨s', h', returned', occurs'⟩ := read_of_allSpelled all' passes' ends'
  obtain rfl : s = s' := by
    apply ModifierSet.ext_contains
    intro m
    rw [Bool.eq_iff_iff, occurs, occurs', modifiers]
  exact ⟨s, _, _, h, h', returned, returned',
    through_of_matching annotations (fills_runs all) (fills_runs all')⟩

private def sampleToken (kind : Kind) (text : String) : Token := ⟨kind, text, .origin, ""⟩

private def sampleRun : List Token :=
  [sampleToken .atSign "@", sampleToken .identifier "Override"]

private theorem exists_fills_sampleRun : ∃ a, Annotation.Fills sampleRun a := by
  have spells : (Cursor.start sampleRun).Spells Line.override.lexemes ⟨sampleRun.getLast?, []⟩ :=
    ⟨sampleRun, ⟨by simp [Cursor.start], by simp [Cursor.start]⟩, rfl⟩
  obtain ⟨-, span, h, read⟩ := Annotation.read_override spells (by simp [Cursor.nextKind])
    (by simp [Cursor.nextKind])
  exact ⟨_, _, h, read, rfl⟩

/-- `public @Override non-sealed static` and `static sealed @Override public static` before a class. -/
theorem read_forgets_order_of_mixed :
    let before : List Token := sampleToken (.modifier .publicAccess) "public" :: sampleRun ++
      [sampleToken .identifier "non", sampleToken .operator "-", sampleToken .identifier "sealed",
        sampleToken (.modifier .staticMember) "static"]
    let mixed : List Token := [sampleToken (.modifier .staticMember) "static",
      sampleToken .identifier "sealed"] ++ sampleRun ++
        [sampleToken (.modifier .publicAccess) "public", sampleToken (.modifier .staticMember) "static"]
    let behind : Token := sampleToken .classWord "class"
    ∃ s as as' h h', read ⟨none, before ++ [behind]⟩ = .ok ⟨⟨s, as⟩, ⟨before.getLast?, [behind]⟩, h⟩ ∧
      read ⟨none, mixed ++ [behind]⟩ = .ok ⟨⟨s, as'⟩, ⟨mixed.getLast?, [behind]⟩, h'⟩ ∧
      as.map (·.through id) = as'.map (·.through id) := by
  intro before mixed behind
  obtain ⟨a, fills⟩ := exists_fills_sampleRun
  have first : AllSpelled [.modifier .publicAccess, .annotated sampleRun a, .sealed,
      .modifier .staticMember] before :=
    .cons (r := [_]) (.modifier rfl) (.cons (.annotated fills)
      (.cons (r := [_, _, _]) (.nonSealed ⟨rfl, rfl, rfl, rfl, rfl⟩)
        (.cons (r := [_]) (.modifier rfl) .nil)))
  have second : AllSpelled [.modifier .staticMember, .sealed, .annotated sampleRun a,
      .modifier .publicAccess, .modifier .staticMember] mixed :=
    .cons (r := [_]) (.modifier rfl) (.cons (r := [_]) (.sealed rfl rfl)
      (.cons (.annotated fills)
        (.cons (r := [_]) (.modifier rfl) (.cons (r := [_]) (.modifier rfl) .nil))))
  have ends (last : Option Token) : Cursor.EndsQualifiers ⟨last, [behind]⟩ := by
    constructor <;> simp [Cursor.nextKind, Cursor.seesWord, behind, sampleToken]
  have same : List.Forall₂ (Token.Matching id) [sampleRun] [sampleRun] := .cons ⟨rfl, fun _ _ => rfl⟩ .nil
  exact read_forgets_order.2.1 _ _ before mixed ⟨none, before ++ [behind]⟩
    ⟨none, mixed ++ [behind]⟩ ⟨before.getLast?, [behind]⟩ ⟨mixed.getLast?, [behind]⟩ first second
    ⟨rfl, rfl⟩ ⟨rfl, rfl⟩ (ends _) (ends _) (by simp) same

end Qualifiers

end TestDouble
