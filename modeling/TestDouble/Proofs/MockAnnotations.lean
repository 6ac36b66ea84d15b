import TestDouble.Proofs.ClassLiterals
import TestDouble.Proofs.RawTexts

/-!
# What mock annotations accept

The values of a `@MockMethod` annotation are kept as source text, and literals are found in them by what
the text starts and ends with. Main statement: `MockMethod.ofAnnotation_of_read`. A string is taken from
every value whose first and last tokens are quoted, and a type from every value that ends in `.class`
with more than bracket pairs before it; a class literal with anything skipped before `class` is refused.
-/

namespace TestDouble

/-- The value of an argument of an annotation in a source is made up of tokens. -/
theorem Raw.TakenFrom.argument_madeUp {source : String} {tokens : List Token} {a : Annotation}
    (lexed : Token.ofSource source = .ok tokens) (taken : (Raw.arguments a).TakenFrom tokens)
    {key raw : String} (given : a.argument? key = some raw) : ∃ found, Token.MakeUp found raw := by
  obtain ⟨own, within, -, -, arguments⟩ := taken
  obtain ⟨argument, listed, answers⟩ := List.exists_of_findSome?_eq_some given
  have isText : argument.text = raw := by
    cases argument <;> simp only [AnnotationArgument.answer?] at answers <;> split at answers <;>
      first
        | exact Option.some.inj answers
        | cases answers
  obtain ⟨first, more, run, text⟩ := arguments argument listed
  rw [← isText, text]
  exact Token.MakeUp.of_run lexed (run.trans within)

namespace MockMethod

open Text.Quoted (Denotes decode?)
open TypeRef (IsLiteral ofClassLiteral?)

section

variable {α : Type} {a : Annotation} {key : String} {read : String → Option α}
  {fault : String → DeclarationFault} {Reads : String → α → Prop}
  (each : ∀ raw, a.argument? key = some raw → ∀ value, read raw = some value ↔ Reads raw value)

include each

theorem argument_eq_ok_iff {found : Option α} :
    argument a key read fault = .ok found ↔ Option.Rel Reads (a.argument? key) found := by
  unfold argument
  cases given : a.argument? key with
  | none =>
    constructor
    · intro returned
      cases returned
      exact .none
    · rintro ⟨⟩
      rfl
  | some raw =>
    have reads := each raw given
    cases isRead : read raw with
    | none =>
      simp only [isRead, reduceCtorEq, false_iff] at reads ⊢
      intro found
      cases found with
      | some isRead => exact reads _ isRead
    | some value =>
      simp only [isRead, Except.ok.injEq, Option.some.injEq] at reads ⊢
      constructor
      · rintro rfl
        exact .some ((reads value).mp rfl)
      · intro found
        cases found with
        | some isRead => rw [(reads _).mpr isRead]

/-- A value that is read as nothing is what the error is about. -/
theorem argument_eq_error {raw : String} (given : a.argument? key = some raw)
    (unread : ∀ value, ¬Reads raw value) :
    argument a key read fault = .error (.malformed ("@" ++ a.name) (fault raw)) := by
  have none : read raw = none := by
    rw [Option.eq_none_iff_forall_ne_some]
    exact fun value isRead => unread value ((each raw given value).mp isRead)
  rw [argument, given]
  simp only [none]

end

section

variable {a : Annotation} (marked : a.simpleName = annotationName)
  (strings : ∀ raw, a.argument? "targetMethod" = some raw → ∀ value,
    decode? raw = some value ↔ Denotes raw value)
  (classes : ∀ raw, a.argument? "targetClass" = some raw → ∀ type,
    ofClassLiteral? raw = some type ↔ IsLiteral raw type)

include marked strings

/-- The value for the method is looked at first. -/
theorem ofAnnotation_eq_error_notString {raw : String} (given : a.argument? "targetMethod" = some raw)
    (unread : ∀ value, ¬Denotes raw value) :
    ofAnnotation a = .error (.malformed ("@" ++ a.name) (.notString raw)) := by
  unfold ofAnnotation
  rw [if_pos marked, argument_eq_error strings given unread]
  rfl

include classes

theorem ofAnnotation_eq_ok_iff {mock : MockMethod} :
    ofAnnotation a = .ok (some mock) ↔ ∃ method type,
      Option.Rel Denotes (a.argument? "targetMethod") method ∧
      Option.Rel IsLiteral (a.argument? "targetClass") type ∧
      mock = ⟨method.filter (· ≠ ""), type.filter (·.simpleName ≠ noClass)⟩ := by
  unfold ofAnnotation
  rw [if_pos marked]
  constructor
  · intro returned
    obtain ⟨method, methodRead, returned⟩ := bind_eq_ok returned
    obtain ⟨type, typeRead, returned⟩ := bind_eq_ok returned
    cases returned
    exact ⟨method, type, (argument_eq_ok_iff strings).mp methodRead,
      (argument_eq_ok_iff classes).mp typeRead, rfl⟩
  · rintro ⟨method, type, methodRead, typeRead, rfl⟩
    rw [(argument_eq_ok_iff strings).mpr methodRead, (argument_eq_ok_iff classes).mpr typeRead]
    rfl

theorem ofAnnotation_eq_error_notClassLiteral {raw : String} {method : Option String}
    (methodRead : Option.Rel Denotes (a.argument? "targetMethod") method)
    (given : a.argument? "targetClass" = some raw) (unread : ∀ type, ¬IsLiteral raw type) :
    ofAnnotation a = .error (.malformed ("@" ++ a.name) (.notClassLiteral raw)) := by
  unfold ofAnnotation
  rw [if_pos marked, (argument_eq_ok_iff strings).mpr methodRead,
    argument_eq_error classes given unread]
  rfl

end

/-- A `@MockMethod` annotation of a source names the method and the class that its values denote, and is
refused when a value denotes nothing. A value denotes a string when its first and its last token are
quoted, be it one string literal or not. A value denotes a type when it ends in `.class` and has a name
before that. A class literal does so unless something is skipped before `class`, and it denotes its own
type exactly when nothing but white space before a pair or the dot is skipped in it. -/
theorem ofAnnotation_of_read {source : String} {unit : CompilationUnit} {a : Annotation}
    (read : (CompilationUnit.read source).outcome = .ok unit) (member : .arguments a ∈ unit.raws)
    (marked : a.simpleName = annotationName) :
    (∀ mock, ofAnnotation a = .ok (some mock) ↔ ∃ method type,
      Option.Rel Denotes (a.argument? "targetMethod") method ∧
      Option.Rel IsLiteral (a.argument? "targetClass") type ∧
      mock = ⟨method.filter (· ≠ ""), type.filter (·.simpleName ≠ noClass)⟩) ∧
    (∀ raw, a.argument? "targetMethod" = some raw →
      ((∀ value, ¬Denotes raw value) →
        ofAnnotation a = .error (.malformed ("@" ++ a.name) (.notString raw))) ∧
      ∃ tokens first last, Token.ofSource raw = .ok tokens ∧ tokens.head? = some first ∧
        tokens.getLast? = some last ∧
        ((∃ value, Denotes raw value) ↔ first.kind.isQuoted = true ∧ last.kind.isQuoted = true)) ∧
    (∀ raw, a.argument? "targetClass" = some raw →
      (∀ method, Option.Rel Denotes (a.argument? "targetMethod") method →
        (∀ type, ¬IsLiteral raw type) →
        ofAnnotation a = .error (.malformed ("@" ++ a.name) (.notClassLiteral raw))) ∧
      ∃ tokens, Token.ofSource raw = .ok tokens ∧
        ((∃ type, IsLiteral raw type) ↔ Token.EndInClass tokens ∧ ¬Text.Nameless raw) ∧
        ∀ l : ClassLiteral, l.tokens = tokens →
          ((∃ type, IsLiteral raw type) ↔ l.word.leading = "") ∧
          (IsLiteral raw l.type ↔ l.IsTight)) := by
  -- Whatever its key, a value is made up of tokens of the source.
  obtain ⟨tokens, types, lexed, whole⟩ := CompilationUnit.read_eq_ok read
  have taken := CompilationUnit.takenFrom_of_ofTokens (congrArg Prod.snd whole) _ member
  have madeUp (key raw : String) (given : a.argument? key = some raw) :
      ∃ found, Token.MakeUp found raw := taken.argument_madeUp lexed given
  have strings : ∀ raw, a.argument? "targetMethod" = some raw → ∀ value,
      decode? raw = some value ↔ Denotes raw value := by
    intro raw given value
    obtain ⟨found, made⟩ := madeUp _ raw given
    exact made.decode?_eq_some_iff
  have classes : ∀ raw, a.argument? "targetClass" = some raw → ∀ type,
      ofClassLiteral? raw = some type ↔ IsLiteral raw type := by
    intro raw given type
    obtain ⟨found, made⟩ := madeUp _ raw given
    exact made.ofClassLiteral?_eq_some_iff
  refine ⟨fun mock => ofAnnotation_eq_ok_iff marked strings classes, ?_, ?_⟩
  · intro raw given
    refine ⟨ofAnnotation_eq_error_notString marked strings given, ?_⟩
    obtain ⟨found, made⟩ := madeUp _ raw given
    have first := List.head?_eq_some_head made.nonempty
    have last := List.getLast?_eq_some_getLast made.nonempty
    exact ⟨found, _, _, made.lexed, first, last, made.denotes_iff first last⟩
  · intro raw given
    refine ⟨fun method methodRead =>
      ofAnnotation_eq_error_notClassLiteral marked strings classes methodRead given, ?_⟩
    obtain ⟨found, made⟩ := madeUp _ raw given
    refine ⟨found, made.lexed, ?_, ?_⟩
    · rw [made.isLiteral_iff, made.ends_in_class_iff]
    · rintro l rfl
      exact ⟨l.isLiteral_iff made, l.isLiteral_type_iff made⟩

/-- A class with a string literal and a class literal, with a sum of strings, and with a blank before
`class`. -/
private def mockSource : String :=
  "class T \x7b @MockMethod(targetMethod = \"get\", targetClass = int[].class) void a() \x7b\x7d " ++
  "@MockMethod(targetMethod = \"a\" + \"b\") void b() \x7b\x7d " ++
  "@MockMethod(targetClass = Map. class) void c() \x7b\x7d \x7d"

private def nameAndArguments? : Raw → Option (String × List AnnotationArgument)
  | .arguments a => some (a.name, a.arguments)
  | _ => none

/-- The literals are read as what they say, the sum is taken for a string, and the third value is
refused though it is a class literal. -/
theorem ofAnnotation_of_read_mockSource :
    ∃ unit, (CompilationUnit.read mockSource).outcome = .ok unit ∧
      (∃ a, .arguments a ∈ unit.raws ∧
        ofAnnotation a = .ok (some ⟨some "get", some { TypeRef.named "int" with dimensions := 1 }⟩)) ∧
      (∃ a, .arguments a ∈ unit.raws ∧ ofAnnotation a = .ok (some ⟨some "a\" + \"b", none⟩)) ∧
      ∃ a, .arguments a ∈ unit.raws ∧
        ofAnnotation a = .error (.malformed "@MockMethod" (.notClassLiteral "Map. class")) := by
  have kept : (CompilationUnit.read mockSource).outcome.toOption.map
      (·.raws.filterMap nameAndArguments?) = some
        [("MockMethod", [.named "targetMethod" "\"get\"", .named "targetClass" "int[].class"]),
          ("MockMethod", [.named "targetMethod" "\"a\" + \"b\""]),
          ("MockMethod", [.named "targetClass" "Map. class"])] := by
    have signs : mockSource.toList = _ := Text.toList_of_parts
      (Text.toList_of_parts String.toList_ofList String.toList_ofList) String.toList_ofList
    rw [CompilationUnit.read, Token.ofSource, Piece.ofSource, signs]
    decide +kernel
  obtain ⟨unit, found, listed⟩ := Option.map_eq_some_iff.mp kept
  have read := toOption_eq_some found
  -- The three annotations are found among what the unit keeps, by their arguments.
  have given (values : List AnnotationArgument)
      (member : ("MockMethod", values) ∈ unit.raws.filterMap nameAndArguments?) :
      ∃ a, .arguments a ∈ unit.raws ∧ a.name = "MockMethod" ∧ a.simpleName = annotationName ∧
        ∀ key, a.argument? key = values.findSome? (AnnotationArgument.answer? key) := by
    obtain ⟨x, inRaws, same⟩ := List.mem_filterMap.mp member
    cases x with
    | arguments a =>
      obtain ⟨name, arguments⟩ := Prod.mk.inj (Option.some.inj same)
      refine ⟨a, inRaws, name, ?_, fun key => ?_⟩
      · unfold Annotation.simpleName
        rw [name]
        decide
      · unfold Annotation.argument?
        rw [arguments]
    | statement | initializer => cases same
  rw [listed] at given
  refine ⟨unit, read, ?_, ?_, ?_⟩
  · obtain ⟨a, member, -, marked, values⟩ := given _ (.head _)
    obtain ⟨accepts, -, -⟩ := ofAnnotation_of_read read member marked
    refine ⟨a, member, (accepts _).mpr ⟨some "get",
      some { TypeRef.named "int" with dimensions := 1 }, ?_, ?_, rfl⟩⟩
    · rw [values]
      exact .some ⟨"get".toList, by decide, by decide⟩
    · have pair : Text.Pairs ['[', ']'] 1 := @Text.Pairs.cons [] [] 0 (by simp) .nil
      have base : Text.IsBase "int".toList := by
        refine ⟨fun c last => ?_, by decide⟩
        obtain rfl : 't' = c := Option.some.inj last
        decide
      rw [values]
      exact .some ⟨"int".toList, ['[', ']'], [], 1, by decide, by decide, base, pair, by simp,
        by rw [String.ofList_toList]⟩
  · obtain ⟨a, member, -, marked, values⟩ := given _ (.tail _ (.head _))
    obtain ⟨accepts, -, -⟩ := ofAnnotation_of_read read member marked
    refine ⟨a, member, (accepts _).mpr ⟨some "a\" + \"b", none, ?_, ?_, rfl⟩⟩
    · rw [values]
      exact .some ⟨"a\" + \"b".toList, by decide, by decide⟩
    · rw [values]
      exact .none
  · obtain ⟨a, member, name, marked, values⟩ := given _ (.tail _ (.tail _ (.head _)))
    obtain ⟨-, -, classes⟩ := ofAnnotation_of_read read member marked
    obtain ⟨refuses, -⟩ := classes "Map. class" (by rw [values]; rfl)
    have noMethod : Option.Rel Denotes (a.argument? "targetMethod") none := by
      rw [values]
      exact .none
    have noLiteral : ∀ type, ¬IsLiteral "Map. class" type := by
      rintro type ⟨base, pairs, blanks, n, whole, -⟩
      have ends : ".class".toList <:+ "Map. class".toList := ⟨_, whole.symm⟩
      exact absurd ends (by decide)
    refine ⟨a, member, ?_⟩
    rw [refuses none noMethod noLiteral, name]
    rfl

end MockMethod

end TestDouble
