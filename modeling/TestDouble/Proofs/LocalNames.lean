import TestDouble.Proofs.Phrases
import TestDouble.Proofs.PieceSlices
import TestDouble.Proofs.TypeInverse

/-!
# Local variables of forwarding bodies

The body of a rebuilt private method declares a local variable, and its name is the same for every
method. Main statement: `Subclass.forwarding_hides_parameter`. The member declares a name twice
exactly when a parameter has this name, and then the argument that stands for this parameter denotes
the local variable. Every other argument denotes the parameter it was taken from.
-/

namespace TestDouble

/-- The tokens that a text starts with, up to where no token starts. -/
def Token.upToFault (source : String) : List Token :=
  match ofPieces ((Piece.ofSource source).takeWhile (·.kind.isSome)) with
  | .ok tokens => tokens
  | .error _ => []

/-- The local variable that a statement declares. Such a statement starts with a type, the name of
the variable and an equals sign. -/
def Statement.localName? (text : String) : Option String :=
  match TypeRef.read (.start (Token.upToFault text)) with
  | .error _ => none
  | .ok r =>
    match r.cursor.ahead with
    | name :: sign :: _ =>
      if name.kind = .identifier ∧ sign.kind = .assign then some name.text else none
    | _ => none

/-- What a name in the body of a member denotes: a parameter, or a local variable of the body. -/
inductive Binding where
  | parameter (index : Nat)
  | localVariable (index : Nat)
  deriving DecidableEq, Repr

namespace Counterpart

/-- The names that a member with the given statements declares. -/
def declaredNames (m : Counterpart) (texts : List String) : List String :=
  m.parameters.map Parameter.name ++ texts.filterMap Statement.localName?

/-- What a name denotes behind the given statements. A local variable hides a parameter. -/
def binding? (m : Counterpart) (before : List String) (name : String) : Option Binding :=
  match (before.filterMap Statement.localName?).idxOf? name with
  | some i => some (.localVariable i)
  | none => ((m.parameters.map Parameter.name).idxOf? name).map .parameter

end Counterpart

/-! ### The tokens that a statement starts with -/

/-- Pieces that are known to be tokens are found whatever stands behind them. -/
theorem Token.lexemes_upToFault {source : String} {ls : List Lexeme}
    {ps qs : List (Option Kind × List Char)} (cut : Munch.pieces source.toList = ps ++ qs)
    (solid : Munch.Solid ps ls) (nonempty : ls ≠ []) :
    ∃ others, (upToFault source).map lexeme = ls ++ others := by
  have whole : ∀ p ∈ ps, p.1.isSome = true := by
    clear cut nonempty
    induction solid with
    | nil => nofun
    | next _ _ ih => exact List.forall_mem_cons.mpr ⟨rfl, ih⟩
    | spaced _ _ _ ih => exact List.forall_mem_cons.mpr ⟨rfl, List.forall_mem_cons.mpr ⟨rfl, ih⟩⟩
  have bare : ((Piece.ofSource source).takeWhile (·.kind.isSome)).map Piece.bare =
      ps ++ qs.takeWhile (·.1.isSome) := by
    rw [← List.takeWhile_append_of_pos whole, ← cut, ← Piece.map_bare_ofSource, List.takeWhile_map]
    rfl
  obtain ⟨m, ms, spelled, -, -, marked⟩ := solid.marks_eq nonempty [] (qs.takeWhile (·.1.isSome))
  have isToken : ∀ p ∈ qs.takeWhile (·.1.isSome), p.1.isSome = true :=
    fun _ => List.mem_takeWhile_imp
  obtain ⟨others, later⟩ := Munch.exists_marks isToken []
  have kept := map_mark_keep ((Piece.ofSource source).takeWhile (·.kind.isSome)) [] []
  rw [bare, marked, later, String.ofList_nil] at kept
  obtain ⟨tokens, found, same⟩ := Option.map_eq_some_iff.mp kept
  refine ⟨others.map Mark.lexeme, ?_⟩
  rw [upToFault, ofPieces, toOption_eq_some found, ← spelled, ← List.map_append]
  have lexemes := congrArg (List.map Mark.lexeme) same
  simpa [Function.comp_def] using lexemes

namespace Statement

variable {text : String} {t : TypeRef} {others : List Lexeme}

/-- Behind the type that a statement starts with, the tokens that follow it come next. -/
private theorem read_upToFault (reads : t.Reads) {l : Lexeme}
    (spelled : (Token.upToFault text).map Token.lexeme = t.lexemes ++ l :: others)
    (ends : l.kind ∉ [Kind.less, .dot, .leftBracket, .atSign]) :
    ∃ r, TypeRef.read (.start (Token.upToFault text)) = .ok r ∧
      r.cursor.ahead.map Token.lexeme = l :: others := by
  obtain ⟨first, ahead, whole, sameFirst, sameAhead⟩ := List.map_eq_append_iff.mp spelled
  have passes : (Cursor.start (Token.upToFault text)).Spells t.lexemes ⟨first.getLast?, ahead⟩ :=
    ⟨first, ⟨whole, by simp [Cursor.start]⟩, sameFirst⟩
  have next : Cursor.nextKind ⟨first.getLast?, ahead⟩ = some l.kind := by
    cases ahead with
    | nil => cases sameAhead
    | cons token ahead => exact congrArg some (congrArg Lexeme.kind (List.cons.inj sameAhead).1)
  obtain ⟨value, h, read, -⟩ := reads _ _ passes (by simpa [Cursor.EndsType, next] using ends)
  exact ⟨_, read, sameAhead⟩

/-- A type, a name and an equals sign declare the name. -/
theorem localName?_of_assign (reads : t.Reads) {name : String}
    (spelled : (Token.upToFault text).map Token.lexeme =
      t.lexemes ++ ⟨.identifier, name⟩ :: Kind.assign.lexeme :: others) :
    localName? text = some name := by
  obtain ⟨r, read, ahead⟩ := read_upToFault reads spelled (by simp)
  simp only [localName?, read]
  split
  next first sign rest whole =>
    rw [whole] at ahead
    simp only [List.map_cons, List.cons.injEq] at ahead
    obtain ⟨sameFirst, sameSign, -⟩ := ahead
    have both : first.kind = .identifier ∧ sign.kind = .assign :=
      ⟨congrArg Lexeme.kind sameFirst, congrArg Lexeme.kind sameSign⟩
    rw [if_pos both]
    exact congrArg (some ·.text) sameFirst
  next noTwo =>
    obtain ⟨first, rest, whole, -, more⟩ := List.map_eq_cons_iff.mp ahead
    obtain ⟨sign, rest', whole', -⟩ := List.map_eq_cons_iff.mp more
    exact absurd (whole.trans (congrArg _ whole')) (noTwo _ _ _)

/-- A statement that opens a parenthesis behind what could be a type declares nothing. -/
theorem localName?_of_paren (reads : t.Reads)
    (spelled : (Token.upToFault text).map Token.lexeme =
      t.lexemes ++ Kind.leftParen.lexeme :: others) : localName? text = none := by
  obtain ⟨r, read, ahead⟩ := read_upToFault reads spelled (by decide)
  simp only [localName?, read]
  split
  next first sign rest whole =>
    rw [whole] at ahead
    have kind : first.kind = .leftParen := congrArg Lexeme.kind (List.cons.inj ahead).1
    rw [if_neg (by simp [kind])]
  next => rfl

end Statement

/-! ### The statements that call a private method -/

namespace Forwarding

open Munch (Written Closed)
open Statement (localName? localName?_of_assign localName?_of_paren)

private theorem reads_named {name : String} (dotted : Dotted IsIdentifier name) :
    (TypeRef.named name).Reads ∧ (TypeRef.named name).lexemes = Lexeme.name name := by
  constructor
  · exact TypeRef.Named.reads (.simple 0 .synthetic dotted nofun)
  · simp [TypeRef.named, TypeRef.lexemes, Lexeme.bracketed, Lexeme.dimensions]

/-- A dotted name and an opening parenthesis start no declaration. -/
theorem localName?_call {callee : String} (dotted : Dotted IsIdentifier callee)
    (arguments : List String) : localName? (call callee arguments) = none := by
  rw [call, String.append_assoc]
  generalize String.intercalate ", " arguments ++ ")" = rest
  obtain ⟨reads, spelled⟩ := reads_named dotted
  have opening : Closed "(" [Kind.leftParen.lexeme] := Closed.sign (c := '(') rfl rfl rfl
  have name : Written callee (Lexeme.name callee) :=
    (dotted.imp fun _ identifier => identifier.word).written.1
  obtain ⟨ps, solid, cut⟩ :=
    name.append_closed opening (Munch.ends_of_mem_signs (by decide) []) (by decide) rest.toList
  rw [← String.toList_append] at cut
  obtain ⟨others, tokens⟩ := Token.lexemes_upToFault cut solid (by simp)
  apply localName?_of_paren reads
  rw [tokens, spelled, List.append_assoc, List.singleton_append]

theorem localName?_lookup (rest : String) :
    localName? ("java.lang.reflect.Method superMethod = " ++ rest) = some "superMethod" := by
  have java : Dotted IsIdentifier ("java" ++ "." ++ "lang" ++ "." ++ "reflect" ++ "." ++ "Method") :=
    .more (.more (.more (.one (by decide)) (by decide)) (by decide)) (by decide)
  obtain ⟨reads, spelled⟩ := reads_named java
  have isVariable : IsWord "superMethod" := by decide
  have equals : Closed "=" [Kind.assign.lexeme] := Closed.sign (c := '=') rfl rfl rfl
  have type : Written _ _ := (java.imp fun _ identifier => identifier.word).written.1
  have declared := (type.blank (Written.word isVariable) (Lexeme.name_ne_nil _) (by simp)).blank
    equals.written (by simp) (by simp)
  obtain ⟨ps, solid, cut⟩ := declared (" " ++ rest).toList
    (by rw [String.toList_append]; exact Munch.ends_of_mem_signs (by decide) _)
  rw [← String.toList_append] at cut
  obtain ⟨others, tokens⟩ := Token.lexemes_upToFault cut solid (by simp)
  have parted : "java.lang.reflect.Method superMethod = " ++ rest =
      "java" ++ "." ++ "lang" ++ "." ++ "reflect" ++ "." ++ "Method" ++ " " ++ "superMethod" ++ " " ++
        "=" ++ (" " ++ rest) := by
    rw [← String.append_assoc]
    rfl
  rw [parted]
  apply localName?_of_assign reads
  rw [tokens, spelled]
  simp only [List.append_assoc]
  rfl

/-- A cast behind `return` starts no declaration. -/
theorem localName?_return (rest : String) : localName? ("return (" ++ rest) = none := by
  have isReturn : IsIdentifier "return" := by decide
  obtain ⟨reads, spelled⟩ := reads_named (.one isReturn)
  rw [Lexeme.name_word isReturn.word] at spelled
  have opening : Closed "(" [Kind.leftParen.lexeme] := Closed.sign (c := '(') rfl rfl rfl
  obtain ⟨qs, solidOpening, cutOpening⟩ := opening rest.toList
  obtain ⟨ps, solidWord, cutWord⟩ := Written.word isReturn.word (' ' :: '(' :: rest.toList)
    (Munch.ends_of_mem_signs (by decide) _)
  have blank : Munch.munch ' ' ('(' :: rest.toList) = (some .whitespace, 0) := by
    rw [Munch.munch_of_isSpace rfl]
    rfl
  have cut : Munch.pieces ("return (" ++ rest).toList =
      (ps ++ (some .whitespace, [' ']) :: qs) ++ Munch.pieces rest.toList := by
    rw [String.toList_append]
    change Munch.pieces ("return".toList ++ ' ' :: '(' :: rest.toList) = _
    rw [cutWord, Munch.pieces_cons, blank, List.append_assoc]
    exact congrArg (ps ++ (some .whitespace, [' ']) :: ·) cutOpening
  obtain ⟨others, tokens⟩ := Token.lexemes_upToFault cut
    (solidWord.append_spaced (by simp) solidOpening) (by simp)
  apply localName?_of_paren reads
  rw [tokens, spelled, List.append_assoc]
  rfl

/-- Of the statements that call a private method, only the first one declares a variable. -/
theorem localNames_calls (decl : ClassDecl) {m : Method}
    (hidden : m.modifiers.contains .privateAccess = true) :
    (calls decl (.method m)).map localName? = [some "superMethod", none, none] := by
  have isSetter : Dotted IsIdentifier ("superMethod" ++ "." ++ "setAccessible") :=
    .more (.one (by decide)) (by decide)
  have isInvoke : Dotted IsIdentifier ("superMethod" ++ "." ++ "invoke") :=
    .more (.one (by decide)) (by decide)
  rw [calls, if_pos hidden, List.map_cons, List.map_cons, List.map_singleton, localName?_lookup]
  have second : localName? (call "superMethod.setAccessible" ["true"]) = none :=
    localName?_call isSetter _
  have last (arguments : List String) : localName? ((if m.returnType.isVoid then "" else
      "return (" ++ m.returnType.text ++ ") ") ++ call "superMethod.invoke" arguments) = none := by
    cases m.returnType.isVoid with
    | true =>
      rw [if_pos rfl, String.empty_append]
      exact localName?_call isInvoke arguments
    | false =>
      rw [if_neg Bool.false_ne_true, String.append_assoc, String.append_assoc]
      exact localName?_return _
  rw [second, last]

end Forwarding

/-! ### Names declared twice -/

namespace Counterpart

theorem map_name_ofMethod (m : Method) (exception : String) (statements : List Statement) :
    (ofMethod m exception statements).parameters.map Parameter.name =
      m.parameters.map Parameter.name := by
  rw [ofMethod, List.map_map]
  rfl

section

variable {m : Counterpart} {names texts : List String} {v : String}

/-- With a single local variable, a name is declared twice only if a parameter has the name of this
variable. -/
theorem nodup_declaredNames_iff (named : m.parameters.map Parameter.name = names)
    (apart : names.Nodup) (locals : texts.filterMap Statement.localName? = [v]) :
    (m.declaredNames texts).Nodup ↔ v ∉ names := by
  rw [declaredNames, named, locals, List.nodup_append]
  constructor
  · rintro ⟨-, -, distinct⟩ member
    exact distinct v member v List.mem_cons_self rfl
  · intro missing
    refine ⟨apart, by simp, ?_⟩
    rintro name member other single rfl
    exact missing (List.mem_singleton.mp single ▸ member)

/-- Behind the declaration of a single local variable, the name of a parameter denotes the parameter
unless it is the name of this variable. -/
theorem binding?_eq (named : m.parameters.map Parameter.name = names) (apart : names.Nodup)
    (locals : texts.filterMap Statement.localName? = [v]) {i : Nat} (inside : i < names.length) :
    m.binding? texts names[i] =
      some (if names[i] = v then .localVariable 0 else .parameter i) := by
  rw [binding?, named, locals]
  by_cases same : names[i] = v
  · rw [if_pos same, same]
    simp
  · have notLocal : [v].idxOf? names[i] = none := by simpa using Ne.symm same
    have first : names.idxOf? names[i] = some i :=
      List.idxOf?_eq_some_iff.mpr ⟨inside, rfl, fun j earlier equal =>
        absurd ((List.getElem_inj apart).mp equal) (by omega)⟩
    rw [if_neg same, notLocal, first]
    rfl

end

end Counterpart

open Forwarding (call receiver) in
/-- A rebuilt private method passes its parameters on by name, behind a local variable whose name is
the same whatever the parameters are. When their names are apart, some name is declared twice exactly
when a parameter has the name of the variable. The argument for this parameter then denotes the
variable; every other one denotes the parameter in its place. -/
theorem Subclass.forwarding_hides_parameter {config : Config} {decl : ClassDecl}
    {package name : String} {s : Subclass}
    (returned : (decl.synthesize config .forwarding package name).outcome = .ok s) :
    List.Forall₂ (fun member counterpart => ∀ m, member = .method m → m.isPrivate = true →
      let names := m.parameters.map Parameter.name
      names.Nodup → ∃ first second last,
        counterpart.statements.mapM Statement.expand = .ok [first, second, last] ∧
        [first, second, last].map Statement.localName? = [some "superMethod", none, none] ∧
        ((counterpart.declaredNames [first, second, last]).Nodup ↔ "superMethod" ∉ names) ∧
        last = (if m.returnType.isVoid then "" else "return (" ++ m.returnType.text ++ ") ") ++
          call "superMethod.invoke" (receiver m :: names) ∧
        ∀ i (inside : i < names.length), counterpart.binding? [first, second] names[i] =
          some (if names[i] = "superMethod" then .localVariable 0 else .parameter i))
      decl.eligibleMembers s.members := by
  obtain rfl := ClassDecl.synthesize_eq_ok returned
  rw [ClassDecl.subclass, List.forall₂_map_right_iff, List.forall₂_same]
  rintro member - m rfl hidden names apart
  change m.modifiers.contains .privateAccess = true at hidden
  have expanded := mapM_of_forall₂ (g := id) (Forwarding.expand_forward decl (.method m))
  have locals := Forwarding.localNames_calls decl hidden
  rw [List.map_id] at expanded
  rw [Forwarding.calls, if_pos hidden] at expanded locals
  have kept := Counterpart.map_name_ofMethod m config.permissiveException
    (Provider.forwarding decl name (.method m)).statements
  -- The variable is declared before the last statement, which passes the parameters on.
  obtain ⟨declares, noneSecond, noneLast⟩ : _ ∧ _ ∧ _ := by simpa using locals
  refine ⟨_, _, _, ?_, locals, ?_, rfl, ?_⟩
  · rw [Counterpart.statements_ofMember]
    exact expanded
  · exact Counterpart.nodup_declaredNames_iff kept apart (by simp [declares, noneSecond, noneLast])
  · intro i inside
    exact Counterpart.binding?_eq kept apart (by simp [declares, noneSecond]) inside

/-- A private method, one of whose parameters has the name of the local variable. -/
def Subclass.hidingMethod : Method :=
  let parameter (type name : String) : Parameter :=
    ⟨.empty, [], .named type, name, false, .synthetic⟩
  ⟨.ofList [.privateAccess], [], [], .named "int", "find",
    [parameter "String" "key", parameter "Object" "superMethod"], [], some default, .synthetic⟩

/-- The argument for this parameter denotes the local variable, the other one its parameter. -/
theorem Subclass.forwarding_hides_parameter_of_hidingMethod :
    let decl : ClassDecl :=
      ⟨.empty, [], "Store", [], none, [], [.method hidingMethod], .synthetic⟩
    ∃ s m first second last, (decl.synthesize {} .forwarding "shop" "Sub").outcome = .ok s ∧
      s.members = [m] ∧ m.statements.mapM Statement.expand = .ok [first, second, last] ∧
      last = "return (int) superMethod.invoke(this, key, superMethod)" ∧
      ¬ (m.declaredNames [first, second, last]).Nodup ∧
      m.binding? [first, second] "key" = some (.parameter 0) ∧
      m.binding? [first, second] "superMethod" = some (.localVariable 0) := by
  intro decl
  obtain ⟨s, returned⟩ : ∃ s, (decl.synthesize {} .forwarding "shop" "Sub").outcome = .ok s :=
    exists_ok_of_isOk (by decide +kernel)
  have eligible : decl.eligibleMembers = [.method hidingMethod] := rfl
  have each := forwarding_hides_parameter returned
  rw [eligible, List.forall₂_cons_left_iff] at each
  obtain ⟨m, rest, rebuilt, noMore, members⟩ := each
  obtain rfl := List.forall₂_nil_left_iff.mp noMore
  obtain ⟨first, second, last, expanded, -, twice, said, denotes⟩ :=
    rebuilt hidingMethod rfl (by decide) (by decide)
  refine ⟨s, m, first, second, last, returned, members, expanded, said.trans ?_, ?_,
    denotes 0 (by decide), denotes 1 (by decide)⟩
  · decide +kernel
  · exact fun apart => absurd (twice.mp apart) (by decide)

end TestDouble
