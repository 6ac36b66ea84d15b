import TestDouble.Proofs.DeclarationReading
import TestDouble.Proofs.ForwardedCalls

/-!
# Statements that forward

What a forwarding body says is one phrase for each statement: a text on one line whose brackets come
in pairs. A scan for the end of a statement passes a phrase and stops at the semicolon behind it.
-/

namespace TestDouble

/-! ### Brackets in pairs -/

/-- Kinds whose round and square brackets come in pairs, without braces and semicolons. -/
inductive Balanced : List Kind → Prop where
  | nil : Balanced []
  | plain {kind : Kind} {kinds : List Kind} : kind.opens = false → kind.closes = false →
      kind ≠ .semicolon → Balanced kinds → Balanced (kind :: kinds)
  | group {opening closing : Kind} {inner rest : List Kind} :
      opening ∈ [Kind.leftParen, .leftBracket] → closing ∈ [Kind.rightParen, .rightBracket] →
      Balanced inner → Balanced rest → Balanced (opening :: inner ++ closing :: rest)

namespace Balanced

variable {a b : List Kind}

theorem append (first : Balanced a) (second : Balanced b) : Balanced (a ++ b) := by
  induction first with
  | nil => exact second
  | plain notOpening notClosing notEnd _ ih => exact .plain notOpening notClosing notEnd ih
  | group opens closes inner _ _ ih =>
    rw [List.append_assoc, List.cons_append]
    exact .group opens closes inner ih

theorem one {kind : Kind} (notOpening : kind.opens = false) (notClosing : kind.closes = false)
    (notEnd : kind ≠ .semicolon) : Balanced [kind] := .plain notOpening notClosing notEnd .nil

theorem word (w : String) : Balanced [(Lexeme.word w).kind] := by
  rcases Kind.ofWord_cases w with same | ⟨entry, listed, same⟩
  · rw [Lexeme.word, same]
    exact one rfl rfl (by simp)
  · have all : ∀ entry ∈ Kind.keywords,
        entry.2.opens = false ∧ entry.2.closes = false ∧ entry.2 ≠ .semicolon := by decide
    obtain ⟨notOpening, notClosing, notEnd⟩ := all entry listed
    rw [Lexeme.word, same]
    exact one notOpening notClosing notEnd

theorem intercalate {separator : Kind} (parts : Balanced [separator]) {items : List (List Lexeme)}
    (each : ∀ ls ∈ items, Balanced (ls.map Lexeme.kind)) :
    Balanced (([separator.lexeme].intercalate items).map Lexeme.kind) := by
  induction items with
  | nil => exact .nil
  | cons first items ih =>
    cases items with
    | nil => simpa using each first List.mem_cons_self
    | cons second items =>
      have here := each first List.mem_cons_self
      have others := ih fun ls member => each ls (.tail first member)
      rw [List.intercalate_cons_cons, List.map_append, List.map_append]
      exact (here.append parts).append others

theorem name (text : String) : Balanced ((Lexeme.name text).map Lexeme.kind) := by
  have dotted (w : List Char) :
      Balanced [Kind.dot.lexeme.kind, (Lexeme.word (String.ofList w)).kind] :=
    (one rfl rfl (by decide)).append (word _)
  unfold Lexeme.name
  split
  next => exact .nil
  next first more parts =>
    clear parts
    refine (word _).append (b := List.map Lexeme.kind _) ?_
    induction more with
    | nil => exact .nil
    | cons w more ih =>
      rw [List.flatMap_cons, List.map_append]
      exact (dotted w).append ih

theorem dimensions (n : Nat) : Balanced ((Lexeme.dimensions n).map Lexeme.kind) := by
  induction n with
  | zero => exact .nil
  | succ n ih => exact .group (by decide) (by decide) .nil ih

theorem bracketed {items : List (List Lexeme)}
    (each : ∀ ls ∈ items, Balanced (ls.map Lexeme.kind)) :
    Balanced ((Lexeme.bracketed items).map Lexeme.kind) := by
  unfold Lexeme.bracketed
  split
  next => exact .nil
  next =>
    have comma : Balanced [Kind.comma] := one rfl rfl (by decide)
    have listed := intercalate comma each
    rw [List.map_append]
    exact (Balanced.plain rfl rfl (by decide) listed).append (one rfl rfl (by decide))

end Balanced

mutual

theorem TypeRef.balanced : (t : TypeRef) → Balanced (t.lexemes.map Lexeme.kind)
  | ⟨name, arguments, dimensions, none, span⟩ => by
    rw [TypeRef.lexemes, List.map_append, List.map_append]
    exact ((Balanced.name name).append (.bracketed (TypeArgument.balanced arguments))).append
      (.dimensions dimensions)
  | ⟨name, arguments, dimensions, some outer, span⟩ => by
    have dotted : Balanced ((Kind.dot.lexeme :: Lexeme.name name).map Lexeme.kind) :=
      .plain rfl rfl (by decide) (.name name)
    rw [TypeRef.lexemes, List.map_append, List.map_append, List.map_append]
    exact ((outer.balanced.append dotted).append
      (.bracketed (TypeArgument.balanced arguments))).append (.dimensions dimensions)

theorem TypeArgument.balanced : (arguments : List TypeArgument) →
    ∀ ls ∈ TypeArgument.lexemesOf arguments, Balanced (ls.map Lexeme.kind)
  | [], ls, member => by simp [TypeArgument.lexemesOf] at member
  | .type type :: rest, ls, member => by
    rw [TypeArgument.lexemesOf, TypeArgument.lexemes, List.mem_cons] at member
    rcases member with rfl | later
    · exact type.balanced
    · exact TypeArgument.balanced rest ls later
  | .wildcard _ :: rest, ls, member => by
    rw [TypeArgument.lexemesOf, TypeArgument.lexemes, List.mem_cons] at member
    rcases member with rfl | later
    · exact .one rfl rfl (by decide)
    · exact TypeArgument.balanced rest ls later
  | .bounded kind bound _ :: rest, ls, member => by
    rw [TypeArgument.lexemesOf, TypeArgument.lexemes, List.mem_cons] at member
    rcases member with rfl | later
    · exact .plain rfl rfl (by decide) ((Balanced.word kind.keyword).append bound.balanced)
    · exact TypeArgument.balanced rest ls later

end

/-- A scan for the end of a statement passes brackets that come in pairs. -/
theorem Fragment.statementLength?_of_balanced {kinds : List Kind} (balanced : Balanced kinds)
    (afterDo : Bool) {tokens : List Token} (same : tokens.map Token.kind = kinds)
    (rest : List Token) (depth n : Nat) :
    statementLength? afterDo (tokens ++ rest) depth n =
      statementLength? afterDo rest depth (n + tokens.length) := by
  induction balanced generalizing tokens rest depth n with
  | nil =>
    obtain rfl := List.map_eq_nil_iff.mp same
    rfl
  | @plain kind kinds notOpening notClosing notEnd _ ih =>
    obtain ⟨token, others, rfl, rfl, sameOthers⟩ := List.map_eq_cons_iff.mp same
    have step : statementLength? afterDo (token :: (others ++ rest)) depth n =
        statementLength? afterDo (others ++ rest) depth (n + 1) := by
      rw [statementLength?]
      split
      all_goals simp_all [Kind.opens, Kind.closes]
    rw [List.cons_append, step, ih sameOthers, List.length_cons, Nat.add_assoc, Nat.add_comm 1]
  | @group opening closing inner after opens closes _ _ ihInner ihAfter =>
    obtain ⟨front, back, rfl, sameFront, sameBack⟩ := List.map_eq_append_iff.mp same
    obtain ⟨first, within, rfl, rfl, sameInner⟩ := List.map_eq_cons_iff.mp sameFront
    obtain ⟨last, others, rfl, rfl, sameAfter⟩ := List.map_eq_cons_iff.mp sameBack
    have raised (tokens : List Token) : statementLength? afterDo (first :: tokens) depth n =
        statementLength? afterDo tokens (depth + 1) (n + 1) := by
      rw [statementLength?]
      rcases List.mem_pair.mp opens with kind | kind <;> rw [kind]
    have lowered (tokens : List Token) (k : Nat) :
        statementLength? afterDo (last :: tokens) (depth + 1) k =
          statementLength? afterDo tokens depth (k + 1) := by
      rw [statementLength?]
      rcases List.mem_pair.mp closes with kind | kind <;> rw [kind] <;> rfl
    rw [List.cons_append, List.cons_append, List.append_assoc, raised, ihInner sameInner,
      List.cons_append, lowered, ihAfter sameAfter]
    congr 1
    simp only [List.length_cons, List.length_append]
    omega

/-! ### Phrases -/

open Munch (Written Closed)

/-- The text is made of the lexemes, at least one, and its brackets come in pairs. -/
structure Phrase (text : String) (ls : List Lexeme) : Prop where
  written : Written text ls
  balanced : Balanced (ls.map Lexeme.kind)
  nonempty : ls ≠ []
  head : (text.toList.head?.any fun c => c != '.') = true

private theorem head_append {a : String} (head : (a.toList.head?.any fun c => c != '.') = true)
    (b : String) : ((a ++ b).toList.head?.any fun c => c != '.') = true := by
  rw [String.toList_append]
  cases chars : a.toList with
  | nil => simp [chars] at head
  | cons c more => simpa [chars] using head

namespace Phrase

variable {a b : String} {la lb : List Lexeme}

theorem ofDotted {name : String} (dotted : Dotted IsWord name) :
    Phrase name (Lexeme.name name) where
  written := dotted.written.1
  balanced := .name name
  nonempty := Lexeme.name_ne_nil name
  head := dotted.written.2

theorem word {w : String} (isWord : IsWord w) : Phrase w (Lexeme.name w) := .ofDotted (.one isWord)

theorem literal {w : String} (isWord : IsWord w) :
    Phrase (Text.Quoted.encode w) [⟨.stringLiteral, Text.Quoted.encode w⟩] where
  written := (Closed.literal isWord.nonempty).written
  balanced := .one rfl rfl nofun
  nonempty := by simp
  head := by simp [Text.Quoted.encode]

/-- A phrase goes on with a text that ends words. -/
theorem goOn (phrase : Phrase a la) (written : Written b lb)
    (balanced : Balanced (lb.map Lexeme.kind)) (ended : Munch.ends b.toList = true) :
    Phrase (a ++ b) (la ++ lb) where
  written := phrase.written.append written ended
  balanced := by
    rw [List.map_append]
    exact phrase.balanced.append balanced
  nonempty := by simp [phrase.nonempty]
  head := head_append phrase.head b

theorem brackets (phrase : Phrase a la) (n : Nat) :
    Phrase (a ++ TypeRef.brackets n) (la ++ Lexeme.dimensions n) := by
  obtain ⟨closed, ended⟩ := TypeRef.closed_brackets n
  exact phrase.goOn closed.written (.dimensions n) ended

theorem dot (first : Phrase a la) (second : Phrase b lb) :
    Phrase (a ++ "." ++ b) (la ++ Kind.dot.lexeme :: lb) := by
  have ended : Munch.ends ("." ++ b).toList = true := by
    rw [String.toList_append]
    exact Munch.ends_of_mem_signs (by decide) _
  rw [String.append_assoc]
  exact first.goOn (.dot second.written second.head)
    (.plain rfl rfl (by decide) second.balanced) ended

theorem blank (first : Phrase a la) (second : Phrase b lb) :
    Phrase (a ++ " " ++ b) (la ++ lb) where
  written := first.written.blank second.written first.nonempty second.nonempty
  balanced := by
    rw [List.map_append]
    exact first.balanced.append second.balanced
  nonempty := by simp [first.nonempty]
  head := head_append (head_append first.head " ") b

theorem comma (first : Phrase a la) (second : Phrase b lb) :
    Phrase (a ++ ", " ++ b) (la ++ [Kind.comma.lexeme] ++ lb) where
  written := first.written.comma second.written first.nonempty second.nonempty
  balanced := by
    rw [List.map_append, List.map_append]
    exact (first.balanced.append (.one rfl rfl (by decide))).append second.balanced
  nonempty := by simp [first.nonempty]
  head := head_append (head_append first.head ", ") b

theorem parens (written : Written a la) (balanced : Balanced (la.map Lexeme.kind)) :
    Phrase ("(" ++ a ++ ")") (Kind.leftParen.lexeme :: la ++ [Kind.rightParen.lexeme]) where
  written := by
    have opening : Closed "(" [Kind.leftParen.lexeme] := Closed.sign (c := '(') rfl rfl rfl
    have closing : Closed ")" [Kind.rightParen.lexeme] := Closed.sign (c := ')') rfl rfl rfl
    exact (opening.append_written written).append closing.written
      (Munch.ends_of_mem_signs (by decide) [])
  balanced := by
    rw [List.map_append, List.map_cons]
    exact .group (by decide) (by decide) balanced .nil
  nonempty := by simp
  head := head_append (head_append (by decide) a) ")"

theorem call (first : Phrase a la) (second : Phrase b lb) :
    ∃ ls, Phrase (a ++ "(" ++ b ++ ")") ls := by
  have ended : Munch.ends ("(" ++ b ++ ")").toList = true := by
    rw [String.toList_append, String.toList_append]
    exact Munch.ends_of_mem_signs (by decide) _
  have inner := parens second.written second.balanced
  have whole := first.goOn inner.written inner.balanced ended
  simp only [String.append_assoc] at whole ⊢
  exact ⟨_, whole⟩

theorem callEmpty (phrase : Phrase a la) : ∃ ls, Phrase (a ++ "()") ls := by
  have opening : Closed "(" [Kind.leftParen.lexeme] := Closed.sign (c := '(') rfl rfl rfl
  have closing : Closed ")" [Kind.rightParen.lexeme] := Closed.sign (c := ')') rfl rfl rfl
  exact ⟨_, phrase.goOn (opening.append closing).written
    (.group (by decide) (by decide) .nil .nil) (Munch.ends_of_mem_signs (by decide) [')'])⟩

theorem assign (first : Phrase a la) (second : Phrase b lb) :
    ∃ ls, Phrase (a ++ " = " ++ b) ls := by
  have sign : Closed "=" [Kind.assign.lexeme] := Closed.sign (c := '=') rfl rfl rfl
  have equals : Phrase "=" [Kind.assign.lexeme] :=
    ⟨sign.written, .one rfl rfl (by decide), by simp, by decide⟩
  have whole := (first.blank equals).blank second
  have parted : a ++ " = " ++ b = a ++ " " ++ "=" ++ " " ++ b := by
    rw [show " = " = " " ++ "=" ++ " " from rfl]
    simp only [String.append_assoc]
  rw [parted]
  exact ⟨_, whole⟩

/-- A call that passes on parameters, or nothing. -/
theorem callAll (phrase : Phrase a la) {parameters : List Parameter}
    (words : ∀ p ∈ parameters, IsWord p.name) :
    ∃ ls, Phrase (a ++ "(" ++ passedOn parameters ++ ")") ls := by
  have listed : parameters = [] ∨ ∃ ls, Phrase (passedOn parameters) ls := by
    induction parameters with
    | nil => exact .inl rfl
    | cons p parameters ih =>
      have first : Phrase p.name _ := .word (words p List.mem_cons_self)
      rcases ih fun q member => words q (.tail p member) with rfl | ⟨ls, others⟩
      · exact .inr ⟨_, by simpa [passedOn] using first⟩
      · cases parameters with
        | nil => exact .inr ⟨_, by simpa [passedOn] using first⟩
        | cons q parameters =>
          have both := first.comma others
          simp only [passedOn, List.map_cons, String.intercalate_cons_cons] at both ⊢
          exact .inr ⟨_, both⟩
  rcases listed with rfl | ⟨ls, arguments⟩
  · obtain ⟨ls, whole⟩ := phrase.callEmpty
    have parted : a ++ "(" ++ passedOn [] ++ ")" = a ++ "()" := by
      rw [show passedOn [] = "" from rfl, show "()" = "(" ++ ")" from rfl]
      simp only [String.append_assoc, String.empty_append]
    exact ⟨ls, parted ▸ whole⟩
  · exact phrase.call arguments

/-- A phrase with more phrases behind it, each behind a comma. -/
theorem join {α : Type} {text : α → String} {items : List α} (phrase : ∃ ls, Phrase a ls)
    (each : ∀ x ∈ items, ∃ ls, Phrase (text x) ls) :
    ∃ ls, Phrase (a ++ String.join (items.map fun x => ", " ++ text x)) ls := by
  induction items generalizing a with
  | nil => simpa using phrase
  | cons x items ih =>
    obtain ⟨ls, phrase⟩ := phrase
    obtain ⟨ks, next⟩ := each x List.mem_cons_self
    have rest := ih ⟨_, phrase.comma next⟩ fun y member => each y (.tail x member)
    simpa [String.append_assoc] using rest

end Phrase

/-! ### Templates -/

namespace Statement

/-- The statement can be expanded, to a phrase. -/
def Speaks (s : Statement) : Prop := ∃ text ls, s.expand = .ok text ∧ Phrase text ls

/-- A statement behind `return`. -/
theorem Speaks.returned {template : String} {arguments : List Argument}
    (speaks : Speaks ⟨template, arguments⟩) : Speaks ⟨"return " ++ template, arguments⟩ := by
  obtain ⟨text, ls, expanded, phrase⟩ := speaks
  have isWord : IsWord "return" := by decide
  exact ⟨_, _, expand_behind (by decide) expanded, (Phrase.word isWord).blank phrase⟩

end Statement

namespace Forwarding

open Statement (Speaks)

variable {parameters : List Parameter}

theorem speaks_constructor (words : ∀ p ∈ parameters, IsWord p.name) :
    Speaks ⟨"super($L)", [⟨.literal, passedOn parameters⟩]⟩ := by
  have isWord : IsWord "super" := by decide
  obtain ⟨ls, phrase⟩ := (Phrase.word isWord).callAll words
  exact ⟨_, ls, expand_constructor, phrase⟩

theorem speaks_throughSuper {name : String} (isName : IsWord name)
    (words : ∀ p ∈ parameters, IsWord p.name) :
    Speaks ⟨"super.$N($L)", [⟨.name, name⟩, ⟨.literal, passedOn parameters⟩]⟩ := by
  have isWord : IsWord "super" := by decide
  obtain ⟨ls, phrase⟩ := ((Phrase.word isWord).dot (.word isName)).callAll words
  exact ⟨_, ls, expand_throughSuper, phrase⟩

theorem speaks_static {base name : String} (isBase : IsWord base) (isName : IsWord name)
    (words : ∀ p ∈ parameters, IsWord p.name) :
    Speaks ⟨"$T.$N($L)", [⟨.type, base⟩, ⟨.name, name⟩, ⟨.literal, passedOn parameters⟩]⟩ := by
  obtain ⟨ls, phrase⟩ := ((Phrase.word isBase).dot (.word isName)).callAll words
  exact ⟨_, ls, expand_static, phrase⟩

/-! ### Calls by reflection -/

/-- The names that stand for a type in a class literal are names that occur in the source. -/
theorem resolveName_dotted {scope : List TypeParameter}
    (named : ∀ p ∈ scope, p.Named IsWord) (steps : Nat) {name found : String}
    (dotted : Dotted IsWord name) (resolved : resolveName scope name steps = some found) :
    Dotted IsWord found := by
  induction steps generalizing name with
  | zero => cases resolved
  | succ steps ih =>
    rw [resolveName] at resolved
    split at resolved
    next =>
      cases resolved
      exact dotted
    next p known =>
      refine ih ?_ resolved
      split
      next => exact .one (by decide)
      next bound more bounds =>
        have member := List.mem_of_find?_eq_some known
        exact ((named p member).bounds bound (by simp [bounds])).dotted_rawName

variable {scope : List TypeParameter}

/-- The class literal of a parameter. -/
theorem phrase_classLiteral (inScope : ∀ p ∈ scope, p.Named IsWord) {p : Parameter}
    (named : p.Named IsWord) :
    ∃ ls, Phrase (classLiteral scope p) ls := by
  have dotted : Dotted IsWord
      ((resolveName scope p.type.rawName (scope.length + 1)).getD "Object") := by
    cases resolved : resolveName scope p.type.rawName (scope.length + 1) with
    | none => exact .one (by decide)
    | some found => exact resolveName_dotted inScope _ named.type.dotted_rawName resolved
  have erased : ∃ ls, Phrase (p.type.erasedIn scope) ls :=
    ⟨_, (Phrase.ofDotted dotted).brackets p.type.dimensions⟩
  have marked : ∃ ls, Phrase (p.type.erasedIn scope ++ (if p.variadic then "[]" else "")) ls := by
    obtain ⟨ls, erased⟩ := erased
    cases p.variadic with
    | false => exact ⟨ls, by simpa using erased⟩
    | true => exact ⟨_, erased.brackets 1⟩
  obtain ⟨ls, marked⟩ := marked
  have isWord : IsWord "class" := by decide
  have whole := marked.dot (.word isWord)
  have joined : "." ++ "class" = ".class" := rfl
  rw [String.append_assoc, joined] at whole
  exact ⟨_, whole⟩

/-- A call whose first argument is a phrase, as all the others are. -/
theorem phrase_call {callee first : String} {others : List String} {ls ks : List Lexeme}
    (called : Phrase callee ls) (leading : Phrase first ks)
    (each : ∀ text ∈ others, ∃ ls, Phrase text ls) :
    ∃ ls, Phrase (call callee (first :: others)) ls := by
  obtain ⟨_, arguments⟩ := Phrase.join ⟨_, leading⟩ each
  obtain ⟨_, whole⟩ := called.call arguments
  rw [call_cons]
  simp only [String.append_assoc] at whole ⊢
  exact ⟨_, whole⟩

theorem phrase_holder {decl : ClassDecl} (isBase : IsWord decl.name) (m : Method) :
    ∃ ls, Phrase (holder decl m) ls := by
  have isClass : IsWord "class" := by decide
  have isGetClass : IsWord "getClass" := by decide
  have isSuperclass : IsWord "getSuperclass" := by decide
  unfold holder
  split
  next =>
    have target := (Phrase.word isBase).dot (.word isClass)
    rw [String.append_assoc] at target
    exact ⟨_, target⟩
  next =>
    obtain ⟨_, own⟩ := (Phrase.word isGetClass).callEmpty
    exact (own.dot (.word isSuperclass)).callEmpty

theorem speaks_lookup {decl : ClassDecl} (isBase : IsWord decl.name)
    (inScope : ∀ p ∈ scope, p.Named IsWord) {m : Method} (named : m.Named IsWord) :
    (lookup (some decl) m (classLiterals scope m.parameters)).Speaks := by
  have java : Dotted IsWord ("java" ++ "." ++ "lang" ++ "." ++ "reflect" ++ "." ++ "Method") :=
    .more (.more (.more (.one (by decide)) (by decide)) (by decide))
      (by decide)
  have isVariable : IsWord "superMethod" := by decide
  have isLookup : IsWord "getDeclaredMethod" := by decide
  have literals : ∀ text ∈ m.parameters.map (classLiteral scope), ∃ ls, Phrase text ls := by
    intro text listed
    obtain ⟨p, member, rfl⟩ := List.mem_map.mp listed
    exact phrase_classLiteral inScope (named.parameters p member)
  obtain ⟨_, holder⟩ := phrase_holder isBase m
  have callee := holder.dot (.word isLookup)
  rw [String.append_assoc] at callee
  obtain ⟨_, called⟩ := phrase_call callee (.literal named.name) literals
  obtain ⟨ls, whole⟩ := ((Phrase.ofDotted java).blank (.word isVariable)).assign called
  exact ⟨_, ls, expand_lookup decl m scope, whole⟩

theorem speaks_setAccessible : (Statement.code "superMethod.setAccessible(true)").Speaks := by
  have isVariable : IsWord "superMethod" := by decide
  have isSetter : IsWord "setAccessible" := by decide
  have isTrue : IsWord "true" := by decide
  have callee := (Phrase.word isVariable).dot (.word isSetter)
  have noOthers : ∀ text ∈ ([] : List String), ∃ ls, Phrase text ls := nofun
  obtain ⟨ls, phrase⟩ := phrase_call callee (.word isTrue) noOthers
  exact ⟨_, ls, expand_setAccessible, phrase⟩

theorem speaks_invoke {receiver : String} (isReceiver : IsWord receiver)
    (plain : '$' ∉ receiver.toList) (words : ∀ p ∈ parameters, IsWord p.name) :
    Speaks ⟨"superMethod.invoke(" ++ receiver ++ "$L)",
      [⟨.literal, invocationArguments parameters⟩]⟩ := by
  have isVariable : IsWord "superMethod" := by decide
  have isInvoke : IsWord "invoke" := by decide
  have names : ∀ text ∈ parameters.map Parameter.name, ∃ ls, Phrase text ls := by
    intro text listed
    obtain ⟨p, member, rfl⟩ := List.mem_map.mp listed
    exact ⟨_, Phrase.word (words p member)⟩
  have callee := (Phrase.word isVariable).dot (.word isInvoke)
  obtain ⟨ls, phrase⟩ := phrase_call callee (.word isReceiver) names
  exact ⟨_, ls, expand_invoke plain, phrase⟩

/-- A statement behind `return` and a cast to a type. -/
theorem speaks_cast {template : String} {arguments : List Argument} {type : TypeRef}
    (named : type.Named (Dotted IsWord)) (speaks : Speaks ⟨template, arguments⟩) :
    Speaks ⟨"return ($T) " ++ template, ⟨.type, type.text⟩ :: arguments⟩ := by
  obtain ⟨text, ls, expanded, phrase⟩ := speaks
  have isWord : IsWord "return" := by decide
  have cast := Phrase.parens named.written type.balanced
  have whole := ((Phrase.word isWord).blank cast).blank phrase
  have joined : "return" ++ " " ++ ("(" ++ type.text ++ ")") ++ " " ++ text =
      "return (" ++ type.text ++ ") " ++ text := by
    rw [show "return (" = "return" ++ " " ++ "(" from rfl, show ") " = ")" ++ " " from rfl]
    simp only [String.append_assoc]
  rw [joined] at whole
  exact ⟨_, _, Statement.expand_cast expanded, whole⟩

/-- Every statement of a private method's body can be expanded. -/
theorem speaks_reflective {decl : ClassDecl} (declNamed : decl.Named IsWord) {m : Method}
    (named : m.Named IsWord) : ∀ s ∈ reflective (some decl) m, s.Speaks := by
  have inScope : ∀ p ∈ m.typeParameters ++ decl.typeParameters, p.Named IsWord := by
    intro p member
    rcases List.mem_append.mp member with own | ofClass
    · exact named.typeParameters p own
    · exact declNamed.typeParameters p ofClass
  have words : ∀ p ∈ m.parameters, IsWord p.name := fun p member => (named.parameters p member).name
  have invoke : Speaks ⟨"superMethod.invoke(" ++ (if m.isStatic then "null" else "this") ++ "$L)",
      [⟨.literal, invocationArguments m.parameters⟩]⟩ := by
    split
    · exact speaks_invoke (by decide) (by decide) words
    · exact speaks_invoke (by decide) (by decide) words
  intro s member
  simp only [reflective, List.mem_cons, List.not_mem_nil, or_false] at member
  rcases member with rfl | rfl | rfl
  · exact speaks_lookup declNamed.name inScope named
  · exact speaks_setAccessible
  · split
    · exact invoke
    · exact speaks_cast named.returnType invoke

theorem speaks_direct {decl : ClassDecl} (declNamed : decl.Named IsWord) {m : Method}
    (named : m.Named IsWord) : ∀ s ∈ (direct (some decl) m).statements, s.Speaks := by
  have words : ∀ p ∈ m.parameters, IsWord p.name := fun p member => (named.parameters p member).name
  have maybeReturned {template : String} {arguments : List Argument}
      (speaks : Speaks ⟨template, arguments⟩) :
      Speaks ⟨(if m.returnType.isVoid then "" else "return ") ++ template, arguments⟩ := by
    split
    · simpa using speaks
    · exact speaks.returned
  intro s member
  simp only [direct] at member
  split at member
  · obtain rfl := List.mem_singleton.mp member
    exact maybeReturned (speaks_static declNamed.name named.name words)
  · obtain rfl := List.mem_singleton.mp member
    exact maybeReturned (speaks_throughSuper named.name words)

end Forwarding

/-- A member whose names are as given. -/
def Member.Named (Word : String → Prop) : Member → Prop
  | .constructor k => k.Named Word
  | .method m => m.Named Word

/-- Every statement that forwards a member can be expanded, and there are few of them. -/
theorem Forwarding.forward_speaks {decl : ClassDecl} (declNamed : decl.Named IsWord)
    {member : Member} (named : member.Named IsWord) :
    (∀ s ∈ (forward (some decl) member).statements, s.Speaks) ∧
      (forward (some decl) member).statements.length ≤ 3 := by
  cases member with
  | constructor k =>
    have words : ∀ p ∈ k.parameters, IsWord p.name :=
      fun p member => (named.parameters p member).name
    refine ⟨fun s listed => ?_, by simp [forward]⟩
    obtain rfl := List.mem_singleton.mp listed
    exact speaks_constructor words
  | method m =>
    simp only [forward]
    split
    next => exact ⟨speaks_reflective declNamed named, by simp [reflective]⟩
    next =>
      refine ⟨speaks_direct declNamed named, ?_⟩
      simp only [direct]
      split <;> simp

end TestDouble
