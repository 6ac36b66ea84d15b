import TestDouble.Proofs.Progress
import TestDouble.Proofs.Synthesis
import TestDouble.Subclass.Rendering

/-!
# Calls that forward

A forwarding body is given as templates with arguments. Here is what each of them says once it is
filled in: a call of the counterpart, with the parameters passed on in their order. No argument is
read as a template again, so a dollar sign in a name is a dollar sign in the call.
-/

namespace TestDouble

theorem mapM_of_forall₂ {ε α β γ : Type} {f : α → Except ε β} {g : γ → β} {as : List α}
    {cs : List γ} (each : List.Forall₂ (fun a c => f a = .ok (g c)) as cs) :
    as.mapM f = .ok (cs.map g) := by
  induction each with
  | nil => rfl
  | cons first _ ih =>
    rw [List.mapM_cons, first, ih]
    rfl

/-! ### Templates -/

namespace Statement

/-- A template that can be filled in is filled in the same way behind other text. -/
theorem fill_append {chars : List Char} {arguments : List Argument} {used : Nat}
    {written text : String} (filled : fill chars arguments used written = .ok text)
    (before : String) (used' : Nat) :
    fill chars arguments used' (before ++ written) = .ok (before ++ text) := by
  have pushed (w : String) (c : Char) : before ++ w.push c = (before ++ w).push c := by
    rw [← String.toList_inj]
    simp
  fun_induction fill chars arguments used written generalizing used' with
  | case1 rest arguments used written ih =>
    rw [fill, ← pushed]
    exact ih filled used'
  | case2 => cases filled
  | case3 => cases filled
  | case4 => cases filled
  | case5 used written letter rest notDollar kind known argument others text' filling ih =>
    rw [fill]
    · simp only [known, filling]
      rw [String.append_assoc]
      exact ih filled (used' + 1)
    · exact notDollar
  | case6 => cases filled
  | case7 c rest arguments used written notDouble notHole notLast ih =>
    rw [fill]
    · rw [← pushed]
      exact ih filled used'
    all_goals assumption
  | case8 used written =>
    cases filled
    rfl
  | case9 => cases filled

theorem fill_plain {run : List Char} (plain : '$' ∉ run) (rest : List Char)
    (arguments : List Argument) (used : Nat) (written : String) :
    fill (run ++ rest) arguments used written =
      fill rest arguments used (written ++ String.ofList run) := by
  induction run generalizing written with
  | nil => simp
  | cons c run ih =>
    rw [List.mem_cons, not_or] at plain
    have step : fill (c :: (run ++ rest)) arguments used written =
        fill (run ++ rest) arguments used (written.push c) := by
      rw [fill]
      · exact fun _ dollar => absurd dollar.symm plain.1
      · exact fun _ _ dollar => absurd dollar.symm plain.1
      · exact fun dollar => absurd dollar.symm plain.1
    rw [List.cons_append, step, ih plain.2]
    congr 1
    rw [← String.toList_inj]
    simp

theorem fill_hole {letter : Char} {kind : ArgumentKind} {a : Argument} {text : String}
    (known : ArgumentKind.ofLetter? letter = some kind) (filling : a.fill? kind = some text)
    (rest : List Char) (others : List Argument) (used : Nat) (written : String) :
    fill ('$' :: letter :: rest) (a :: others) used written =
      fill rest others (used + 1) (written ++ text) := by
  rw [fill]
  · simp only [known, filling]
  · rintro rfl
    cases known

theorem fill_last {run : List Char} (plain : '$' ∉ run) (used : Nat) (written : String) :
    fill run [] used written = .ok (written ++ String.ofList run) := by
  have whole := fill_plain plain [] [] used written
  rw [List.append_nil] at whole
  rw [whole, fill]

theorem expand_of_fill {s : Statement} {text : String}
    (filled : fill s.template.toList s.arguments 0 "" = .ok text) : s.expand = .ok text := by
  rw [expand, filled]
  rfl

private theorem fill_escaped (chars : List Char) (used : Nat) (written : String) :
    fill (chars.flatMap fun c => if c = '$' then ['$', '$'] else [c]) [] used written =
      .ok (written ++ String.ofList chars) := by
  induction chars generalizing written with
  | nil => simp [fill]
  | cons c chars ih =>
    have pushed : written.push c ++ String.ofList chars = written ++ String.ofList (c :: chars) := by
      rw [← String.toList_inj]
      simp
    by_cases dollar : c = '$'
    · subst dollar
      rw [List.flatMap_cons, if_pos rfl, List.cons_append, List.cons_append, List.nil_append, fill,
        ih, pushed]
    · have plain : '$' ∉ [c] := by simpa using Ne.symm dollar
      rw [List.flatMap_cons, if_neg dollar, fill_plain plain, ih, String.append_assoc,
        ← String.ofList_append, List.singleton_append]

/-- A statement that is just code is filled in with that code, dollar signs included. -/
theorem expand_code (text : String) : (code text).expand = .ok text := by
  apply expand_of_fill
  rw [code, escape, String.toList_ofList, fill_escaped, String.ofList_toList, String.empty_append]

/-- A statement behind text that stands for itself. -/
theorem expand_behind {before template text : String} {arguments : List Argument}
    (plain : '$' ∉ before.toList) (expanded : expand ⟨template, arguments⟩ = .ok text) :
    expand ⟨before ++ template, arguments⟩ = .ok (before ++ text) := by
  apply expand_of_fill
  have filled := fill_append (mapError_eq_ok expanded) before 0
  rw [String.toList_append, fill_plain plain, String.ofList_toList]
  simpa using filled

/-- A statement behind `return` and a cast. -/
theorem expand_cast {template type text : String} {arguments : List Argument}
    (expanded : expand ⟨template, arguments⟩ = .ok text) :
    expand ⟨"return ($T) " ++ template, ⟨.type, type⟩ :: arguments⟩ =
      .ok ("return (" ++ type ++ ") " ++ text) := by
  apply expand_of_fill
  have parts : ("return ($T) " ++ template).toList =
      "return (".toList ++ '$' :: 'T' :: (") ".toList ++ template.toList) := by
    rw [String.toList_append]
    rfl
  have filled := fill_append (mapError_eq_ok expanded) ("return (" ++ type ++ ") ") 1
  rw [parts, fill_plain (by decide), fill_hole rfl rfl, fill_plain (by decide)]
  simpa using filled

end Statement

namespace Forwarding

open Statement (fill_plain fill_hole fill_last expand_of_fill expand_behind expand_cast)

/-- A call as it is written. -/
def call (target : String) (arguments : List String) : String :=
  target ++ "(" ++ String.intercalate ", " arguments ++ ")"

theorem call_cons (target first : String) (others : List String) :
    call target (first :: others) =
      target ++ "(" ++ first ++ String.join (others.map fun text => ", " ++ text) ++ ")" := by
  have listed : String.intercalate ", " (first :: others) =
      first ++ String.join (others.map fun text => ", " ++ text) := by
    induction others generalizing first with
    | nil => simp
    | cons second others ih =>
      rw [String.intercalate_cons_cons, ih]
      simp [String.append_assoc]
  rw [call, listed, ← String.append_assoc]

/-- The class literal that a private method is looked up with, for one of its parameters. -/
def classLiteral (scope : List TypeParameter) (p : Parameter) : String :=
  p.type.erasedIn scope ++ (if p.variadic then "[]" else "") ++ ".class"

variable {parameters : List Parameter}

theorem expand_constructor :
    (⟨"super($L)", [⟨.literal, passedOn parameters⟩]⟩ : Statement).expand =
      .ok (call "super" (parameters.map Parameter.name)) := by
  apply expand_of_fill
  have template : "super($L)".toList = "super(".toList ++ '$' :: 'L' :: ")".toList := rfl
  rw [template, fill_plain (by decide), fill_hole rfl rfl, fill_last (by decide)]
  simp [call, passedOn, String.append_assoc]

theorem expand_throughSuper {name : String} :
    (⟨"super.$N($L)", [⟨.name, name⟩, ⟨.literal, passedOn parameters⟩]⟩ : Statement).expand =
      .ok (call ("super." ++ name) (parameters.map Parameter.name)) := by
  apply expand_of_fill
  have template : "super.$N($L)".toList =
      "super.".toList ++ '$' :: 'N' :: ("(".toList ++ '$' :: 'L' :: ")".toList) := rfl
  rw [template, fill_plain (by decide), fill_hole rfl rfl, fill_plain (by decide), fill_hole rfl rfl,
    fill_last (by decide)]
  simp [call, passedOn, String.append_assoc]

theorem expand_static {base name : String} :
    (⟨"$T.$N($L)", [⟨.type, base⟩, ⟨.name, name⟩, ⟨.literal, passedOn parameters⟩]⟩ :
      Statement).expand = .ok (call (base ++ "." ++ name) (parameters.map Parameter.name)) := by
  apply expand_of_fill
  have template : "$T.$N($L)".toList =
      '$' :: 'T' :: (".".toList ++ '$' :: 'N' :: ("(".toList ++ '$' :: 'L' :: ")".toList)) := rfl
  rw [template, fill_hole rfl rfl, fill_plain (by decide), fill_hole rfl rfl,
    fill_plain (by decide), fill_hole rfl rfl, fill_last (by decide)]
  simp [call, passedOn, String.append_assoc]

/-- What a private method is looked up on: its class when it is static, else the superclass of the
object. -/
def holder (decl : ClassDecl) (m : Method) : String :=
  if m.isStatic then decl.name ++ ".class" else "getClass().getSuperclass()"

theorem expand_lookup (decl : ClassDecl) (m : Method) (scope : List TypeParameter) :
    (lookup (some decl) m (classLiterals scope m.parameters)).expand =
      .ok ("java.lang.reflect.Method superMethod = " ++
        call (holder decl m ++ ".getDeclaredMethod")
          (Text.Quoted.encode m.name :: m.parameters.map (classLiteral scope))) := by
  have literals : classLiterals scope m.parameters =
      String.join ((m.parameters.map (classLiteral scope)).map fun text => ", " ++ text) := by
    simp [classLiterals, classLiteral, String.append_assoc, Function.comp_def]
  rw [call_cons, ← literals]
  apply expand_of_fill
  -- Static methods are looked up in the class by its name, others in the superclass of the object.
  cases isStatic : m.isStatic with
  | true =>
    have template : "$T superMethod = $T.class.getDeclaredMethod($S$L)".toList =
        '$' :: 'T' :: (" superMethod = ".toList ++ '$' :: 'T' ::
          (".class.getDeclaredMethod(".toList ++ '$' :: 'S' :: '$' :: 'L' :: ")".toList)) := by
      decide +kernel
    simp only [lookup, holder, isStatic, if_true]
    rw [template, fill_hole rfl rfl, fill_plain (by decide), fill_hole rfl rfl,
      fill_plain (by decide), fill_hole rfl rfl, fill_hole rfl rfl, fill_last (by decide)]
    simp [methodType, String.append_assoc]
  | false =>
    have template : "$T superMethod = getClass().getSuperclass().getDeclaredMethod($S$L)".toList =
        '$' :: 'T' :: (" superMethod = getClass().getSuperclass().getDeclaredMethod(".toList ++
          '$' :: 'S' :: '$' :: 'L' :: ")".toList) := by
      decide +kernel
    simp only [lookup, holder, isStatic, Bool.false_eq_true, if_false]
    rw [template, fill_hole rfl rfl, fill_plain (by decide), fill_hole rfl rfl, fill_hole rfl rfl,
      fill_last (by decide)]
    have before : " superMethod = getClass().getSuperclass().getDeclaredMethod(" =
        " superMethod = " ++ "getClass().getSuperclass()" ++ ".getDeclaredMethod" ++ "(" := by
      decide +kernel
    have after : "java.lang.reflect.Method superMethod = " =
        "java.lang.reflect.Method" ++ " superMethod = " := by
      decide +kernel
    rw [String.ofList_toList, String.ofList_toList, before, after, methodType]
    simp only [String.append_assoc, String.empty_append]

theorem expand_setAccessible :
    (Statement.code "superMethod.setAccessible(true)").expand =
      .ok (call "superMethod.setAccessible" ["true"]) := by
  have spelled : call "superMethod.setAccessible" ["true"] = "superMethod.setAccessible(true)" := by
    decide +kernel
  rw [spelled, Statement.expand_code]

theorem expand_invoke {receiver : String} (plain : '$' ∉ receiver.toList) :
    (⟨"superMethod.invoke(" ++ receiver ++ "$L)",
      [⟨.literal, invocationArguments parameters⟩]⟩ : Statement).expand =
      .ok (call "superMethod.invoke" (receiver :: parameters.map Parameter.name)) := by
  apply expand_of_fill
  have template : ("superMethod.invoke(" ++ receiver ++ "$L)").toList =
      "superMethod.invoke(".toList ++ (receiver.toList ++ '$' :: 'L' :: ")".toList) := by
    rw [String.toList_append, String.toList_append, List.append_assoc]
    rfl
  rw [template, fill_plain (by decide), fill_plain plain, fill_hole rfl rfl, fill_last (by decide),
    call_cons]
  simp [invocationArguments, String.append_assoc, Function.comp_def]

/-! ### Bodies -/

/-- The object that a private method is invoked on. -/
def receiver (m : Method) : String := if m.isStatic then "null" else "this"

/-- What a method is called on directly: its class when it is static, else `super`. -/
def target (decl : ClassDecl) (m : Method) : String := if m.isStatic then decl.name else "super"

/-- The calls that forward a member of a class to its counterpart there, in their order. -/
def calls (decl : ClassDecl) : Member → List String
  | .constructor c => [call "super" (c.parameters.map Parameter.name)]
  | .method m =>
    let scope := m.typeParameters ++ decl.typeParameters
    let names := m.parameters.map Parameter.name
    if m.modifiers.contains .privateAccess then
      ["java.lang.reflect.Method superMethod = " ++
        call (holder decl m ++ ".getDeclaredMethod")
          (Text.Quoted.encode m.name :: m.parameters.map (classLiteral scope)),
       call "superMethod.setAccessible" ["true"],
       (if m.returnType.isVoid then "" else "return (" ++ m.returnType.text ++ ") ") ++
        call "superMethod.invoke" (receiver m :: names)]
    else
      [(if m.returnType.isVoid then "" else "return ") ++
        call (target decl m ++ "." ++ m.name) names]

/-- The statements of a private method's body. -/
theorem expand_reflective (decl : ClassDecl) {m : Method}
    (hidden : m.modifiers.contains .privateAccess = true) :
    List.Forall₂ (fun s text => s.expand = .ok text) (reflective (some decl) m)
      (calls decl (.method m)) := by
  have invoked : (⟨"superMethod.invoke(" ++ receiver m ++ "$L)",
      [⟨.literal, invocationArguments m.parameters⟩]⟩ : Statement).expand =
      .ok (call "superMethod.invoke" (receiver m :: m.parameters.map Parameter.name)) := by
    apply expand_invoke
    unfold receiver
    split
    · decide
    · decide
  simp only [calls, hidden, if_true, reflective, Option.map_some, Option.getD_some]
  apply List.Forall₂.cons
  · exact expand_lookup decl m _
  apply List.Forall₂.cons
  · exact expand_setAccessible
  apply List.Forall₂.cons _ .nil
  -- The last statement alone depends on whether there is a result to cast and return.
  cases void : m.returnType.isVoid with
  | true => simpa [receiver] using invoked
  | false => exact expand_cast invoked

/-- The statement of any other method's body. -/
theorem expand_direct (decl : ClassDecl) {m : Method}
    (visible : m.modifiers.contains .privateAccess = false) :
    List.Forall₂ (fun s text => s.expand = .ok text) (direct (some decl) m).statements
      (calls decl (.method m)) := by
  have returned {template text : String} {arguments : List Argument}
      (expanded : Statement.expand ⟨template, arguments⟩ = .ok text) :
      Statement.expand ⟨(if m.returnType.isVoid then "" else "return ") ++ template, arguments⟩ =
        .ok ((if m.returnType.isVoid then "" else "return ") ++ text) := by
    apply expand_behind _ expanded
    split
    · decide
    · decide
  simp only [calls, visible, Bool.false_eq_true, if_false, direct, target]
  cases m.isStatic with
  | true =>
    apply List.Forall₂.cons _ .nil
    exact returned expand_static
  | false =>
    apply List.Forall₂.cons _ .nil
    exact returned expand_throughSuper

/-- Every statement that forwards a member can be expanded, to the call it stands for. -/
theorem expand_forward (decl : ClassDecl) (member : Member) :
    List.Forall₂ (fun s text => s.expand = .ok text) (forward (some decl) member).statements
      (calls decl member) := by
  cases member with
  | constructor c => exact .cons expand_constructor .nil
  | method m =>
    rw [forward, Method.isPrivate]
    cases hidden : m.modifiers.contains .privateAccess with
    | true => exact expand_reflective decl hidden
    | false => exact expand_direct decl hidden

end Forwarding

/-- A member whose statements can all be expanded can be rendered. -/
theorem Counterpart.render_of_expanded (config : Config) (className : String) {m : Counterpart}
    {texts : List String}
    (expanded : List.Forall₂ (fun s text => s.expand = .ok text) m.statements texts) :
    ∃ text, m.render config className = .ok text := by
  have ended : m.statements.mapM Statement.render = .ok (texts.map fun text => text.push ';') := by
    apply mapM_of_forall₂
    apply expanded.imp
    intro s text said
    rw [Statement.render, said]
    rfl
  rw [render, bodyLines, ended]
  exact ⟨_, rfl⟩

/-- A subclass whose statements can all be expanded can be rendered. -/
theorem Subclass.render_of_expanded (config : Config) {s : Subclass}
    (expanded : ∀ m ∈ s.members, ∃ texts,
      List.Forall₂ (fun s text => s.expand = .ok text) m.statements texts) :
    ∃ text, s.render config = .ok text := by
  have each : ∃ texts, List.Forall₂ (fun m text => m.render config s.name = .ok text)
      s.members texts := by
    apply exists_forall₂
    intro m member
    obtain ⟨texts, said⟩ := expanded m member
    exact m.render_of_expanded config s.name said
  obtain ⟨texts, each⟩ := each
  have all := mapM_of_forall₂ (g := id) each
  rw [render, all]
  exact ⟨_, rfl⟩

/-- Whatever the class and its names, a subclass with forwarding bodies can be rendered, and each of
its members says the calls that forward the member it stands for. -/
theorem Subclass.forwarding_renders_calls {config : Config} {decl : ClassDecl}
    {package name : String} {s : Subclass}
    (returned : (decl.synthesize config .forwarding package name).outcome = .ok s) :
    (∃ text, s.render config = .ok text) ∧
      List.Forall₂ (fun member counterpart =>
        counterpart.statements.mapM Statement.expand = .ok (Forwarding.calls decl member))
        decl.eligibleMembers s.members := by
  obtain rfl := ClassDecl.synthesize_eq_ok returned
  constructor
  · apply render_of_expanded
    intro counterpart listed
    obtain ⟨member, _, rfl⟩ := List.mem_map.mp listed
    rw [Counterpart.statements_ofMember]
    exact ⟨_, Forwarding.expand_forward decl member⟩
  · rw [ClassDecl.subclass, List.forall₂_map_right_iff, List.forall₂_same]
    intro member _
    rw [Counterpart.statements_ofMember, Provider.forwarding]
    simpa using mapM_of_forall₂ (g := id) (Forwarding.expand_forward decl member)

/-- A class with a constructor and methods of each access, whose names hold dollar signs and the
letters of placeholders. -/
def Forwarding.dollarBank : ClassDecl :=
  let parameter (type name : String) (variadic : Bool) : Parameter :=
    ⟨.empty, [], .named type, name, variadic, .synthetic⟩
  let method (modifiers : List Modifier) (returned name : String)
      (parameters : List Parameter) : BodyMember :=
    .method ⟨.ofList modifiers, [], [], .named returned, name, parameters, [], some default,
      .synthetic⟩
  ⟨.empty, [], "Bank$T", [⟨"K", [.named "Key"], .synthetic⟩], none, [],
    [.constructor ⟨.empty, [], [], "Bank$T", [parameter "int" "$L" false, parameter "int" "b" false],
       [], default, .synthetic⟩,
     method [.publicAccess, .staticMember] "int" "of$$" [parameter "K" "key" false],
     method [] "void" "close" [],
     method [.abstractMember] "void" "open" [],
     method [.privateAccess, .staticMember] "void" "$N" [parameter "K" "k$S" true],
     method [.privateAccess] "K" "find" [parameter "K" "k" false, parameter "int" "n" false]],
    .synthetic⟩

/-- What the members of its subclass say, statement by statement. -/
def Forwarding.dollarCalls : List (List String) :=
  [["super($L, b)"],
   ["return Bank$T.of$$(key)"],
   ["super.close()"],
   ["java.lang.reflect.Method superMethod = " ++
      "Bank$T.class.getDeclaredMethod(\"$N\", Key[].class)",
    "superMethod.setAccessible(true)",
    "superMethod.invoke(null, k$S)"],
   ["java.lang.reflect.Method superMethod = " ++
      "getClass().getSuperclass().getDeclaredMethod(\"find\", Key.class, int.class)",
    "superMethod.setAccessible(true)",
    "return (K) superMethod.invoke(this, k, n)"]]

open Forwarding in
theorem Subclass.forwarding_renders_calls_of_dollars :
    ∃ s text, (dollarBank.synthesize {} .forwarding "shop" "Sub").outcome = .ok s ∧
      s.render {} = .ok text ∧
      s.members.map (fun m => (m.statements.mapM Statement.expand).toOption) =
        dollarCalls.map some := by
  obtain ⟨s, returned⟩ : ∃ s, (dollarBank.synthesize {} .forwarding "shop" "Sub").outcome = .ok s :=
    exists_ok_of_isOk (by decide +kernel)
  obtain ⟨⟨text, rendered⟩, each⟩ := forwarding_renders_calls returned
  have said : dollarBank.eligibleMembers.map (calls dollarBank) = dollarCalls := by decide +kernel
  refine ⟨s, text, returned, rendered, ?_⟩
  rw [← said, List.map_map]
  apply Eq.symm
  rw [← List.forall₂_eq_eq_eq, List.forall₂_map_left_iff, List.forall₂_map_right_iff]
  apply each.imp
  intro member counterpart expanded
  rw [expanded]
  rfl

end TestDouble
