import TestDouble.Proofs.Phrases
import TestDouble.Subclass.Rendering

/-!
# Subclasses as lines

A subclass whose names are words is rendered as lines of tokens: the package, the header of the
class, and for each member its mark, its header, its statements and the brace that closes it.
-/

namespace TestDouble

open Munch (Written Closed)

/-! ### Lexemes of declarations -/

def TypeParameter.lexemes (p : TypeParameter) : List Lexeme :=
  match p.bounds with
  | [] => [Lexeme.word p.name]
  | bounds => Lexeme.word p.name :: Kind.extendsWord.lexeme ::
      [Kind.ampersand.lexeme].intercalate (bounds.map TypeRef.lexemes)

def Parameter.lexemes (p : Parameter) : List Lexeme :=
  p.type.lexemes ++ (if p.variadic then [Kind.ellipsis.lexeme] else []) ++ [Lexeme.word p.name]

/-- The lexemes of a parameter list with its round brackets. -/
def Parameter.listLexemes (ps : List Parameter) : List Lexeme :=
  Kind.leftParen.lexeme :: [Kind.comma.lexeme].intercalate (ps.map lexemes) ++
    [Kind.rightParen.lexeme]

/-- The lexemes of a list of types behind a keyword; none for no type. -/
def TypeRef.clauseLexemes (keyword : Kind) : List TypeRef → List Lexeme
  | [] => []
  | types => keyword.lexeme :: [Kind.comma.lexeme].intercalate (types.map lexemes)

def ModifierSet.lexemes (s : ModifierSet) : List Lexeme :=
  s.toList.map fun m => Lexeme.word m.keyword

/-- The lexemes of what a member is called: behind its type, or as its class. -/
def CounterpartKind.lexemes (className : String) : CounterpartKind → List Lexeme
  | .method name returnType => returnType.lexemes ++ [Lexeme.word name]
  | .constructor => [Lexeme.word className]

def Counterpart.lexemes (className : String) (m : Counterpart) : List Lexeme :=
  m.modifiers.lexemes ++ Lexeme.bracketed (m.typeParameters.map TypeParameter.lexemes) ++
    m.kind.lexemes className ++ Parameter.listLexemes m.parameters ++
    TypeRef.clauseLexemes .throwsWord m.exceptions ++ [Kind.leftBrace.lexeme]

def Subclass.lexemes (s : Subclass) : List Lexeme :=
  s.modifiers.lexemes ++ Kind.classWord.lexeme :: Lexeme.word s.name ::
    Lexeme.bracketed (s.typeParameters.map TypeParameter.lexemes) ++
    Kind.extendsWord.lexeme :: s.superclass.lexemes ++ [Kind.leftBrace.lexeme]

/-! ### Names -/

/-- A member of a subclass whose names are as given. -/
structure Counterpart.Named (Word : String → Prop) (m : Counterpart) : Prop where
  method : ∀ name returnType, m.kind = .method name returnType →
    Word name ∧ returnType.Named (Dotted Word)
  typeParameters : ∀ p ∈ m.typeParameters, p.Named Word
  parameters : ∀ p ∈ m.parameters, p.Named Word
  exceptions : ∀ t ∈ m.exceptions, t.Named (Dotted Word)

/-- A subclass whose names are as given. -/
structure Subclass.Named (Word : String → Prop) (s : Subclass) : Prop where
  package : s.package ≠ "" → Dotted Word s.package
  name : Word s.name
  typeParameters : ∀ p ∈ s.typeParameters, p.Named Word
  superclass : s.superclass.Named (Dotted Word)
  members : ∀ m ∈ s.members, m.Named Word

/-! ### Headers -/

section

variable {a b : String} {la : List Lexeme}

/-- A reserved word written behind a text and a blank. -/
private theorem written_keyword (first : Written a la) (nonempty : la ≠ []) {w : String}
    (isWord : IsWord w) : Written (a ++ " " ++ w) (la ++ [Lexeme.word w]) :=
  first.blank (.word isWord) nonempty (by simp)

private theorem written_opened (first : Written a la) (nonempty : la ≠ []) :
    Written (a ++ " \x7b") (la ++ [Kind.leftBrace.lexeme]) := by
  have brace : Closed "\x7b" [Kind.leftBrace.lexeme] := Closed.sign (c := '\x7b') rfl rfl rfl
  have whole := first.blank brace.written nonempty (by simp)
  have joined : " " ++ "\x7b" = " \x7b" := rfl
  rwa [String.append_assoc, joined] at whole

theorem TypeParameter.Named.written {p : TypeParameter} (named : p.Named IsWord) :
    Written p.text p.lexemes ∧ p.lexemes ≠ [] := by
  have isExtends : IsWord "extends" := by decide
  cases bounds : p.bounds with
  | nil =>
    rw [text, lexemes, bounds]
    exact ⟨.word named.name, by simp⟩
  | cons bound more =>
    have each : ∀ t ∈ p.bounds, Written t.text t.lexemes ∧ t.lexemes ≠ [] :=
      fun t member => ⟨(named.bounds t member).written, t.lexemes_ne_nil⟩
    obtain ⟨listed, nonempty⟩ := Written.intercalate Written.ampersand each
    have whole := (written_keyword (.word named.name) (by simp) isExtends).blank listed (by simp)
      (nonempty (by simp [bounds]))
    have joined : " " ++ "extends" ++ " " = " extends " := rfl
    rw [bounds] at whole
    rw [text, lexemes, bounds, ← joined]
    refine ⟨?_, by simp⟩
    simp only [String.append_assoc] at whole ⊢
    exact whole

theorem TypeParameter.written_listText {ps : List TypeParameter}
    (named : ∀ p ∈ ps, p.Named IsWord) :
    Closed (listText ps) (Lexeme.bracketed (ps.map lexemes)) ∧
      Munch.ends (listText ps).toList = true :=
  Written.bracketed fun p member => (named p member).written

theorem Parameter.Named.written {p : Parameter} (named : p.Named IsWord) :
    Written p.text p.lexemes ∧ p.lexemes ≠ [] := by
  refine ⟨?_, by simp [lexemes]⟩
  have type := named.type.written
  have nonempty := p.type.lexemes_ne_nil
  have name : Written p.name [Lexeme.word p.name] := .word named.name
  rw [text, typeText, lexemes]
  cases p.variadic with
  | false => simpa using type.blank name nonempty (by simp)
  | true =>
    have dots := type.append Closed.ellipsis.written
      (Munch.ends_of_mem_signs (by decide) ['.', '.'])
    simpa using dots.blank name (by simp) (by simp)

/-- The parameters of a member and the round brackets around them. -/
private theorem written_parameters {ps : List Parameter} (named : ∀ p ∈ ps, p.Named IsWord)
    (first : Written a la) :
    Written (a ++ "(" ++ String.intercalate ", " (ps.map Parameter.text) ++ ")")
      (la ++ Parameter.listLexemes ps) := by
  have opening : Closed "(" [Kind.leftParen.lexeme] := Closed.sign (c := '(') rfl rfl rfl
  have closing : Closed ")" [Kind.rightParen.lexeme] := Closed.sign (c := ')') rfl rfl rfl
  have listed := (Written.intercalate Written.comma fun p member => (named p member).written).1
  have opened := first.append_closed opening (Munch.ends_of_mem_signs (by decide) []) (by decide)
  have whole := (opened.append_written listed).append closing.written
    (Munch.ends_of_mem_signs (by decide) [])
  simpa [Parameter.listLexemes] using whole

/-- The exceptions of a member, if it has any. -/
private theorem written_exceptions {types : List TypeRef}
    (named : ∀ t ∈ types, t.Named (Dotted IsWord)) (first : Written a la) (nonempty : la ≠ []) :
    Written (a ++ (if types.isEmpty then ""
        else " throws " ++ String.intercalate ", " (types.map TypeRef.text)))
      (la ++ TypeRef.clauseLexemes .throwsWord types) := by
  have isThrows : IsWord "throws" := by decide
  cases types with
  | nil => simpa [TypeRef.clauseLexemes] using first
  | cons type more =>
    obtain ⟨listed, some⟩ := Written.intercalate Written.comma
      fun t member => ⟨(named t member).written, t.lexemes_ne_nil⟩
    have whole := (written_keyword first nonempty isThrows).blank listed (by simp) (some (by simp))
    have joined : " " ++ "throws" ++ " " = " throws " := rfl
    rw [List.isEmpty_cons, if_neg (by decide), ← joined, TypeRef.clauseLexemes]
    · simp only [String.append_assoc, List.append_assoc] at whole ⊢
      exact whole
    · simp

theorem isWord_modifier (m : Modifier) : IsWord m.keyword := by cases m <;> decide

theorem ModifierSet.written (s : ModifierSet) : Written s.text s.lexemes := by
  have joins {a b : String} {la lb : List Lexeme} (first : Written a la) (second : Written b lb)
      (some₁ : la ≠ []) (some₂ : lb ≠ []) : Written (a ++ " " ++ b) (la ++ [] ++ lb) := by
    rw [List.append_nil]
    exact first.blank second some₁ some₂
  have each : ∀ m ∈ s.toList,
      Written (Modifier.keyword m) [Lexeme.word m.keyword] ∧ [Lexeme.word m.keyword] ≠ [] :=
    fun m _ => ⟨.word (isWord_modifier m), by simp⟩
  have listed := (Written.intercalate joins each).1
  have flat : ([] : List Lexeme).intercalate (s.toList.map fun m => [Lexeme.word m.keyword]) =
      s.lexemes := by
    rw [ModifierSet.lexemes]
    generalize s.toList = ms
    induction ms with
    | nil => rfl
    | cons m ms ih =>
      cases ms with
      | nil => rfl
      | cons n ms => simpa using ih
  rwa [flat] at listed

/-- What a member is called, behind its type or as its class. -/
private theorem written_kind {className : String} (isClass : IsWord className) {m : Counterpart}
    (named : m.Named IsWord) :
    Written (match m.kind with
        | .method name returnType => returnType.text ++ " " ++ name
        | .constructor => className) (m.kind.lexemes className) ∧ m.kind.lexemes className ≠ [] := by
  cases called : m.kind with
  | constructor => exact ⟨.word isClass, by simp [CounterpartKind.lexemes]⟩
  | method name returnType =>
    obtain ⟨isName, type⟩ := named.method name returnType called
    exact ⟨written_keyword type.written returnType.lexemes_ne_nil isName,
      by simp [CounterpartKind.lexemes]⟩

theorem Counterpart.Named.written {className : String} (isClass : IsWord className)
    {m : Counterpart} (named : m.Named IsWord) (modified : m.modifiers.lexemes ≠ []) :
    Written (m.header className) (m.lexemes className) := by
  have generic : Written (m.modifiers.text ++
        (if m.typeParameters.isEmpty then "" else " " ++ TypeParameter.listText m.typeParameters))
      (m.modifiers.lexemes ++ Lexeme.bracketed (m.typeParameters.map TypeParameter.lexemes)) := by
    obtain ⟨closed, ended⟩ := TypeParameter.written_listText named.typeParameters
    cases parameters : m.typeParameters with
    | nil => simpa [Lexeme.bracketed] using m.modifiers.written
    | cons p more =>
      rw [parameters] at closed
      have whole := m.modifiers.written.blank closed.written modified (by simp [Lexeme.bracketed])
      rw [List.isEmpty_cons, if_neg (by decide), ← String.append_assoc]
      exact whole
  obtain ⟨kind, nonempty⟩ := written_kind isClass named
  have called := generic.blank kind (by simp [modified]) nonempty
  have listed := written_parameters named.parameters called
  have thrown := written_exceptions named.exceptions listed (by simp [modified])
  have whole := written_opened thrown (by simp [modified])
  rw [header, lexemes]
  exact whole

theorem Subclass.Named.written {s : Subclass} (named : s.Named IsWord)
    (modified : s.modifiers.lexemes ≠ []) : Written s.header s.lexemes := by
  have isClass : IsWord "class" := by decide
  have isExtends : IsWord "extends" := by decide
  obtain ⟨closed, ended⟩ := TypeParameter.written_listText named.typeParameters
  have called := (written_keyword s.modifiers.written modified isClass).blank (.word named.name)
    (by simp) (by simp)
  have generic := called.append closed.written ended
  have extended := (written_keyword generic (by simp) isExtends).blank named.superclass.written
    (by simp) s.superclass.lexemes_ne_nil
  have whole := written_opened extended (by simp)
  have joined₁ : " " ++ "class" ++ " " = " class " := rfl
  have joined₂ : " " ++ "extends" ++ " " = " extends " := rfl
  rw [header, lexemes, ← joined₁, ← joined₂]
  simp only [String.append_assoc, List.append_assoc, List.cons_append, List.nil_append] at whole ⊢
  exact whole

end

/-! ### Lines of a subclass -/

/-- The statement is expanded to the text of the line, which is a phrase. -/
def Statement.SpokenAs (s : Statement) (line : Line) : Prop :=
  s.expand = .ok line.text ∧ Phrase line.text line.lexemes

/-- The line of a statement and the semicolon that ends it. -/
def Line.ended (line : Line) : List Line := [line, ⟨";", [Kind.semicolon.lexeme]⟩]

/-- The statement is written as the line and the semicolon that ends it, from the indentation of its
first line on. -/
def Statement.LaidAs (config : Config) (s : Statement) (line : Line) : Prop :=
  ∃ text, s.expand = .ok text ∧
    Laid (String.join ((Text.lines (text.push ';')).map (config.line 2))) line.ended

/-- The brace that closes a body. -/
def Line.closing : Line := ⟨"\x7d", [Kind.rightBrace.lexeme]⟩

/-- The mark of a member that overrides another one. -/
def Line.override : Line := ⟨"@Override", [Kind.atSign.lexeme, Lexeme.word "Override"]⟩

def Counterpart.lines (className : String) (m : Counterpart) (body : List Line) : List Line :=
  (if m.isOverride then [.override] else []) ++ [⟨m.header className, m.lexemes className⟩] ++
    body.flatMap Line.ended ++ [.closing]

/-- The line of a package declaration; none for the default package. -/
def Line.package (name : String) : List Line :=
  if name = "" then []
  else [⟨"package " ++ name ++ ";",
    Kind.packageWord.lexeme :: Lexeme.name name ++ [Kind.semicolon.lexeme]⟩]

def Subclass.lines (s : Subclass) (bodies : List (List Line)) : List Line :=
  Line.package s.package ++ [⟨s.header, s.lexemes⟩] ++
    (List.zipWith (Counterpart.lines s.name) s.members bodies).flatten ++ [.closing]

theorem Text.linesFrom_of_oneLine {rest : List Char} (oneLine : '\n' ∉ rest) (line : List Char)
    (read : List String) (some : line.reverse ++ rest ≠ []) :
    linesFrom rest line read = read.reverse ++ [String.ofList (line.reverse ++ rest)] := by
  induction rest generalizing line with
  | nil =>
    cases line with
    | nil => exact absurd rfl some
    | cons c line => simp [linesFrom]
  | cons c rest ih =>
    rw [List.mem_cons, not_or] at oneLine
    rw [linesFrom]
    · rw [ih oneLine.2 (c :: line) (by simp)]
      simp
    · rintro rfl
      exact oneLine.1 rfl

theorem Text.lines_of_oneLine {text : String} (oneLine : '\n' ∉ text.toList)
    (some : text.toList ≠ []) : lines text = [text] := by
  rw [lines, linesFrom_of_oneLine oneLine [] [] some]
  simp

section

variable {config : Config} (blank : ∀ c ∈ config.indent.toList, c = ' ' ∨ c = '\t')

include blank

theorem Config.isSpace_indent (level : Nat) :
    ∀ c ∈ (String.join (List.replicate level config.indent)).toList, Munch.isSpace c = true := by
  intro c member
  rw [String.toList_join, List.mem_flatMap] at member
  obtain ⟨indent, listed, inIndent⟩ := member
  rw [List.eq_of_mem_replicate listed] at inIndent
  rcases blank c inIndent with rfl | rfl <;> rfl

theorem Config.laid_indent (level : Nat) :
    Laid (String.join (List.replicate level config.indent)) [] :=
  Laid.blanks (isSpace_indent blank level)

theorem Config.laid_line (level : Nat) {text : String} {ls : List Lexeme}
    (written : Written text ls) (nonempty : ls ≠ []) : Laid (config.line level text) [⟨text, ls⟩] := by
  have whole := (laid_indent blank level).append (Laid.line written nonempty)
  rw [line, String.append_assoc]
  exact whole

omit blank in
/-- The semicolon that ends a statement and its line. -/
theorem Laid.semicolon : Laid (";" ++ "\n") [⟨";", [Kind.semicolon.lexeme]⟩] := by
  have sign : Closed ";" [Kind.semicolon.lexeme] := Closed.sign (c := ';') rfl rfl rfl
  exact Laid.line sign.written (by simp)

theorem Config.laid_statement (level : Nat) {line : Line} (phrase : Phrase line.text line.lexemes) :
    Laid (config.line level (line.text.push ';')) line.ended := by
  have statement := Laid.cons phrase.written phrase.nonempty Laid.semicolon
    (Munch.ends_of_mem_signs (by decide) ['\n']) (by decide)
  have whole := (laid_indent blank level).append statement
  have pushed : line.text.push ';' = line.text ++ ";" := rfl
  rw [Config.line, pushed, String.append_assoc, String.append_assoc]
  exact whole

/-- A phrase stays on its line. -/
theorem Statement.SpokenAs.laidAs {s : Statement} {line : Line} (spoken : s.SpokenAs line) :
    s.LaidAs config line := by
  obtain ⟨expanded, phrase⟩ := spoken
  have oneLine : '\n' ∉ (line.text.push ';').toList := by
    rw [String.toList_push, List.mem_append, List.mem_singleton]
    rintro (inside | same)
    · exact phrase.written.oneLine inside
    · exact absurd same (by decide)
  refine ⟨line.text, expanded, ?_⟩
  rw [Text.lines_of_oneLine oneLine (by simp)]
  simpa using Config.laid_statement blank 2 phrase

omit blank in
/-- The lines of the statements of a body, with their indentation. -/
theorem Counterpart.bodyLines_laid {m : Counterpart} {body : List Line}
    (laid : List.Forall₂ (Statement.LaidAs config) m.statements body) :
    ∃ lines, m.bodyLines = .ok lines ∧
      Laid (String.join (lines.map (config.line 2))) (body.flatMap Line.ended) := by
  have texts : ∃ texts, m.statements.mapM Statement.render = .ok texts ∧
      List.Forall₂ (fun text line => Laid (String.join ((Text.lines text).map (config.line 2)))
        line.ended) texts body := by
    generalize m.statements = statements at laid
    induction laid with
    | nil => exact ⟨[], rfl, .nil⟩
    | cons first _ ih =>
      obtain ⟨text, expanded, here⟩ := first
      obtain ⟨texts, rendered, others⟩ := ih
      refine ⟨text.push ';' :: texts, ?_, .cons here others⟩
      rw [List.mapM_cons, Statement.render, expanded, rendered]
      rfl
  obtain ⟨texts, rendered, each⟩ := texts
  refine ⟨texts.flatMap Text.lines, by rw [bodyLines, rendered]; rfl, ?_⟩
  have joined : String.join ((texts.flatMap Text.lines).map (config.line 2)) =
      String.join (texts.map fun text => String.join ((Text.lines text).map (config.line 2))) := by
    rw [← String.toList_inj]
    simp [String.toList_join, List.flatMap_assoc, List.flatMap_map]
  rw [joined, List.flatMap_def]
  exact Laid.join (List.forall₂_map_left_iff.mpr (List.forall₂_map_right_iff.mpr each))

theorem Counterpart.render_laid {className : String} {m : Counterpart} {body : List Line}
    (laid : List.Forall₂ (Statement.LaidAs config) m.statements body)
    (header : Written (m.header className) (m.lexemes className)) :
    ∃ text, m.render config className = .ok text ∧ Laid text (m.lines className body) := by
  have marked : Laid (if m.isOverride then config.line 1 "@Override" else "")
      (if m.isOverride then [Line.override] else []) := by
    split
    · have sign : Closed "@" [Kind.atSign.lexeme] := Closed.sign (c := '@') rfl rfl rfl
      have isOverride : IsWord "Override" := by decide
      exact Config.laid_line blank 1 (sign.append_written (.word isOverride)) (by simp)
    · exact Laid.blanks (by simp)
  have opened := Config.laid_line blank 1 header (by simp [lexemes])
  obtain ⟨lines, listed, statements⟩ := bodyLines_laid laid
  have brace : Closed "\x7d" [Kind.rightBrace.lexeme] := Closed.sign (c := '\x7d') rfl rfl rfl
  have closed := Config.laid_line blank 1 brace.written (by simp)
  have whole := ((marked.append opened).append statements).append closed
  refine ⟨_, ?_, whole⟩
  rw [render, listed]
  rfl

/-- What is rendered for a list of members, given the lines of their bodies. -/
theorem Counterpart.renderAll_laid {className : String} (isClass : IsWord className)
    {members : List Counterpart} {bodies : List (List Line)}
    (laid : List.Forall₂ (fun m body => List.Forall₂ (Statement.LaidAs config) m.statements body)
      members bodies)
    (named : ∀ m ∈ members, m.Named IsWord ∧ m.modifiers.lexemes ≠ []) :
    ∃ texts, members.mapM (render config className) = .ok texts ∧
      List.Forall₂ Laid texts (List.zipWith (lines className) members bodies) := by
  induction laid with
  | nil => exact ⟨[], rfl, .nil⟩
  | @cons m body members bodies first _ ih =>
    obtain ⟨ofFirst, ofOthers⟩ := List.forall_mem_cons.mp named
    obtain ⟨text, rendered, laid⟩ := render_laid blank first (ofFirst.1.written isClass ofFirst.2)
    obtain ⟨texts, renderedOthers, laidOthers⟩ := ih ofOthers
    refine ⟨text :: texts, ?_, .cons laid laidOthers⟩
    rw [List.mapM_cons, rendered, renderedOthers]
    rfl

omit blank in
private theorem laid_package {name : String} (dotted : name ≠ "" → Dotted IsWord name) :
    Laid (if name = "" then "" else "package " ++ name ++ ";\n\n") (Line.package name) := by
  unfold Line.package
  split
  next => exact Laid.blanks (by simp)
  next some =>
    have isPackage : IsWord "package" := by decide
    have sign : Closed ";" [Kind.semicolon.lexeme] := Closed.sign (c := ';') rfl rfl rfl
    have declared := (Written.word isPackage).blank (dotted some).written.1 (by simp)
      (Lexeme.name_ne_nil name)
    have ended := declared.append sign.written (Munch.ends_of_mem_signs (by decide) [])
    have whole := (Laid.line ended (by simp)).append (Laid.blanks (a := "\n") (by simp [Munch.isSpace]))
    have joined₁ : "package" ++ " " = "package " := rfl
    have joined₂ : ";" ++ "\n" ++ "\n" = ";\n\n" := rfl
    rw [joined₁] at whole
    rw [← joined₂]
    simp only [String.append_assoc] at whole ⊢
    exact whole

/-- A subclass whose names are words is rendered as its lines. -/
theorem Subclass.render_laid {s : Subclass} (named : s.Named IsWord)
    (modified : s.modifiers.lexemes ≠ [] ∧ ∀ m ∈ s.members, m.modifiers.lexemes ≠ [])
    {bodies : List (List Line)}
    (laid : List.Forall₂ (fun m body => List.Forall₂ (Statement.LaidAs config) m.statements body)
      s.members bodies) :
    ∃ text, s.render config = .ok text ∧ Laid text (s.lines bodies) := by
  obtain ⟨texts, rendered, laid⟩ := Counterpart.renderAll_laid blank named.name laid
    fun m member => ⟨named.members m member, modified.2 m member⟩
  have header := Laid.line (named.written modified.1) (by simp [lexemes])
  have brace : Closed "\x7d" [Kind.rightBrace.lexeme] := Closed.sign (c := '\x7d') rfl rfl rfl
  have whole := (((laid_package named.package).append header).append (Laid.intercalate laid)).append
    (Laid.line brace.written (by simp))
  have joined : "\x7d" ++ "\n" = "\x7d\n" := rfl
  rw [joined] at whole
  refine ⟨_, ?_, whole⟩
  rw [render, rendered, ← String.append_assoc]
  rfl

end

end TestDouble
