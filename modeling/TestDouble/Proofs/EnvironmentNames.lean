import TestDouble.Config
import TestDouble.Proofs.ReadBack

/-!
# Names that the environment may set

The variables of the environment are checked against character classes of their own, and the names
in them are read again by the lexer when a generated source is. The two agree on ASCII, reserved
words aside; beyond ASCII a character can be alphabetic without being a letter. So a configuration
that is accepted gives legible sources exactly where its names are words for the lexer as well and
none of them is reserved.
-/

namespace TestDouble

/-! ### Parts of dotted names -/

private theorem mem_of_mem_piecesFrom {separator : Char} {text piece part : List Char} {c : Char}
    (listed : part ∈ Text.piecesFrom separator text piece []) (member : c ∈ part) :
    c ∈ piece ∨ c ∈ text := by
  induction text generalizing piece with
  | nil =>
    rw [Text.piecesFrom, List.reverse_singleton, List.mem_singleton] at listed
    rw [listed, List.mem_reverse] at member
    exact .inl member
  | cons d text ih =>
    rw [Text.piecesFrom] at listed
    split at listed
    next =>
      rw [Text.piecesFrom_read, List.reverse_singleton, List.singleton_append,
        List.mem_cons] at listed
      rcases listed with rfl | later
      · exact .inl (List.mem_reverse.mp member)
      · rcases ih later with none | inText
        · cases none
        · exact .inr (.tail d inText)
    next =>
      rcases ih listed with begun | inText
      · rcases List.mem_cons.mp begun with rfl | inPiece
        · exact .inr List.mem_cons_self
        · exact .inl inPiece
      · exact .inr (.tail d inText)

private theorem dotted_of_piecesFrom {P : String → Prop} (text piece : List Char)
    (each : ∀ part ∈ Text.piecesFrom '.' text piece [], P (String.ofList part)) :
    Dotted P (String.ofList (piece.reverse ++ text)) := by
  induction text generalizing piece with
  | nil =>
    apply Dotted.one
    apply each
    simp [Text.piecesFrom]
  | cons c text ih =>
    rw [Text.piecesFrom] at each
    split at each
    next dot =>
      -- What was begun is a part, and the rest of the text is a dotted name of its own.
      rw [Text.piecesFrom_read, List.reverse_singleton, List.singleton_append,
        List.forall_mem_cons] at each
      have joined := (Dotted.one each.1).append (ih [] each.2)
      have text_eq : String.ofList piece.reverse ++ "." ++ String.ofList text =
          String.ofList (piece.reverse ++ c :: text) := by
        rw [← String.toList_inj, dot]
        simp [String.toList_append]
      rwa [← text_eq]
    next =>
      have longer := ih (c :: piece) each
      rwa [List.reverse_cons, List.append_assoc] at longer

/-- A dotted name is one whose parts are words. -/
theorem dotted_iff {P : String → Prop} (noDot : ∀ w, P w → '.' ∉ w.toList) {name : String} :
    Dotted P name ↔ ∀ part ∈ Text.pieces '.' name.toList, P (String.ofList part) := by
  constructor
  · intro dotted
    induction dotted with
    | @one w word =>
      rw [Text.pieces, Text.piecesFrom_of_not_mem _ _ _ (noDot w word)]
      simpa using word
    | @more name w _ word ih =>
      have chars : (name ++ "." ++ w).toList = name.toList ++ '.' :: w.toList := by
        simp [String.toList_append]
      rw [Text.pieces, chars, Text.piecesFrom_append _ _ _ _ (noDot w word), List.forall_mem_append]
      exact ⟨ih, by simpa using word⟩
  · intro each
    simpa using dotted_of_piecesFrom name.toList [] each

/-- A word with an ending is a word when the ending goes on with it. -/
theorem IsWord.append_iff {w ending : String} (word : IsWord w) :
    IsWord (w ++ ending) ↔ ∀ c ∈ ending.toList, Munch.continuesWord c = true := by
  obtain ⟨c, more, chars⟩ := List.exists_cons_of_ne_nil word.nonempty
  rw [IsWord, chars, Munch.isWord, Bool.and_eq_true] at word
  rw [IsWord, String.toList_append, chars, List.cons_append, Munch.isWord, List.all_append, word.1,
    word.2, Bool.true_and, Bool.true_and, List.all_eq_true]

namespace Config

variable {lookup : String → Option String} {config : Config}

/-! ### What is accepted -/

/-- The settings have the form that is asked of the variables of the environment. -/
structure WellFormed (config : Config) : Prop where
  indent : ∀ c ∈ config.indent.toList, c = ' '
  permissiveException : isTypeName config.permissiveException.toList = true
  classSuffix : ∀ c ∈ config.classSuffix.toList, continuesIdentifier c = true

theorem wellFormed_default : ({} : Config).WellFormed where
  indent := (List.forall_mem_replicate (n := 4)).mpr (.inr rfl)
  permissiveException := by decide +kernel
  classSuffix := List.all_eq_true.mp (by decide +kernel)

/-- A setting has a property that the default has and that every value that is read has. -/
private theorem setting_of {Good : String → Prop} {default : String}
    {read : String → Except ConfigFault String} (first : Good default)
    (later : ∀ value text, read value = .ok text → Good text) {found : Option String} {text : String}
    (set : setting default read found = .ok text) : Good text := by
  cases found with
  | none =>
    obtain rfl := Except.ok.inj set
    exact first
  | some value => exact later value text set

private theorem indentOf_eq_ok {value text : String} (read : indentOf value = .ok text) :
    ∀ c ∈ text.toList, c = ' ' := by
  unfold indentOf at read
  split at read
  next => cases read
  next width =>
    split at read
    next => cases read
    next =>
      obtain rfl := Except.ok.inj read
      rw [String.toList_ofList]
      exact fun c listed => List.eq_of_mem_replicate listed

private theorem exceptionOf_eq_ok {value text : String} (read : exceptionOf value = .ok text) :
    isTypeName text.toList = true := by
  unfold exceptionOf at read
  dsimp only at read
  split at read
  next isName =>
    obtain rfl := Except.ok.inj read
    rwa [String.toList_ofList]
  next => cases read

private theorem suffixOf_eq_ok {value text : String} (read : suffixOf value = .ok text) :
    ∀ c ∈ text.toList, continuesIdentifier c = true := by
  unfold suffixOf at read
  dsimp only at read
  split at read
  next isEnding =>
    obtain rfl := Except.ok.inj read
    rw [Bool.and_eq_true, List.all_eq_true] at isEnding
    rw [String.toList_ofList]
    exact isEnding.2
  next => cases read

theorem wellFormed_of_environment (accepted : ofEnvironment lookup = .ok config) :
    config.WellFormed := by
  obtain ⟨indent, indentSet, accepted⟩ := bind_eq_ok accepted
  obtain ⟨exception, exceptionSet, accepted⟩ := bind_eq_ok accepted
  obtain ⟨suffix, suffixSet, accepted⟩ := bind_eq_ok accepted
  obtain rfl := Except.ok.inj accepted
  refine ⟨?_, ?_, ?_⟩
  · exact setting_of wellFormed_default.indent (fun _ _ => indentOf_eq_ok) indentSet
  · exact setting_of wellFormed_default.permissiveException (fun _ _ => exceptionOf_eq_ok)
      exceptionSet
  · exact setting_of wellFormed_default.classSuffix (fun _ _ => suffixOf_eq_ok) suffixSet

/-! ### What the lexer takes -/

/-- The names in the settings consist of words of the lexer. -/
structure Spelled (config : Config) : Prop where
  permissiveException : ∀ part ∈ Text.pieces '.' config.permissiveException.toList,
    IsWord (String.ofList part)
  classSuffix : ∀ c ∈ config.classSuffix.toList, Munch.continuesWord c = true

/-- On ASCII the two views of an identifier agree. -/
private theorem agree_of_ascii {c : Char} (ascii : Munch.isAscii c = true) :
    Munch.startsWord c = startsIdentifier c ∧ Munch.continuesWord c = continuesIdentifier c := by
  have all : ∀ n : Fin 128, Munch.startsWord (Char.ofNat n) = startsIdentifier (Char.ofNat n) ∧
      Munch.continuesWord (Char.ofNat n) = continuesIdentifier (Char.ofNat n) := by
    decide +kernel
  have low : c.toNat < 128 := of_decide_eq_true ascii
  have here := all ⟨c.toNat, low⟩
  simp only [Char.ofNat_toNat] at here
  exact here

private theorem isWord_of_isIdentifier {part : List Char} (identifier : isIdentifier part = true)
    (ascii : ∀ c ∈ part, Munch.isAscii c = true) : Munch.isWord part = true := by
  cases part with
  | nil => cases identifier
  | cons c rest =>
    rw [isIdentifier, Bool.and_eq_true, List.all_eq_true] at identifier
    rw [List.forall_mem_cons] at ascii
    rw [Munch.isWord, Bool.and_eq_true, List.all_eq_true]
    refine ⟨?_, fun d later => ?_⟩
    · rw [(agree_of_ascii ascii.1).1]
      exact identifier.1
    · rw [(agree_of_ascii (ascii.2 d later)).2]
      exact identifier.2 d later

theorem WellFormed.spelled (formed : config.WellFormed)
    (ascii : ∀ c ∈ config.permissiveException.toList ++ config.classSuffix.toList,
      Munch.isAscii c = true) : config.Spelled := by
  rw [List.forall_mem_append] at ascii
  refine ⟨fun part listed => ?_, fun c member => ?_⟩
  · rw [IsWord, String.toList_ofList]
    apply isWord_of_isIdentifier
    · exact List.all_eq_true.mp formed.permissiveException part listed
    · intro c member
      rcases mem_of_mem_piecesFrom listed member with none | inText
      · cases none
      · exact ascii.1 c inText
  · rw [(agree_of_ascii (ascii.2 c member)).2]
    exact formed.classSuffix c member

end Config

namespace GeneratedUnit

/-- What is accepted from the environment gives names that the lexer takes exactly where they are
words of the lexer and no reserved ones, which over ASCII leaves only the reserved words. Every unit
whose names are words at least is then read back exactly when they are identifiers; they are, by the
names that the lexer takes, unless the source has a byte order mark. Only a constructor of a class
named `sealed` is out of the question. -/
theorem readable_of_environment {lookup : String → Option String} {config : Config} {source : String}
    {unit : CompilationUnit} (accepted : Config.ofEnvironment lookup = .ok config)
    (read : (CompilationUnit.read source).outcome = .ok unit) :
    ((∀ c ∈ config.permissiveException.toList ++ config.classSuffix.toList,
      Munch.isAscii c = true) → config.Spelled) ∧
    (LexesAsName config.permissiveException ↔
      ∀ part ∈ Text.pieces '.' config.permissiveException.toList,
        IsIdentifier (String.ofList part)) ∧
    (∀ decl ∈ unit.classes, LexesAsWord (decl.name ++ config.classSuffix) ↔
      (∀ c ∈ config.classSuffix.toList, Munch.continuesWord c = true) ∧
        Kind.ofWord (decl.name ++ config.classSuffix) = .identifier) ∧
    ∀ units, (ofSource config .forwarding source).outcome = .ok units →
      (∀ decl ∈ unit.classes, decl.Plain) → ∀ generated ∈ units,
        (config.Spelled → generated.subclass.Named IsWord) ∧
        (LexesAsName config.permissiveException → LexesAsWord generated.subclass.name →
          '\uFEFF' ∉ source.toList → generated.subclass.Named IsIdentifier) ∧
        (generated.subclass.Named IsWord → (∀ m ∈ generated.subclass.members,
          m.OpensWithClass → generated.subclass.name ≠ "sealed") →
            (generated.ReadsBack ↔ generated.subclass.Named IsIdentifier)) := by
  have formed := Config.wellFormed_of_environment accepted
  have words := CompilationUnit.named_of_read read
  refine ⟨formed.spelled, ?_, fun decl declared => ?_, ?_⟩
  · rw [lexesAsName_iff, dotted_iff fun w identifier => identifier.word.dot_not_mem]
  · rw [lexesAsWord_iff, ← (words.classes decl declared).name.append_iff]
    exact ⟨fun identifier => ⟨identifier.word, identifier.free⟩, fun both => ⟨both.1, both.2⟩⟩
  · intro units returned plain generated member
    -- Each generated unit belongs to a class of the unit that was read.
    obtain ⟨found, readAgain, each⟩ := ofSource_eq_ok returned
    obtain rfl := Except.ok.inj (read.symm.trans readAgain)
    obtain ⟨decl, declared, ofClass⟩ := exists_mem_of_forall₂ each member
    have declNamed := words.classes decl declared
    refine ⟨fun spelled => ?_, fun exception isName noMark => ?_, fun named notSealed => ?_⟩
    · rw [ofClass.subclass]
      apply ClassDecl.named_subclass _ _ declNamed words.packageName
      · exact declNamed.name.append_iff.mpr spelled.classSuffix
      · exact (dotted_iff fun w word => word.dot_not_mem).mpr spelled.permissiveException
    · have identifiers := CompilationUnit.named_of_unmarked noMark read
      rw [ofClass.subclass] at isName ⊢
      exact ClassDecl.named_subclass exception.dotted _ (identifiers.classes decl declared)
        identifiers.packageName isName.isIdentifier
    · have blank : ∀ c ∈ config.indent.toList, c = ' ' ∨ c = '\t' :=
        fun c listed => .inl (formed.indent c listed)
      exact decl.readsBack_iff_of_words ofClass blank declNamed named notSealed
        (plain decl declared)

/-- An environment that asks for another exception and for another ending. -/
private def usualLookup : String → Option String
  | "TESTABLE_PERMISSIVE_EXCEPTION" => some " java.lang.Throwable"
  | "TESTABLE_CLASS_SUFFIX" => some "Mockable"
  | _ => none

private def usualConfig : Config :=
  { permissiveException := "java.lang.Throwable", classSuffix := "Mockable" }

/-- An environment that asks for a reserved word in place of a type name. -/
private def reservedLookup : String → Option String
  | "TESTABLE_PERMISSIVE_EXCEPTION" => some "class"
  | _ => none

private def reservedConfig : Config := { permissiveException := "class" }

private def privateSource : String := "class A \x7b private int f() \x7b return 1; \x7d \x7d"

private theorem privateSource_plain : ∃ unit, (CompilationUnit.read privateSource).outcome = .ok unit ∧
    ∀ decl ∈ unit.classes, decl.Plain := by
  have computed : (CompilationUnit.read privateSource).outcome.toOption.map (fun unit =>
      decide (∀ decl ∈ unit.classes, decl.Plain)) = some true := by
    decide +kernel
  obtain ⟨unit, ended, plain⟩ := Option.map_eq_some_iff.mp computed
  exact ⟨unit, toOption_eq_some ended, of_decide_eq_true plain⟩

private def reservedLines : List String :=
  ["public final class ATestable extends A \x7b",
   "    public int f() throws class \x7b",
   "        java.lang.reflect.Method superMethod = getClass().getSuperclass().getDeclaredMethod(\"f\");",
   "        superMethod.setAccessible(true);",
   "        return (int) superMethod.invoke(this);",
   "    \x7d",
   "\x7d"]

/-- The unit that is generated with the reserved word. -/
private def reservedUnit : String := String.join (reservedLines.map (· ++ "\n"))

private theorem reservedUnit_unread : (CompilationUnit.read reservedUnit).outcome.toOption = none := by
  -- The signs of a text are found one line at a time, which is much faster than all at once.
  have signs : reservedUnit.toList = reservedLines.flatMap fun line => line.toList ++ ['\n'] := by
    rw [reservedUnit, String.toList_join, List.flatMap_map]
    simp only [String.toList_append]
    rfl
  rw [CompilationUnit.read, Token.ofSource, Piece.ofSource, signs]
  decide +kernel

/-- With the names of the first environment the one unit is read back. The reserved word that the
second gives is accepted as well, but is no name for the lexer, and the unit is not read at all. -/
theorem readable_of_environment_usual_and_reserved :
    (Config.ofEnvironment usualLookup = .ok usualConfig ∧
      LexesAsName usualConfig.permissiveException ∧
      ∃ units, (ofSource usualConfig .forwarding privateSource).outcome = .ok units ∧
        units.length = 1 ∧ ∀ generated ∈ units, generated.ReadsBack) ∧
    Config.ofEnvironment reservedLookup = .ok reservedConfig ∧
      ¬LexesAsName reservedConfig.permissiveException ∧
      ∃ units, (ofSource reservedConfig .forwarding privateSource).outcome = .ok units ∧
        units.length = 1 ∧ ∀ generated ∈ units,
          (CompilationUnit.read generated.source).outcome.toOption = none ∧
          ¬generated.subclass.Named IsIdentifier := by
  obtain ⟨unit, read, plain⟩ := privateSource_plain
  constructor
  · have accepted : Config.ofEnvironment usualLookup = .ok usualConfig := by rfl
    have computed : (ofSource usualConfig .forwarding privateSource).outcome.toOption.map (fun units =>
        (units.length, units.all fun generated => decide (LexesAsWord generated.subclass.name ∧
          generated.subclass.name ≠ "sealed"))) = some (1, true) := by
      decide +kernel
    obtain ⟨units, ended, result⟩ := Option.map_eq_some_iff.mp computed
    obtain ⟨length, named⟩ := Prod.mk.inj result
    have returned := toOption_eq_some ended
    obtain ⟨spelled, name, _, each⟩ := readable_of_environment accepted read
    have exception := name.mpr (by decide +kernel)
    refine ⟨accepted, exception, units, returned, length, fun generated member => ?_⟩
    obtain ⟨words, identifiers, exactly⟩ := each units returned plain generated member
    have ⟨isName, notSealed⟩ := of_decide_eq_true (List.all_eq_true.mp named generated member)
    have named := words (spelled (List.all_eq_true.mp (by decide +kernel)))
    exact (exactly named fun _ _ _ => notSealed).mpr (identifiers exception isName (by decide))
  · have accepted : Config.ofEnvironment reservedLookup = .ok reservedConfig := by rfl
    have computed : (ofSource reservedConfig .forwarding privateSource).outcome.toOption.map
        (List.map fun generated => (generated.source, generated.subclass.name)) =
          some [(reservedUnit, "ATestable")] := by
      decide +kernel
    obtain ⟨units, ended, result⟩ := Option.map_eq_some_iff.mp computed
    obtain ⟨generated, rfl, same⟩ := List.map_eq_singleton_iff.mp result
    obtain ⟨source, subclass⟩ := Prod.mk.inj same
    have returned := toOption_eq_some ended
    obtain ⟨spelled, name, _, each⟩ := readable_of_environment accepted read
    have noName : ¬LexesAsName reservedConfig.permissiveException := by
      rw [name]
      decide +kernel
    have unread : (CompilationUnit.read generated.source).outcome.toOption = none := by
      rw [source]
      exact reservedUnit_unread
    refine ⟨accepted, noName, _, returned, rfl, List.forall_mem_singleton.mpr ⟨unread, ?_⟩⟩
    intro identifiers
    obtain ⟨words, _, exactly⟩ := each _ returned plain generated List.mem_cons_self
    have named := words (spelled (List.all_eq_true.mp (by decide +kernel)))
    have notSealed : generated.subclass.name ≠ "sealed" := by
      rw [subclass]
      decide
    obtain ⟨again, readAgain, _⟩ := (exactly named fun _ _ _ => notSealed).mpr identifiers
    rw [readAgain] at unread
    cases unread

end GeneratedUnit

end TestDouble
