import TestDouble.Proofs.Indentation
import TestDouble.Proofs.RawTexts
import TestDouble.Proofs.ReadBack

/-!
# Bodies that are replayed

A subclass may be given the statements of the bodies of its superclass, as they are written. Its text
is read again as a class whose bodies hold the same statements, token by token, however the original
blocks were nested and laid out.
-/

namespace TestDouble

/-! ### What is replayed -/

/-- The fragments of a member's body, those of nested blocks in their place. -/
def Member.fragments (member : Member) : List Fragment := member.body?.toList.flatMap Block.fragments

/-- The texts are taken apart into tokens of the same kinds and texts. -/
def Fragment.SameTokens (f g : Fragment) : Prop :=
  ∃ ts us, Token.ofSource f.text = .ok ts ∧ Token.ofSource g.text = .ok us ∧
    us.map Token.lexeme = ts.map Token.lexeme

/-- The block holds one fragment for each of those given and nothing else, with the same tokens. -/
def Block.Replays (fragments : List Fragment) (block : Block) : Prop :=
  ∃ found : List Fragment, block.statements = found.map BodyStatement.fragment ∧
    List.Forall₂ Fragment.SameTokens fragments found

/-- The part of a class body is a member whose body replays that of the member given. -/
def Member.ReplayedBy (member : Member) (part : BodyMember) : Prop :=
  ∃ found block, ofBody? part = some found ∧ found.body? = some block ∧
    block.Replays member.fragments

/-- The text is read as one class, whose members replay those of the class that get a counterpart. -/
def ClassDecl.ReplayedBy (decl : ClassDecl) (text : String) : Prop :=
  ∃ unit found, (CompilationUnit.read text).outcome = .ok unit ∧ unit.types = [.classDecl found] ∧
    List.Forall₂ Member.ReplayedBy decl.eligibleMembers found.body

/-- The fragment has no text block among its tokens. -/
def Fragment.Blockless (f : Fragment) : Prop :=
  ∀ tokens, Token.ofSource f.text = .ok tokens → ∀ t ∈ tokens, t.kind ≠ .textBlock

instance (f : Fragment) : Decidable f.Blockless :=
  match lexed : Token.ofSource f.text with
  | .error _ => .isTrue fun _ found => by cases lexed.symm.trans found
  | .ok tokens =>
    decidable_of_iff (∀ t ∈ tokens, t.kind ≠ .textBlock)
      ⟨fun each _ found => Except.ok.inj (lexed.symm.trans found) ▸ each, fun each => each tokens lexed⟩

/-! ### Fragments and their lines -/

/-- The text of a fragment as it is written in a body. -/
def Fragment.indented (config : Config) (f : Fragment) : String :=
  String.ofList (Text.indented config.margin f.text.toList)

/-- The fragment is written as the line, which is read as one statement with the same tokens. -/
structure Fragment.WrittenAs (config : Config) (f : Fragment) (line : Line) : Prop where
  text : line.text = f.indented config
  laid : (Statement.code f.text).LaidAs config line
  sentence : Sentence line.lexemes
  same : ∀ g : Fragment, g.text = line.text → f.SameTokens g

/-- A run of tokens of a source, as it is strung there. -/
theorem Token.strung_of_run {source : String} {tokens run : List Token}
    (lexed : ofSource source = .ok tokens) (inside : run <:+: tokens) :
    ∃ text, Munch.Strung [] text (run.map mark) := by
  obtain ⟨before, after, rfl⟩ := inside
  have strung := Munch.strung_of_scan (scan_of_ofSource lexed)
  rw [List.map_append, List.map_append] at strung
  exact strung.take.drop

/-- Text that is found as known tokens is a source of such tokens. -/
private theorem Token.ofSource_indented {indent text : List Char}
    (blank : ∀ c ∈ indent, Munch.isSpace c = true) {m : Mark} {ms : List Mark}
    (strung : Munch.Strung [] text (m :: ms)) (settled : ∀ n ∈ m :: ms, n.lexeme.Settled) :
    ∃ tokens, ofSource (Mark.quote ((m :: ms).map (Mark.indented indent))) = .ok tokens ∧
      tokens.map lexeme = (m :: ms).map Mark.lexeme := by
  have parted : ∀ d, ([] : List Char).head? = some d → Munch.parts d = true := by simp
  obtain ⟨found, lexemes, -, scanned⟩ := strung.scan_indented blank settled parted []
  have nothing : Munch.scan [] [] = some [] := by simp [Munch.scan, Munch.marks]
  rw [List.append_nil, nothing, Option.map_some, List.append_nil] at scanned
  obtain ⟨tokens, lexed, marks⟩ := ofSource_of_scan scanned
  refine ⟨tokens, lexed, ?_⟩
  rw [← lexemes, ← marks, List.map_map]
  rfl

/-- Every statement of a source is written as a line. -/
theorem Raw.TakenFrom.writtenAs {config : Config}
    (blank : ∀ c ∈ config.indent.toList, c = ' ' ∨ c = '\t') {source : String} {tokens : List Token}
    (lexed : Token.ofSource source = .ok tokens) (settled : ∀ t ∈ tokens, t.lexeme.Settled)
    {f : Fragment} (from_ : (Raw.statement f).TakenFrom tokens) (blockless : f.Blockless) :
    ∃ line, f.WrittenAs config line := by
  obtain ⟨first, more, run, rfl, sentence⟩ := from_
  have settledRun : ∀ t ∈ first :: more, t.lexeme.Settled := fun t member => settled t (run.subset member)
  -- The text of the fragment has the tokens of the run, so none of these is a text block.
  obtain ⟨own, ownLexed, -, kinds⟩ := Token.readAgain_of_run lexed run
  have ownLexemes : own.map Token.lexeme = (first :: more).map Token.lexeme :=
    kinds.mpr fun last isLast => settledRun last (List.mem_of_mem_getLast? isLast)
  have noBlock : ∀ t ∈ first :: more, t.kind ≠ .textBlock := by
    intro t member
    obtain ⟨u, listed, lexeme⟩ := exists_mem_of_map_eq ownLexemes member
    have kind : u.kind = t.kind := congrArg Lexeme.kind lexeme
    exact kind ▸ blockless own ownLexed u listed
  obtain ⟨text, strung⟩ := Token.strung_of_run lexed run
  have settledMarks : ∀ m ∈ (first :: more).map Token.mark, m.lexeme.Settled :=
    List.forall_mem_map.mpr settledRun
  have noBlockMarks : ∀ m ∈ (first :: more).map Token.mark, m.kind ≠ .textBlock :=
    List.forall_mem_map.mpr noBlock
  have inline : ∀ m ∈ (first :: more).map Token.mark, Text.Inline m.text.toList :=
    fun m member => (strung.kept settledMarks noBlockMarks m member).2
  have lexemes : ((first :: more).map Token.mark).map Mark.lexeme =
      (first :: more).map Token.lexeme := by
    rw [List.map_map]
    rfl
  have written : Mark.quote (((first :: more).map Token.mark).map (Mark.indented config.margin)) =
      (Fragment.ofTokens first more).indented config := by
    rw [Fragment.indented, Fragment.text_ofTokens, ← String.toList_inj, String.toList_ofList]
    exact Mark.quote_indented inline
  refine ⟨⟨(Fragment.ofTokens first more).indented config, (first :: more).map Token.lexeme⟩, rfl, ?_,
    sentence, ?_⟩
  · rw [← written, ← lexemes, Fragment.text_ofTokens]
    exact Statement.laidAs_code blank strung settledMarks noBlockMarks
  · intro g sameText
    obtain ⟨found, foundLexed, foundLexemes⟩ :=
      Token.ofSource_indented (Config.isSpace_margin blank) strung settledMarks
    refine ⟨own, found, ownLexed, ?_, ?_⟩
    · rw [sameText]
      exact written ▸ foundLexed
    · rw [foundLexemes, ownLexemes]
      exact lexemes

/-! ### Members and their bodies -/

/-- The fragments of a member's body are statements of its unit. -/
theorem CompilationUnit.statement_mem_raws {unit : CompilationUnit} {decl : ClassDecl}
    (declared : decl ∈ unit.classes) {member : Member} (eligible : member ∈ decl.eligibleMembers)
    {f : Fragment} (inBody : f ∈ member.fragments) : Raw.statement f ∈ unit.raws := by
  obtain ⟨part, listed, isMember⟩ := List.mem_filterMap.mp (List.mem_filter.mp eligible).1
  have inPart : Raw.statement f ∈ part.raws := by
    obtain ⟨block, isBody, inBlock⟩ := List.mem_flatMap.mp inBody
    have inBlock : Raw.statement f ∈ block.raws := List.mem_map_of_mem inBlock
    cases part with
    | method m =>
      cases isMember
      rw [BodyMember.raws, List.mem_append, List.mem_append]
      exact .inr (.inr (List.mem_flatMap.mpr ⟨block, isBody, inBlock⟩))
    | constructor k =>
      cases isMember
      obtain rfl : block = k.body := by simpa [Member.body?] using isBody
      rw [BodyMember.raws, List.mem_append, List.mem_append]
      exact .inr (.inr inBlock)
    | field => cases isMember
    | initializer => cases isMember
    | type => cases isMember
  obtain ⟨type, inUnit, isClass⟩ := List.mem_filterMap.mp declared
  have inDecl : Raw.statement f ∈ (TypeDecl.classDecl decl).raws := by
    rw [TypeDecl.raws_classDecl, List.mem_append, BodyMember.allRaws_eq_flatMap]
    exact .inr (List.mem_flatMap.mpr ⟨part, listed, inPart⟩)
  refine List.mem_flatMap.mpr ⟨type, inUnit, ?_⟩
  split at isClass
  next found =>
    cases isClass
    exact inDecl
  next => cases isClass

/-- Supplies the fragments of the member's own body as they are written for the configuration. -/
def Provider.replayIndented (config : Config) : Provider := fun _ _ member =>
  ⟨member.fragments.map fun f => .code (f.indented config), []⟩

namespace ClassDecl

variable {config : Config} {decl : ClassDecl} {package name : String} {bodies : List (List Line)}

/-- The lines of a subclass do not depend on who supplies its statements. -/
theorem lines_subclass (first second : Provider) :
    (decl.subclass config first package name).lines bodies =
      (decl.subclass config second package name).lines bodies := by
  have same (member : Member) (body : List Line) :
      (Counterpart.ofMember config (first decl name member).statements member).lines name body =
        (Counterpart.ofMember config (second decl name member).statements member).lines name body := by
    cases member <;> rfl
  have members : List.zipWith (Counterpart.lines name)
        (decl.subclass config first package name).members bodies =
      List.zipWith (Counterpart.lines name)
        (decl.subclass config second package name).members bodies := by
    rw [subclass, subclass, List.zipWith_map_left, List.zipWith_map_left]
    exact congrArg (fun f => List.zipWith f decl.eligibleMembers bodies)
      (funext fun member => funext fun body => same member body)
  change _ ++ (List.zipWith (Counterpart.lines name)
    (decl.subclass config first package name).members bodies).flatten ++ _ = _
  rw [members]
  rfl

section

variable (written : List.Forall₂ (fun member body =>
  List.Forall₂ (Fragment.WrittenAs config) member.fragments body) decl.eligibleMembers bodies)

include written

theorem laid_of_written : List.Forall₂ (fun m body =>
    List.Forall₂ (Statement.LaidAs config) m.statements body)
    (decl.subclass config .replay package name).members bodies := by
  refine List.forall₂_map_left_iff.mpr (written.imp fun member body each => ?_)
  rw [Counterpart.statements_ofMember]
  exact List.forall₂_map_left_iff.mpr (each.imp fun f line writtenAs => writtenAs.laid)

theorem built_of_written
    (few : ∀ member ∈ decl.eligibleMembers, member.fragments.length < Block.limit) :
    List.Forall₂ Counterpart.Built
      (decl.subclass config (.replayIndented config) package name).members bodies := by
  have each := (List.forall₂_and_left _ _).mpr ⟨few, written⟩
  refine List.forall₂_map_left_iff.mpr (each.imp fun member body ⟨short, each⟩ => ?_)
  apply Counterpart.built_of_stated
  · refine List.forall₂_map_left_iff.mpr (each.imp fun f line writtenAs => ⟨?_, writtenAs.sentence⟩)
    rw [Statement.expand_code, writtenAs.text]
  · rwa [← each.length_eq]

/-- What is read for the lines of the bodies replays them. -/
theorem replayedBy_of_readBack {unit : CompilationUnit} {text : String}
    (read : (CompilationUnit.read text).outcome = .ok unit)
    (back : (decl.subclass config (.replayIndented config) package name).ReadBack unit) :
    decl.ReplayedBy text := by
  obtain ⟨found, types, readAs⟩ := back.types
  refine ⟨unit, found, read, types, ?_⟩
  have parts := List.forall₂_map_left_iff.mp readAs.body
  have writtenEach : ∀ member ∈ decl.eligibleMembers, ∃ body,
      List.Forall₂ (Fragment.WrittenAs config) member.fragments body := by
    intro member eligible
    obtain ⟨body, _, each⟩ := exists_mem_of_forall₂ written.flip eligible
    exact ⟨body, each⟩
  refine ((List.forall₂_and_left _ _).mpr ⟨writtenEach, parts⟩).imp ?_
  rintro member part ⟨⟨body, each⟩, again, isMember, sameMember⟩
  obtain ⟨block, isBody, fragments, statements, expanded⟩ := sameMember.body
  refine ⟨again, block, isMember, isBody, fragments, statements, ?_⟩
  have texts : member.fragments.map (Fragment.indented config) = fragments.map Fragment.text := by
    have said : (Provider.replayIndented config decl name member).statements.mapM Statement.expand =
        .ok (member.fragments.map (Fragment.indented config)) := by
      refine mapM_of_forall₂ (List.forall₂_map_left_iff.mpr (List.forall₂_same.mpr fun f _ => ?_))
      exact Statement.expand_code _
    rw [Counterpart.statements_ofMember, said] at expanded
    exact Except.ok.inj expanded
  rw [← List.forall₂_eq_eq_eq, List.forall₂_map_left_iff, List.forall₂_map_right_iff] at texts
  have sameEach : ∀ f ∈ member.fragments, ∀ g : Fragment, f.indented config = g.text →
      f.SameTokens g := by
    intro f listed g sameText
    obtain ⟨line, _, writtenAs⟩ := exists_mem_of_forall₂ each.flip listed
    exact writtenAs.same g (sameText.symm.trans writtenAs.text.symm)
  exact ((List.forall₂_and_left _ _).mpr ⟨sameEach, texts⟩).imp fun f g ⟨same, sameText⟩ =>
    same g sameText

end

/-- A class of a source in which no reserved word is taken for an identifier is replayed. -/
theorem replayedBy_of_settled {config : Config}
    (blank : ∀ c ∈ config.indent.toList, c = ' ' ∨ c = '\t')
    (exception : Dotted IsIdentifier config.permissiveException) {source : String}
    {tokens : List Token} (lexed : Token.ofSource source = .ok tokens)
    (settled : ∀ t ∈ tokens, t.lexeme.Settled) {unit : CompilationUnit}
    (read : (CompilationUnit.read source).outcome = .ok unit) (declared : decl ∈ unit.classes)
    (packaged : package ≠ "" → Dotted IsIdentifier package) (isName : IsIdentifier name)
    (notSealed : name ≠ "sealed") (plain : decl.Plain)
    (blockless : ∀ member ∈ decl.eligibleMembers, ∀ f ∈ member.fragments, f.Blockless)
    (few : ∀ member ∈ decl.eligibleMembers, member.fragments.length < Block.limit) :
    ∃ text, (decl.subclass config .replay package name).render config = .ok text ∧
      decl.ReplayedBy text := by
  have taken : ∀ x ∈ unit.raws, x.TakenFrom tokens := by
    obtain ⟨found, types, lexedAgain, whole⟩ := CompilationUnit.read_eq_ok read
    obtain rfl : tokens = found := Except.ok.inj (lexed.symm.trans lexedAgain)
    exact CompilationUnit.takenFrom_of_ofTokens (congrArg Prod.snd whole)
  -- Every fragment of a body is written as a line.
  have each : ∀ member ∈ decl.eligibleMembers, ∃ body,
      List.Forall₂ (Fragment.WrittenAs config) member.fragments body := by
    intro member eligible
    apply exists_forall₂
    intro f inBody
    have from_ := taken _ (CompilationUnit.statement_mem_raws declared eligible inBody)
    exact from_.writtenAs blank lexed settled (blockless member eligible f inBody)
  obtain ⟨bodies, written⟩ := exists_forall₂ each
  have words : (decl.subclass config .replay package name).Named IsWord :=
    named_subclass (exception.imp fun _ word => word.word) .replay
      ((CompilationUnit.named_of_read read).classes decl declared)
      (fun some => (packaged some).imp fun _ word => word.word) isName.word
  obtain ⟨text, rendered, laid⟩ := render_laid blank words (laid_of_written written)
  have identifiers : (decl.subclass config (.replayIndented config) package name).Named IsIdentifier :=
    named_subclass exception _ ((CompilationUnit.named_of_free lexed settled read).classes decl declared)
      packaged isName
  -- The text is the lines of another subclass too, the one whose code is what stands on these lines.
  rw [lines_subclass _ (.replayIndented config)] at laid
  obtain ⟨again, readAgain, back⟩ :=
    readBack_of_laid identifiers (fun _ _ _ => notSealed) plain (built_of_written written few) laid
  exact ⟨text, rendered, replayedBy_of_readBack written readAgain back⟩

/-- A subclass with the bodies of its superclass can be rendered, and what is rendered is read as a
class with the same bodies, statement by statement and token by token, as long as no reserved word of
the source is taken for an identifier. This is always so when the source has no byte order mark. -/
theorem replayed_bodies_read_back {source : String} {unit : CompilationUnit} {s : Subclass}
    (read : (CompilationUnit.read source).outcome = .ok unit) (declared : decl ∈ unit.classes)
    (packaged : package = unit.packageName ∨ package = "" ∨ LexesAsName package)
    (isName : LexesAsWord name) (notSealed : name ≠ "sealed") (plain : decl.Plain)
    (synthesized : (decl.synthesize {} .replay package name).outcome = .ok s)
    (blockless : ∀ member ∈ decl.eligibleMembers, ∀ f ∈ member.fragments, f.Blockless)
    (few : ∀ member ∈ decl.eligibleMembers, member.fragments.length < Block.limit) :
    ∃ text, s.render {} = .ok text ∧
      ((∀ tokens, Token.ofSource source = .ok tokens → ∀ t ∈ tokens, t.lexeme.Settled) →
        decl.ReplayedBy text) ∧
      ('\uFEFF' ∉ source.toList → decl.ReplayedBy text) := by
  obtain rfl := synthesize_eq_ok synthesized
  obtain ⟨text, rendered⟩ : ∃ text, (decl.subclass {} .replay package name).render {} = .ok text := by
    apply Subclass.render_of_expanded
    intro m listed
    obtain ⟨member, _, rfl⟩ := List.mem_map.mp listed
    rw [Counterpart.statements_ofMember]
    refine ⟨member.fragments.map Fragment.text, List.forall₂_map_left_iff.mpr ?_⟩
    exact List.forall₂_map_right_iff.mpr (List.forall₂_same.mpr fun f _ => Statement.expand_code f.text)
  have replayed {tokens : List Token} (lexed : Token.ofSource source = .ok tokens)
      (settled : ∀ t ∈ tokens, t.lexeme.Settled) : decl.ReplayedBy text := by
    have named := CompilationUnit.named_of_free lexed settled read
    have dotted : package ≠ "" → Dotted IsIdentifier package := by
      intro nonempty
      rcases packaged with rfl | none | lexes
      · exact named.packageName nonempty
      · exact absurd none nonempty
      · exact lexes.dotted
    obtain ⟨found, renderedAgain, replays⟩ := replayedBy_of_settled Config.blank_default
      Config.exception_default.dotted lexed settled read declared dotted isName.isIdentifier notSealed
      plain blockless few
    obtain rfl := Except.ok.inj (rendered.symm.trans renderedAgain)
    exact replays
  obtain ⟨tokens, _, lexed, _⟩ := CompilationUnit.read_eq_ok read
  refine ⟨text, rendered, fun settled => replayed lexed (settled tokens lexed), fun noMark => ?_⟩
  exact replayed lexed fun t => Token.free_of_ofSource lexed noMark

/-- A source with an empty statement, a statement on several lines with comments and a bracket too
many, a block inside a body, and a method without a body. -/
private def layeredSource : String :=
  "package p; class A \x7b A() \x7b ; \x7d private int m(int x) \x7b\r\n  if (x /* a\r\n b */ > 0)" ++
    "\x7b y$(\"$L\"); \x7d // c\r\n  else z(]; \x7b return\nx \x7d \x7d int n(); \x7d"

/-- A source with a return type that is a reserved word before a byte order mark, with arguments. -/
private def markedReturn : String := "class A \x7b int\uFEFF<T> m() \x7b f(); \x7d \x7d"

/-- The test holds of some class of the source and its subclass with the same bodies. -/
private def testsReplay (test : ClassDecl → Subclass → Bool) (source : String) : Bool :=
  match (CompilationUnit.read source).outcome with
  | .error _ => false
  | .ok unit => unit.classes.any fun decl =>
    match (decl.synthesize {} .replay unit.packageName "B").outcome with
    | .error _ => false
    | .ok s => test decl s

private theorem of_testsReplay {test : ClassDecl → Subclass → Bool} {source : String}
    (tested : testsReplay test source = true) :
    ∃ unit decl s, (CompilationUnit.read source).outcome = .ok unit ∧ decl ∈ unit.classes ∧
      (decl.synthesize {} .replay unit.packageName "B").outcome = .ok s ∧ test decl s = true := by
  unfold testsReplay at tested
  split at tested
  next => cases tested
  next unit read =>
    obtain ⟨decl, declared, tested⟩ := List.any_eq_true.mp tested
    split at tested
    next => cases tested
    next s synthesized => exact ⟨unit, decl, s, read, declared, synthesized, tested⟩

/-- The bodies of the first source are read back. Those of the second are not: there the return type
is taken for an identifier, and for a reserved word where it is rendered. -/
theorem replayed_bodies_read_back_of_layered :
    (∃ unit decl s text, (CompilationUnit.read layeredSource).outcome = .ok unit ∧
      decl ∈ unit.classes ∧
      (decl.synthesize {} .replay unit.packageName "B").outcome = .ok s ∧
      decl.eligibleMembers.map (·.fragments.length) = [0, 2, 0] ∧
      s.render {} = .ok text ∧ decl.ReplayedBy text) ∧
    ∃ unit decl s text, (CompilationUnit.read markedReturn).outcome = .ok unit ∧
      decl ∈ unit.classes ∧
      (decl.synthesize {} .replay unit.packageName "B").outcome = .ok s ∧
      s.render {} = .ok text ∧ ¬decl.ReplayedBy text := by
  constructor
  · have tested : testsReplay (fun decl _ => decide (
        decl.eligibleMembers.map (·.fragments.length) = [0, 2, 0] ∧ decl.Plain ∧
        ∀ member ∈ decl.eligibleMembers, member.fragments.length < Block.limit ∧
          ∀ f ∈ member.fragments, f.Blockless)) layeredSource = true := by
      decide +kernel
    have isName : LexesAsWord "B" := by decide +kernel
    have noMark : '\uFEFF' ∉ layeredSource.toList := by
      have signs : layeredSource.toList = _ :=
        Text.toList_of_parts String.toList_ofList String.toList_ofList
      rw [signs]
      decide +kernel
    obtain ⟨unit, decl, s, read, declared, synthesized, tested⟩ := of_testsReplay tested
    obtain ⟨lengths, plain, each⟩ := of_decide_eq_true tested
    obtain ⟨text, rendered, -, replayed⟩ := replayed_bodies_read_back read declared (.inl rfl) isName
      (by decide) plain synthesized (fun member eligible => (each member eligible).2)
      (fun member eligible => (each member eligible).1)
    exact ⟨unit, decl, s, text, read, declared, synthesized, lengths, rendered, replayed noMark⟩
  · have tested : testsReplay (fun _ s => (s.render {}).toOption.any fun text =>
        (CompilationUnit.read text).outcome.toOption.isNone) markedReturn = true := by
      decide +kernel
    obtain ⟨unit, decl, s, read, declared, synthesized, tested⟩ := of_testsReplay tested
    obtain ⟨text, rendered, refused⟩ := (Option.any_eq_true ..).mp tested
    refine ⟨unit, decl, s, text, read, declared, synthesized, toOption_eq_some rendered, ?_⟩
    rintro ⟨again, found, readAgain, -⟩
    simp [readAgain, Except.toOption] at refused

end ClassDecl

end TestDouble
