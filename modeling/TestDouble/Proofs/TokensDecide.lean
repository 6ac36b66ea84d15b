import TestDouble.Proofs.DeclarationEcho
import TestDouble.Proofs.GeneratedView
import TestDouble.Proofs.PieceSlices

/-!
# Only tokens decide

Two sources with the same tokens, each a kind and a text, are read alike and give the same subclasses
or fail alike, whatever stands between the tokens.
-/

namespace TestDouble

/-- The texts of the tokens of a source. -/
def Token.textsOf (source : String) : Except Piece (List String) :=
  (ofSource source).map (List.map Token.text)

/-- An error met elsewhere: only an error of reading has a place. -/
def Error.relocated (place : Location) : Error → Error
  | .parse e => .parse { e with location := place }
  | other => other

theorem Token.textsOf_slice {source : String} {tokens : List Token}
    (lexed : ofSource source = .ok tokens) (i n : Nat) :
    textsOf (Mark.quote (((tokens.drop i).take n).map mark)) =
      .ok (((tokens.drop i).take n).map Token.text) := by
  cases slice : (tokens.drop i).take n with
  | nil => simp [Mark.quote, textsOf, ofSource, ofPieces, Piece.ofSource, Piece.cut, keep, Except.map]
  | cons first more =>
    have split : tokens = tokens.take i ++ (first :: more ++ (tokens.drop i).drop n) := by
      rw [← slice, List.take_append_drop, List.take_append_drop]
    rw [split] at lexed
    obtain ⟨found, again, lexemes⟩ := ofSource_slice lexed
    rw [Fragment.text_ofTokens] at again
    rw [textsOf, again]
    exact congrArg Except.ok (texts_of_lexemes lexemes)

/-- Sources with the same tokens are matched by every view that looks at the tokens of a text
only. -/
theorem Token.matching_of_lexemes {source source' : String} {tokens tokens' : List Token}
    (lexed : ofSource source = .ok tokens) (lexed' : ofSource source' = .ok tokens')
    (same : tokens.map lexeme = tokens'.map lexeme) (f : Except Piece (List String) → String) :
    Matching (f ∘ textsOf) tokens tokens' := by
  refine ⟨same, fun i n => ?_⟩
  have texts : tokens.map Token.text = tokens'.map Token.text := by
    have mapped := congrArg (List.map Lexeme.text) same
    rwa [List.map_map, List.map_map] at mapped
  rw [Function.comp_apply, Function.comp_apply, textsOf_slice lexed, textsOf_slice lexed',
    List.map_take, List.map_take, List.map_drop, List.map_drop, texts]

theorem CompilationUnit.outcome_read {source : String} {tokens : List Token}
    (lexed : Token.ofSource source = .ok tokens) :
    (read source).outcome = (ofTokens tokens).2.mapError .parse := by
  rw [read, lexed]
  simp only [Traced.outcome_bind]
  rfl

namespace GeneratedUnit

/-- Units that look alike in some view give the same subclasses, or the same error. -/
theorem ofDecls_eq_of_through {v : View} {unit unit' : CompilationUnit}
    (same : unit.through v = unit'.through v) (config : Config) :
    (unit.classes.mapM (ofDecl config .forwarding unit.packageName)).map (List.map written) =
      (unit'.classes.mapM (ofDecl config .forwarding unit'.packageName)).map (List.map written) := by
  rw [← ofDecls_through v config unit, ← ofDecls_through v config unit', same]

/-- Generation for two sources ends alike: with the same rendered texts and paths, or with errors that
differ in their places only. -/
inductive EndsAlike : Except Error (List GeneratedUnit) → Except Error (List GeneratedUnit) → Prop where
  | units {us us' : List GeneratedUnit} :
    us.map written = us'.map written → EndsAlike (.ok us) (.ok us')
  | errors (e : Error) (place : Location) : EndsAlike (.error e) (.error (e.relocated place))

theorem EndsAlike.of_map_eq {x y : Except Error (List GeneratedUnit)}
    (same : x.map (List.map written) = y.map (List.map written)) : EndsAlike x y := by
  cases x with
  | error e =>
    cases y with
    | ok us => cases same
    | error e' =>
      obtain rfl : e = e' := Except.error.inj same
      -- The same error is the error met where it was met.
      cases e with
      | parse e => exact .errors (.parse e) e.location
      | _ => exact .errors _ .origin
  | ok us =>
    cases y with
    | error e => cases same
    | ok us' => exact .units (Except.ok.inj same)

/-- Only tokens decide. Two sources with the same tokens end generation alike under every
configuration; and if one of them can be read, so can the other, to the same unit but for places and
for what stands between the tokens of raw texts: `f` may look at all tokens of a raw text. -/
theorem generation_of_lexemes {source source' : String} {tokens tokens' : List Token}
    (lexed : Token.ofSource source = .ok tokens) (lexed' : Token.ofSource source' = .ok tokens')
    (same : tokens.map Token.lexeme = tokens'.map Token.lexeme) :
    (∀ config, EndsAlike (ofSource config .forwarding source).outcome
      (ofSource config .forwarding source').outcome) ∧
    ∀ unit, (CompilationUnit.read source).outcome = .ok unit →
      ∃ unit', (CompilationUnit.read source').outcome = .ok unit' ∧
        ∀ f : Except Piece (List String) → String,
          unit.through (.full (f ∘ Token.textsOf)) = unit'.through (.full (f ∘ Token.textsOf)) := by
  have echo (f : Except Piece (List String) → String) :=
    CompilationUnit.ofTokens_echo (View.full_coarse _) (Token.matching_of_lexemes lexed lexed' same f)
  have reads := CompilationUnit.outcome_read lexed
  have reads' := CompilationUnit.outcome_read lexed'
  simp only [ofSource_outcome]
  rw [reads, reads']
  generalize (CompilationUnit.ofTokens tokens).2 = outcome,
    (CompilationUnit.ofTokens tokens').2 = outcome' at echo
  -- Both sources are read, or neither is.
  cases outcome with
  | error e =>
    cases outcome' with
    | ok unit' => cases echo fun _ => ""
    | error e' =>
      refine ⟨fun config => ?_, nofun⟩
      obtain ⟨cause, place, contexts⟩ := e
      obtain ⟨cause', place', contexts'⟩ := e'
      cases echo fun _ => "" with
      | error alike =>
        obtain ⟨rfl, rfl⟩ : cause = cause' ∧ contexts = contexts' := ⟨alike.cause, alike.contexts⟩
        exact .errors (.parse ⟨cause, place, contexts⟩) place'
  | ok unit =>
    cases outcome' with
    | error e' => cases echo fun _ => ""
    | ok unit' =>
      have sameUnit (f : Except Piece (List String) → String) :
          unit.through (.full (f ∘ Token.textsOf)) = unit'.through (.full (f ∘ Token.textsOf)) := by
        cases echo f with
        | ok seen => exact seen
      refine ⟨fun config => .of_map_eq (ofDecls_eq_of_through (sameUnit fun _ => "") config), ?_⟩
      intro read returned
      obtain rfl : unit = read := Except.ok.inj returned
      exact ⟨unit', rfl, sameUnit⟩

/-- A source with an initializer, an annotation and a body. -/
private def tightSource : String :=
  "class A\x7bint n=1+2;@B(3)int f(int x)\x7breturn x;\x7d\x7d"

/-- The same tokens with blanks, comments and a byte order mark between them. -/
private def looseSource : String :=
  "\uFEFFclass A \x7b\n  int n = 1 + /* one more */ 2;\n  @B( 3 ) int f(int x) // as it is\n  \x7b\n" ++
    "    return x;\n  \x7d\n\x7d\n"

theorem generation_of_lexemes_tight_and_loose :
    ∃ tokens tokens', Token.ofSource tightSource = .ok tokens ∧
      Token.ofSource looseSource = .ok tokens' ∧
      tokens.map Token.lexeme = tokens'.map Token.lexeme ∧ tightSource ≠ looseSource ∧
      EndsAlike (ofSource {} .forwarding tightSource).outcome
        (ofSource {} .forwarding looseSource).outcome ∧
      ∃ units, (ofSource {} .forwarding looseSource).outcome = .ok units ∧ units.length = 1 := by
  have tight : tightSource.toList = _ := String.toList_ofList
  have loose : looseSource.toList = _ :=
    Text.toList_of_parts String.toList_ofList String.toList_ofList
  obtain ⟨tokens, lexed⟩ : ∃ tokens, Token.ofSource tightSource = .ok tokens := by
    rw [Token.ofSource, Piece.ofSource, tight]
    exact exists_ok_of_isOk (by decide +kernel)
  have same : (Token.ofSource looseSource).toOption.map (List.map Token.lexeme) =
      (Token.ofSource tightSource).toOption.map (List.map Token.lexeme) := by
    rw [Token.ofSource, Piece.ofSource, loose, Token.ofSource, Piece.ofSource, tight]
    decide +kernel
  rw [lexed] at same
  obtain ⟨tokens', lexedLoose, sameLexemes⟩ := Option.map_eq_some_iff.mp same
  have lexed' := toOption_eq_some lexedLoose
  have counted : (ofSource {} .forwarding looseSource).outcome.toOption.map List.length = some 1 := by
    rw [ofSource, CompilationUnit.read, Token.ofSource, Piece.ofSource, loose]
    decide +kernel
  obtain ⟨units, ended, one⟩ := Option.map_eq_some_iff.mp counted
  have apart : tightSource ≠ looseSource := by
    rw [Ne, ← String.toList_inj, tight, loose]
    decide +kernel
  exact ⟨tokens, tokens', lexed, lexed', sameLexemes.symm, apart,
    (generation_of_lexemes lexed lexed' sameLexemes.symm).1 {}, units, toOption_eq_some ended, one⟩

end GeneratedUnit

end TestDouble
