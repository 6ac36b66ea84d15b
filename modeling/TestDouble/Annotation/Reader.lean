import TestDouble.Annotation
import TestDouble.Declaration
import TestDouble.Fragment.Reader

/-!
# Reading annotations and modifiers

Annotations and modifiers may stand in any order before a declaration. `sealed` and `non-sealed`
are passed there without a trace.
-/

namespace TestDouble

namespace Annotation

/-- Whether a comma comes next. -/
def atComma : List Token → Bool
  | token :: _ => token.kind == .comma
  | [] => false

/-- Read one argument: a value, or a key and a value. -/
def readArgument (c : Cursor) : Reading AnnotationArgument c :=
  match c with
  | ⟨last, key :: sign :: rest⟩ =>
    if key.kind = .identifier ∧ sign.kind = .assign then do
      let ⟨value, c₁, h₁⟩ ← Fragment.readValue ⟨some sign, rest⟩ "annotation value" atComma
      return ⟨.named key.text value.text, c₁,
        by simp only [Cursor.size, List.length_cons] at *; omega⟩
    else do
      let ⟨value, c₁, h₁⟩ ←
        Fragment.readValue ⟨last, key :: sign :: rest⟩ "annotation value" atComma
      return ⟨.value value.text, c₁, h₁⟩
  | ⟨last, ahead⟩ => do
    let ⟨value, c₁, h₁⟩ ← Fragment.readValue ⟨last, ahead⟩ "annotation value" atComma
    return ⟨.value value.text, c₁, h₁⟩

/-- Read the arguments and the round bracket that closes them. -/
def readArguments (c : Cursor) : Reading (List AnnotationArgument) c := do
  let ⟨arguments, c₁, h₁⟩ ← (
    if c.sees [.rightParen] then return ⟨[], c, c.size_le⟩
    else do
      let ⟨arguments, c₁, h₁⟩ ← c.sepBy .comma fun c' _ => readArgument c'
      return ⟨arguments, c₁, Cursor.le_of_lt h₁⟩ : Passing (List AnnotationArgument) c)
  let ⟨_, c₂, h₂⟩ ← c₁.expect .rightParen "')' after annotation arguments"
  return ⟨arguments, c₂, Cursor.lt_of_le_lt h₁ h₂⟩

/-- Read an annotation. -/
def read (c : Cursor) : Reading Annotation c := do
  let ⟨_, c₁, h₁⟩ ← c.expect .atSign "'@'"
  let ⟨name, c₂, h₂⟩ ← c₁.dottedName
  let ⟨arguments, c₃, h₃⟩ ← c₂.clause .leftParen fun c' _ => readArguments c'
  return ⟨⟨name, arguments.getD [], ⟨c.location, c₃.lastStop⟩⟩, c₃,
    Cursor.lt_of_lt_lt h₁ (Cursor.lt_of_lt_le h₂ h₃)⟩

/-- Whether an annotation comes next rather than the declaration of an annotation type. -/
def comesNext (c : Cursor) : Bool := c.sees [.atSign] && !c.sees [.atSign, .interfaceWord]

/-- Pass the annotations that come next. -/
def passFrom (origin c : Cursor) (within : c.size ≤ origin.size) : Passing Unit origin :=
  if comesNext c then do
    let ⟨_, c₁, h₁⟩ ← read c
    passFrom origin c₁ (by omega)
  else return ⟨(), c, within⟩
termination_by c.size

/-- Pass the annotations that come next; types do not keep theirs. -/
def pass (c : Cursor) : Passing Unit c := passFrom c c (c.size_le)

end Annotation

namespace Qualifiers

/-- The tokens behind the words `non-sealed`, if they come next; any operator may stand between
them. -/
def afterNonSealed? : List Token → Option (Token × List Token)
  | t₁ :: t₂ :: t₃ :: rest =>
    if t₁.kind = .identifier ∧ t₁.text = "non" ∧ t₂.kind = .operator ∧ t₃.kind = .identifier ∧
        t₃.text = "sealed" then some (t₃, rest)
    else none
  | _ => none

theorem length_of_afterNonSealed? {tokens rest : List Token} {token : Token}
    (found : afterNonSealed? tokens = some (token, rest)) : rest.length + 3 = tokens.length := by
  unfold afterNonSealed? at found
  split at found
  next =>
    split at found
    · simp only [Option.some.injEq, Prod.mk.injEq] at found
      simp [found.2]
    · simp at found
  next => simp at found

/-- The cursor behind the word `sealed` or the words `non-sealed`, if one of them comes next. -/
def passSealed? (c : Cursor) : Option (Consumed c Token) :=
  match c.acceptWord? "sealed" with
  | some taken => some taken
  | none =>
    match found : afterNonSealed? c.ahead with
    | some (token, rest) => some ⟨token, ⟨some token, rest⟩, by
        have := length_of_afterNonSealed? found
        simp only [Cursor.size]
        omega⟩
    | none => none

/-- The modifier that comes next, if one does. -/
def modifier? (c : Cursor) : Option (Consumed c Modifier) :=
  match c with
  | ⟨_, token :: rest⟩ =>
    match token.kind with
    | .modifier m => some ⟨m, ⟨some token, rest⟩, Cursor.size_tail_lt ..⟩
    | _ => none
  | ⟨_, []⟩ => none

/-- Read modifiers and annotations, behind those read so far (last annotation first). -/
def readFrom (origin c : Cursor) (within : c.size ≤ origin.size) (modifiers : ModifierSet)
    (annotations : List Annotation) : Passing Qualifiers origin :=
  if Annotation.comesNext c then do
    let ⟨found, c₁, h₁⟩ ← Annotation.read c
    readFrom origin c₁ (by omega) modifiers (found :: annotations)
  else
    match modifier? c with
    | some ⟨m, c₁, h₁⟩ => readFrom origin c₁ (by omega) (modifiers.insert m) annotations
    | none =>
      match passSealed? c with
      | some ⟨_, c₁, h₁⟩ => readFrom origin c₁ (by omega) modifiers annotations
      | none => return ⟨⟨modifiers, annotations.reverse⟩, c, within⟩
termination_by c.size

/-- Read the modifiers and annotations that come next, in any order. -/
def read (c : Cursor) : Passing Qualifiers c := readFrom c c (c.size_le) .empty []

end Qualifiers

end TestDouble
