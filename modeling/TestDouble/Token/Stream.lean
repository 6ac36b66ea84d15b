import TestDouble.Location
import TestDouble.Text.Exhibit
import TestDouble.Token.Munch

/-!
# Pieces and tokens of a source

`pieces` cuts a source into consecutive pieces, each with the place where it starts; a piece is a
token or a part that no token starts with. `tokens` keeps the significant ones. A token remembers
the text skipped before it, so any run of tokens can be turned back into source text.
-/

namespace TestDouble

/-- A part of a source; its kind is missing when no token starts there. -/
structure Piece where
  kind : Option Kind
  text : String
  location : Location
  deriving DecidableEq, Repr, Inhabited

/-- A significant token and the skipped text right before it. -/
structure Token where
  kind : Kind
  text : String
  location : Location
  leading : String
  deriving DecidableEq, Repr, Inhabited

namespace Piece

/-- The byte offset one past the piece. -/
def stopOffset (p : Piece) : Nat := p.location.offset + p.text.utf8ByteSize

/-- What is said of a piece that is no token. -/
def complaint (p : Piece) : String :=
  "unexpected character " ++ Text.Exhibit.text p.text ++ " at " ++ p.location.text

/-- The pieces of the rest of a source that starts at the given place, behind those cut so far
(last one first). -/
def cut (location : Location) (source : List Char) (done : List Piece) : List Piece :=
  match source with
  | [] => done.reverse
  | c :: rest =>
    let (kind, n) := Munch.munch c rest
    let text := c :: rest.take n
    cut (location.after text) (rest.drop n) (⟨kind, String.ofList text, location⟩ :: done)
termination_by source.length
decreasing_by simp only [List.length_drop, List.length_cons]; omega

/-- The pieces of a source, in order. -/
def ofSource (source : String) : List Piece := cut .origin source.toList []

end Piece

namespace Token

/-- The byte offset one past the token. -/
def stopOffset (t : Token) : Nat := t.location.offset + t.text.utf8ByteSize

/-- The place behind the token, counted on the line where it starts. -/
def stop (t : Token) : Location :=
  ⟨t.location.line, t.location.column + t.text.length, t.stopOffset⟩

/-- The significant tokens among the pieces, behind those kept so far (last one first) and the
text skipped since; or the first piece that is no token. -/
def keep : List Piece → String → List Token → Except Piece (List Token)
  | [], _, kept => .ok kept.reverse
  | p :: rest, skipped, kept =>
    match p.kind with
    | none => .error p
    | some kind =>
      if kind.isTrivia then keep rest (skipped ++ p.text) kept
      else keep rest "" (⟨kind, p.text, p.location, skipped⟩ :: kept)

/-- The significant tokens among the pieces, or the first piece that is no token. -/
def ofPieces (pieces : List Piece) : Except Piece (List Token) := keep pieces "" []

/-- The significant tokens of a source, or its first piece that is no token. -/
def ofSource (source : String) : Except Piece (List Token) := ofPieces (Piece.ofSource source)

end Token

end TestDouble
