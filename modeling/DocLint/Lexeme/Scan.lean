import DocLint.Lexeme.Rules

/-!
# Cutting a source into pieces

Lexing repeats the next cut until the text ends or a rule finds a fault. The result keeps the pieces
before a fault, so that the place of the fault is the place after their text.
-/

namespace DocLint

/-- The pieces of a source, up to the end or to the first fault. -/
structure Scan where
  /-- The pieces, in order. -/
  pieces : List Piece
  /-- What stopped lexing before the end. -/
  fault : Option LexFault

/-- The pieces of `text`, which lexing enters in `mode` and after the lexeme `before`, silent ones
not counted. -/
def scanFrom (mode : Mode) (before : Option Lexeme) (text : Text) : Scan :=
  match _h : nextCut mode before text with
  | none => ⟨[], none⟩
  | some (.refused fault) => ⟨[], some fault⟩
  | some (.taken piece mode rest) =>
    let scan := scanFrom mode (piece.lastHeard before) rest
    { scan with pieces := piece :: scan.pieces }
termination_by text.length
decreasing_by exact nextCut_shorter _h

/-- The pieces of a source. -/
def scan (source : Text) : Scan := scanFrom .html none source

/-- The lexemes of a source, up to the end or to the first fault. -/
def Scan.lexemes (scan : Scan) : List Lexeme := scan.pieces.flatMap (·.lexemes)

/-- The text that the pieces cover. -/
def Scan.text (scan : Scan) : Text := scan.pieces.flatMap (·.text)

end DocLint
