import DocLint.Lexeme.Scan
import DocLint.Token.Basic

/-!
# Laying out lexemes

Laid out one after the other, lexemes become tokens: each starts where the text of those before it
ends, and its index is their number. A doc comment is laid out as a group, because its opening points
to its closing and its tags, and its closing points back.
-/

namespace DocLint

/-- The token of a lexeme that starts at `pos`. -/
def Lexeme.placed (lexeme : Lexeme) (pos : Pos) : Token :=
  { kind := lexeme.kind, content := lexeme.text, line := pos.line, column := pos.column }

/-- The tokens of lexemes that follow each other from `pos` on. -/
def placeAll : Pos → List Lexeme → List Token
  | _, [] => []
  | pos, lexeme :: rest => lexeme.placed pos :: placeAll (pos.advance lexeme.text) rest

/-- The indices of the tags among lexemes of which the first has the index `index`. -/
def tagIndices : (index : Nat) → List Lexeme → List Nat
  | _, [] => []
  | index, lexeme :: rest =>
    if lexeme.kind == .docTag then index :: tagIndices (index + 1) rest
    else tagIndices (index + 1) rest

/-- The tokens of a piece that starts at `pos` and whose first token has the index `index`. -/
def Piece.tokens (pos : Pos) (index : Nat) : Piece → List Token
  | .single lexeme => [lexeme.placed pos]
  | .docComment body =>
    let bodyPos := pos.advance Piece.docOpening.text
    let closePos := bodyPos.advance (body.flatMap (·.text))
    let tags := (tagIndices (index + 1) body).map Int.ofNat
    { Piece.docOpening.placed pos with
        comment := { closer := some (index + body.length + 1 : Nat) }, tags } ::
      (placeAll bodyPos body ++
        [{ Piece.docClosing.placed closePos with comment := { opener := some index } }])

/-- The tokens of pieces that follow each other from `pos` and `index` on. -/
def layoutFrom : (pos : Pos) → (index : Nat) → List Piece → List Token
  | _, _, [] => []
  | pos, index, piece :: rest =>
    piece.tokens pos index ++
      layoutFrom (pos.advance piece.text) (index + piece.lexemes.length) rest

/-- The tokens of all pieces of a source. -/
def layout (pieces : List Piece) : List Token := layoutFrom .start 0 pieces

end DocLint
