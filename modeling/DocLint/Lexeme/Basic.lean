import DocLint.Text.Basic
import DocLint.Token.Kind

/-!
# Lexemes

A lexeme is a kind with its text, before it has a place in a stream. Lexing cuts a source into
pieces. A piece is one lexeme, or a whole doc comment, which is cut into many lexemes at once and
stays together so that its opening can point to its tags and its closing.
-/

namespace DocLint

/-- A kind with the text it stands for. -/
structure Lexeme where
  /-- What the text is. -/
  kind : Kind
  /-- The text. -/
  text : Text
  deriving DecidableEq

/-- What one step of lexing cuts off. -/
inductive Piece where
  /-- One lexeme outside doc comments. -/
  | single (lexeme : Lexeme)
  /-- A doc comment: what stands between its delimiters. -/
  | docComment (body : List Lexeme)
  deriving DecidableEq

namespace Piece

/-- The opening of every doc comment. -/
def docOpening : Lexeme := ⟨.docOpen, "/**".toList⟩

/-- The closing of every doc comment. -/
def docClosing : Lexeme := ⟨.docClose, "*/".toList⟩

/-- The lexemes of a piece, delimiters included. -/
def lexemes : Piece → List Lexeme
  | single lexeme => [lexeme]
  | docComment body => docOpening :: (body ++ [docClosing])

/-- The text of a piece. -/
def text (piece : Piece) : Text := piece.lexemes.flatMap (·.text)

@[simp] theorem text_single (lexeme : Lexeme) : (single lexeme).text = lexeme.text := by
  simp [text, lexemes]

theorem text_docComment (body : List Lexeme) :
    (docComment body).text = "/**".toList ++ (body.flatMap (·.text) ++ "*/".toList) := by
  simp [text, lexemes, docOpening, docClosing]

/-- The last lexeme that is not silent, given the last one before the piece. -/
def lastHeard (before : Option Lexeme) : Piece → Option Lexeme
  | single lexeme => if lexeme.kind.isSilent then before else some lexeme
  | docComment _ => before

end Piece

end DocLint
