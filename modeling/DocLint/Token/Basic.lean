import DocLint.Text.Basic
import DocLint.Token.Kind

/-!
# Tokens

A token is a kind with the text it stands for, the place where it starts, and links to the tokens it
belongs with: its partner bracket, the body or parameter list that it declares, the other end of its
doc comment. Links are indices into the stream. They are kept as plain integers, and each end of a
link apart from the other, because the checks are run on any stream a caller hands in, also on one
whose links make no sense.
-/

namespace DocLint

/-- A place in a text: line and column, both counted from one. -/
structure Pos where
  /-- One more than the number of line feeds before the place. -/
  line : Nat
  /-- One more than the number of code points since the last line feed. -/
  column : Nat
  deriving DecidableEq

namespace Pos

/-- Where every text starts. -/
def start : Pos := ⟨1, 1⟩

/-- The place after one character. Only a line feed starts a new line. -/
def next (pos : Pos) (c : Char) : Pos :=
  if c = '\n' then ⟨pos.line + 1, 1⟩ else ⟨pos.line, pos.column + 1⟩

/-- The place after a whole text. -/
def advance (pos : Pos) (text : Text) : Pos := text.foldl next pos

theorem advance_append (pos : Pos) (a b : Text) :
    pos.advance (a ++ b) = (pos.advance a).advance b := by
  simp [advance]

end Pos

/-- Two ends of a bracketed stretch of tokens, as indices into the stream. -/
structure Link where
  /-- Where the stretch opens. -/
  opener : Option Int := none
  /-- Where the stretch closes. -/
  closer : Option Int := none
  deriving DecidableEq

/-- A link with both ends. -/
def Link.between (opener closer : Nat) : Link := ⟨some opener, some closer⟩

/-- A token with its place and its links. -/
structure Token where
  /-- What the token is. -/
  kind : Kind
  /-- The text that the token stands for. -/
  content : Text
  /-- The line on which the token starts. -/
  line : Int
  /-- The column at which the token starts. -/
  column : Int
  /-- The braces of a body: on the declaration and on both braces. -/
  scope : Link := {}
  /-- Parentheses: on both of them, and on the function whose parameters they hold. -/
  parens : Link := {}
  /-- Braces, square brackets or an attribute: on both ends. -/
  brackets : Link := {}
  /-- The other end of a doc comment: the closer on its opening, the opener on its closing. -/
  comment : Link := {}
  /-- On the opening of a doc comment, its tags. -/
  tags : List Int := []
  deriving DecidableEq

/-- The line on which a token ends. -/
def Token.endLine (token : Token) : Int := token.line + token.content.count '\n'

end DocLint
