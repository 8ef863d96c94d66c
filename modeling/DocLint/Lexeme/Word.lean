import DocLint.Lexeme.Basic
import DocLint.Text.Case

/-!
# Words and keywords

A word is a name with its namespace separators. Every code point from U+0080 on may stand in a word.
A word whose lower case is a keyword is that keyword, unless the last lexeme before it makes it a
plain name: a member access, a declaration whose name it is, or an import of functions.
-/

namespace DocLint

/-- May the character start a word? -/
def isWordStart (c : Char) : Bool := c.isAlpha || c == '_' || c == '\\' || 0x80 ≤ c.toNat

/-- May the character continue a word? -/
def isWordChar (c : Char) : Bool := c.isAlphanum || c == '_' || c == '\\' || 0x80 ≤ c.toNat

namespace Lexeme

/-- The keyword that a word spells, in any mix of cases. -/
def keyword? (word : Text) : Option Kind :=
  (Kind.keywords.find? fun (spelling, _) => spelling.toList == Text.lower word).map (·.2)

/-- Operators that access a member. -/
def memberOperators : List Text := ["->".toList, "?->".toList, "::".toList]

/-- Does this lexeme make the keyword after it a plain name? -/
def unkeys (before : Lexeme) (keyword : Kind) : Bool :=
  memberOperators.contains before.text || before.kind.ownsScope ||
    (before.kind == .useWord && keyword == .function)

/-- The kind of a word after the lexeme `before`, silent ones not counted. -/
def wordKind (before : Option Lexeme) (word : Text) : Kind :=
  match keyword? word with
  | none => .word
  | some keyword => if before.any (·.unkeys keyword) then .word else keyword

end Lexeme

end DocLint
