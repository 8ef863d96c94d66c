import DocLint.Proofs.TokenForms

/-!
# Fixed spellings

Brackets and semicolons are always written the same way, so what a bracket stands for is known from its kind.
-/

namespace DocLint

/-- How a bracket or a semicolon is written. -/
def Kind.spelling? : Kind → Option Text
  | openBrace => some ['{']
  | closeBrace => some ['}']
  | openParen => some ['(']
  | closeParen => some [')']
  | openSquare => some ['[']
  | closeSquare => some [']']
  | openAttribute => some ['#', '[']
  | semicolon => some [';']
  | _ => none

theorem Kind.spelling?_isSome {kind : Kind} (h : kind.closedBy.isSome = true ∨ kind.isCloser = true) :
    kind.spelling?.isSome = true := by
  cases kind <;> simp_all [closedBy, isCloser, spelling?]

/-- A lexeme is written as its kind is. -/
def Lexeme.Spelled (lexeme : Lexeme) : Prop :=
  ∀ text, lexeme.kind.spelling? = some text → lexeme.text = text

theorem Kind.Form.spelled {kind : Kind} {text rest : Text} (h : kind.Form text rest) :
    Lexeme.Spelled ⟨kind, text⟩ := by
  intro spelling hs
  cases kind <;> cases hs <;> exact h

theorem Piece.Formed.spelled {piece : Piece} {rest : Text} (h : piece.Formed rest) :
    ∀ lexeme ∈ piece.lexemes, lexeme.Spelled := by
  intro lexeme hm
  cases piece with
  | single only =>
    obtain rfl := List.mem_singleton.1 hm
    exact Kind.Form.spelled h
  | docComment body => exact Kind.Form.spelled (h.docComment_forms lexeme hm rest)

/-- In a run, brackets and semicolons are written as their kind is. -/
theorem Lexed.spelled {mode : Mode} {before : Option Lexeme} {text : Text} {pieces : List Piece}
    (run : Lexed mode before text pieces) :
    ∀ piece ∈ pieces, ∀ lexeme ∈ piece.lexemes, lexeme.Spelled := by
  intro piece hp
  obtain ⟨rest, hformed⟩ := run.exists_formed piece hp
  exact hformed.spelled

end DocLint
