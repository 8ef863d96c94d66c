import DocLint.Snippet

/-!
# Faults of a source

What keeps a source from becoming a stream, and how that is shown: under two carets, at the place where
the faulty part starts.
-/

namespace DocLint

/-- Why a source cannot be cut into paired tokens. -/
inductive LexFault where
  /-- A quote without its partner. -/
  | openString
  /-- A block comment without an end. -/
  | openComment
  /-- A doc comment without an end. -/
  | openDocComment
  /-- A heredoc without a line that closes it. -/
  | openHeredoc
  /-- A closing bracket that closes nothing. -/
  | unmatched (bracket : Text)
  /-- An opening bracket that nothing closes. -/
  | unclosed (bracket : Text)
  deriving DecidableEq

/-- The wording of a fault. -/
def LexFault.message : LexFault → Text
  | openString => "unterminated string literal".toList
  | openComment => "unterminated comment".toList
  | openDocComment => "unterminated doc comment".toList
  | openHeredoc => "unterminated heredoc".toList
  | unmatched bracket => "unmatched '".toList ++ bracket ++ "'".toList
  | unclosed bracket => "unclosed '".toList ++ bracket ++ "'".toList

/-- A fault with the place where it starts. -/
structure LexError where
  /-- What is wrong. -/
  fault : LexFault
  /-- The line of the fault. -/
  line : Int
  /-- The column of the fault. -/
  column : Int
  deriving DecidableEq

/-- A fault with the source line it is in. Its place is one in the source, so it can be drawn. -/
def LexError.render (error : LexError) (source filename : Text) : Text :=
  Snippet.draw {
    label := "error".toList
    message := error.fault.message
    line := error.line
    column := error.column
    source, filename
    width := 2 }

end DocLint
