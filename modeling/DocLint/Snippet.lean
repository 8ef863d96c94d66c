import DocLint.Text.Lines

/-!
# Snippets

A message is shown with its place, the source line it is about and a row of carets under that line.
The line number fixes the width of the gutter. A place outside the source shows an empty line; carets
never run beyond the line, but there is always at least one.

A place may be given by any numbers, but the blanks before the carets and the carets have to be counted in
64 bits.
-/

namespace DocLint

/-- A message about a place in a source. -/
structure Snippet where
  /-- The word before the message: how grave it is. -/
  label : Text
  /-- The message. -/
  message : Text
  /-- The line, counted from one. -/
  line : Int
  /-- The column of the first caret, counted from one. -/
  column : Int
  /-- The source. -/
  source : Text
  /-- The name of the source. -/
  filename : Text
  /-- How many carets are wanted. -/
  width : Int := 1

/-- Why a snippet cannot be drawn. -/
inductive SnippetFault where
  /-- A count does not fit into 64 bits. -/
  | outOfRange
  deriving DecidableEq

namespace Snippet

/-- The source line that a snippet shows. -/
def shown (snippet : Snippet) : Text :=
  if snippet.line < 1 then []
  else match (Text.lines snippet.source)[(snippet.line - 1).toNat]? with
    | some line => Text.shownLine line
    | none => []

/-- The number of carets. -/
def carets (snippet : Snippet) : Int :=
  max 1 (min snippet.width (snippet.shown.length - snippet.column + 1))

/-- The rows of a snippet. -/
def rows (snippet : Snippet) : List Text :=
  let number := Text.ofInt snippet.line
  let gutter := Text.fill (number.length + 1) ' '
  [snippet.label ++ ": ".toList ++ snippet.message,
    gutter ++ "--> ".toList ++ snippet.filename ++ ":".toList ++ number ++ ":".toList ++
      Text.ofInt snippet.column,
    gutter ++ "|".toList,
    number ++ " | ".toList ++ snippet.shown,
    gutter ++ "| ".toList ++ Text.fill (snippet.column - 1) ' ' ++ Text.fill snippet.carets '^']

/-- The rows one below the other. -/
def draw (snippet : Snippet) : Text := Text.join ['\n'] snippet.rows

/-- Can this many characters be counted? -/
def checkCount (count : Int) : Except SnippetFault Unit :=
  if count < -(Nat.pow 2 63 : Int) ∨ (Nat.pow 2 63 : Int) ≤ count then .error .outOfRange
  else .ok ()

/-- A snippet as it is printed. -/
def render (snippet : Snippet) : Except SnippetFault Text := do
  checkCount (snippet.column - 1)
  checkCount snippet.carets
  return snippet.draw

end Snippet

end DocLint
