import DocLint.Text.Basic

/-!
# Lines

A text shown to a reader breaks at every character that ends a line or a paragraph in some
convention, with a carriage return and a line feed together as one break. The place of a token counts
line feeds alone; the two agree on text that has no other break.
-/

namespace DocLint.Text

/-- Does the character alone end a line? -/
def isLineBreak (c : Char) : Bool :=
  let n := c.toNat
  (0x0A ≤ n && n ≤ 0x0D) || (0x1C ≤ n && n ≤ 0x1E) || n == 0x85 || n == 0x2028 || n == 0x2029

/-- The lines of a text, each with what ends it. -/
def lines : Text → List Text
  | [] => []
  | '\r' :: '\n' :: rest => ['\r', '\n'] :: lines rest
  | c :: rest =>
    if isLineBreak c then [c] :: lines rest
    else match lines rest with
      | [] => [[c]]
      | line :: more => (c :: line) :: more

/-- A line as it is shown: without the line feeds at its end, and then without the carriage returns
at its end. -/
def shownLine (line : Text) : Text := dropEndWhile (· == '\r') (dropEndWhile (· == '\n') line)

/-- A text read from a file: every way to write the end of a line becomes a line feed. -/
def unifyNewlines : Text → Text
  | [] => []
  | '\r' :: '\n' :: rest => '\n' :: unifyNewlines rest
  | c :: rest => (if c == '\r' then '\n' else c) :: unifyNewlines rest

end DocLint.Text
