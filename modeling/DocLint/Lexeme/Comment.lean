import DocLint.Lexeme.Basic

/-!
# Comments

A line comment runs to the end of the line or to the tag that leaves the code. A doc comment is cut
further, line by line: stars and blanks at the start of a line, then a tag or a text. A star or an
`@` is special only while the line has shown nothing but blanks and stars.
-/

namespace DocLint.Lexeme

/-- A line comment, and what follows it. -/
def lineComment : Text → Text × Text
  | [] => ([], [])
  | c :: rest =>
    if Text.isNewline c || "?>".toList.isPrefixOf (c :: rest) then ([], c :: rest)
    else
      let (text, after) := lineComment rest
      (c :: text, after)

theorem lineComment_append (text : Text) :
    (lineComment text).1 ++ (lineComment text).2 = text := by
  induction text with
  | nil => rfl
  | cons c rest ih =>
    rw [lineComment]
    split
    · rfl
    · simp [ih]

/-! ## Doc comments -/

/-- One lexeme of a doc comment, and how the comment goes on. -/
structure DocStep where
  /-- The lexeme. -/
  lexeme : Lexeme
  /-- Has the line shown nothing but blanks and stars, up to and with this lexeme? -/
  lineStart : Bool
  /-- What follows the lexeme. -/
  rest : Text

/-- The end of a line in a doc comment that starts with `c`, a newline character. -/
def docNewline (c : Char) (rest : Text) : DocStep :=
  if c == '\r' && rest.head? == some '\n' then ⟨⟨.docGap, ['\r', '\n']⟩, true, rest.tail⟩
  else ⟨⟨.docGap, [c]⟩, true, rest⟩

/-- The text of a doc comment line from `c`, no newline and no blank, on: to the end of the line, less
the blanks there. -/
def docLine (c : Char) (rest : Text) : Text :=
  c :: Text.dropEndWhile Text.isBlank (rest.takeWhile (!Text.isNewline ·))

/-- The first lexeme of the text `c :: rest` of a doc comment. -/
def docStep (lineStart : Bool) (c : Char) (rest : Text) : DocStep :=
  if Text.isNewline c then docNewline c rest
  else if Text.isBlank c then
    ⟨⟨.docGap, c :: rest.takeWhile Text.isBlank⟩, lineStart, rest.dropWhile Text.isBlank⟩
  else if c == '*' && lineStart then ⟨⟨.docStar, [c]⟩, true, rest⟩
  else if c == '@' && lineStart then
    ⟨⟨.docTag, c :: rest.takeWhile (!Text.isGap ·)⟩, false, rest.dropWhile (!Text.isGap ·)⟩
  else
    let line := docLine c rest
    ⟨⟨.docText, line⟩, false, (c :: rest).drop line.length⟩

theorem docLine_isPrefix (c : Char) (rest : Text) : docLine c rest <+: c :: rest := by
  have h : Text.dropEndWhile Text.isBlank (rest.takeWhile (!Text.isNewline ·)) <+: rest :=
    (Text.dropEndWhile_isPrefix _ _).trans (List.takeWhile_prefix _)
  simpa [docLine] using h

/-- A step of a doc comment loses nothing. -/
theorem docStep_append (lineStart : Bool) (c : Char) (rest : Text) :
    (docStep lineStart c rest).lexeme.text ++ (docStep lineStart c rest).rest = c :: rest := by
  unfold docStep
  split
  · unfold docNewline
    split
    · rename_i _ h
      simp only [Bool.and_eq_true, beq_iff_eq] at h
      obtain ⟨rfl, h⟩ := h
      cases rest with
      | nil => simp at h
      | cons d rest => simp_all
    · rfl
  · split
    · simp
    · split
      · rfl
      · split
        · simp
        · exact List.prefix_iff_eq_append.1 (docLine_isPrefix c rest)

/-- A step of a doc comment takes at least one character. -/
theorem docStep_text_ne_nil (lineStart : Bool) (c : Char) (rest : Text) :
    (docStep lineStart c rest).lexeme.text ≠ [] := by
  unfold docStep docNewline docLine
  split
  · split <;> simp
  · split
    · simp
    · split
      · simp
      · split <;> simp

theorem docStep_shorter (lineStart : Bool) (c : Char) (rest : Text) :
    (docStep lineStart c rest).rest.length < (c :: rest).length := by
  have h := congrArg List.length (docStep_append lineStart c rest)
  have h0 := List.length_pos_iff.2 (docStep_text_ne_nil lineStart c rest)
  rw [List.length_append] at h
  omega

/-- The lexemes of a doc comment between its delimiters. -/
def docBody (lineStart : Bool) : Text → List Lexeme
  | [] => []
  | c :: rest =>
    let step := docStep lineStart c rest
    step.lexeme :: docBody step.lineStart step.rest
termination_by text => text.length
decreasing_by exact docStep_shorter lineStart c rest

/-- The lexemes of a doc comment are its text. -/
theorem docBody_text (lineStart : Bool) (text : Text) :
    (docBody lineStart text).flatMap (·.text) = text := by
  fun_induction docBody lineStart text with
  | case1 => rfl
  | case2 lineStart c rest step ih =>
    rw [List.flatMap_cons, ih]
    exact docStep_append lineStart c rest

end DocLint.Lexeme
