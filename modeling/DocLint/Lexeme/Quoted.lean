import DocLint.Lexeme.Basic

/-!
# Quoted strings and heredocs

A quoted string ends at the first quote of its own sort that no backslash precedes; a backslash takes
the next character with it. A heredoc starts with `<<<`, a label that may be quoted, and the end of
the line. It ends with the first later line that has only blanks before the label, where no further
label character follows; it ends right after that label.
-/

namespace DocLint.Lexeme

/-- Single quote, double quote or back quote. -/
def isQuote (c : Char) : Bool := c == '\x27' || c == '\x22' || c == '\x60'

/-- From behind an opening `quote`: the string through its closing quote, and what follows. -/
def quotedFrom? (quote : Char) : Text → Option (Text × Text)
  | [] => none
  | [c] => if c == quote then some ([c], []) else none
  | c :: d :: rest =>
    if c == '\\' then (quotedFrom? quote rest).map fun (text, after) => (c :: d :: text, after)
    else if c == quote then some ([c], d :: rest)
    else (quotedFrom? quote (d :: rest)).map fun (text, after) => (c :: text, after)

theorem quotedFrom?_append {quote : Char} {text taken rest : Text}
    (h : quotedFrom? quote text = some (taken, rest)) : taken ++ rest = text := by
  fun_induction quotedFrom? quote text generalizing taken rest with
  | case1 => simp at h
  | case2 => simp_all
  | case3 => simp at h
  | case4 c d after hc ih =>
    obtain ⟨⟨t, r⟩, hr, he⟩ := Option.map_eq_some_iff.1 h
    obtain ⟨rfl, rfl⟩ : c :: d :: t = taken ∧ r = rest := by simpa using he
    simp [ih hr]
  | case5 c d after =>
    obtain ⟨rfl, rfl⟩ : [c] = taken ∧ d :: after = rest := by simpa using h
    rfl
  | case6 c d after hc hq ih =>
    obtain ⟨⟨t, r⟩, hr, he⟩ := Option.map_eq_some_iff.1 h
    obtain ⟨rfl, rfl⟩ : c :: t = taken ∧ r = rest := by simpa using he
    simp [ih hr]

/-! ## Heredocs -/

/-- May the character start a label? -/
def isLabelStart (c : Char) : Bool := c.isAlpha || c == '_' || 0x80 ≤ c.toNat

/-- May the character continue a label? -/
def isLabelChar (c : Char) : Bool := c.isAlphanum || c == '_' || 0x80 ≤ c.toNat

/-- The quote around a label, if there is one, and what follows it. -/
def labelQuote : Text → Text × Text
  | [] => ([], [])
  | c :: rest => if c == '\x27' || c == '\x22' then ([c], rest) else ([], c :: rest)

/-- The end of a line, and what follows it. -/
def lineEnd? : Text → Option (Text × Text)
  | '\n' :: rest => some (['\n'], rest)
  | '\r' :: '\n' :: rest => some (['\r', '\n'], rest)
  | _ => none

/-- The first line of a heredoc. -/
structure HeredocOpening where
  /-- The text of the line, its end included. -/
  text : Text
  /-- The label that has to come back. -/
  label : Text
  /-- What follows the line. -/
  rest : Text

/-- The first line of a heredoc, behind its `<<<`. -/
def heredocOpening? (text : Text) : Option HeredocOpening :=
  let blanks := text.takeWhile Text.isBlank
  let (quote, afterQuote) := labelQuote (text.dropWhile Text.isBlank)
  let label := afterQuote.takeWhile isLabelChar
  let afterLabel := afterQuote.dropWhile isLabelChar
  if label.head?.any isLabelStart then
    match Text.after? quote afterLabel with
    | none => none
    | some afterQuotes =>
      (lineEnd? afterQuotes).map fun (newline, rest) =>
        { text := blanks ++ quote ++ label ++ quote ++ newline, label, rest }
  else none

/-- At the start of a line: the blanks and the label that close a heredoc, and what follows. -/
def heredocClosing? (label text : Text) : Option (Text × Text) :=
  match Text.after? label (text.dropWhile Text.isBlank) with
  | none => none
  | some rest =>
    if rest.head?.any isLabelChar then none
    else some (text.takeWhile Text.isBlank ++ label, rest)

/-- The body of a heredoc through its closing label, and what follows. `atStart` says whether the
text is at the start of a line. -/
def heredocFrom? (label : Text) : (atStart : Bool) → Text → Option (Text × Text)
  | _, [] => none
  | atStart, c :: rest =>
    match (if atStart then heredocClosing? label (c :: rest) else none) with
    | some found => some found
    | none =>
      (heredocFrom? label (c == '\n') rest).map fun (text, after) => (c :: text, after)

theorem labelQuote_append (text : Text) : (labelQuote text).1 ++ (labelQuote text).2 = text := by
  cases text with
  | nil => rfl
  | cons c rest =>
    rw [labelQuote]
    split <;> rfl

theorem lineEnd?_append {text taken rest : Text} (h : lineEnd? text = some (taken, rest)) :
    taken ++ rest = text := by
  unfold lineEnd? at h
  split at h
  · obtain ⟨rfl, rfl⟩ := Prod.mk.inj (Option.some.inj h)
    rfl
  · obtain ⟨rfl, rfl⟩ := Prod.mk.inj (Option.some.inj h)
    rfl
  · simp at h

theorem heredocOpening?_append {text : Text} {opening : HeredocOpening}
    (h : heredocOpening? text = some opening) : opening.text ++ opening.rest = text := by
  simp only [heredocOpening?] at h
  split at h
  · split at h
    · simp at h
    · next afterQuotes hq =>
      obtain ⟨⟨newline, rest⟩, hl, rfl⟩ := Option.map_eq_some_iff.1 h
      have h1 := lineEnd?_append hl
      have h2 := Text.after?_eq_some.1 hq
      have h3 := labelQuote_append (text.dropWhile Text.isBlank)
      have h4 := List.takeWhile_append_dropWhile (p := isLabelChar)
        (l := (labelQuote (text.dropWhile Text.isBlank)).2)
      have h5 := List.takeWhile_append_dropWhile (p := Text.isBlank) (l := text)
      simp only [List.append_assoc, h1]
      rw [h2, h4, h3, h5]
  · simp at h

theorem heredocClosing?_append {label text taken rest : Text}
    (h : heredocClosing? label text = some (taken, rest)) : taken ++ rest = text := by
  unfold heredocClosing? at h
  split at h
  · simp at h
  · next after ha =>
    split at h
    · simp at h
    · obtain ⟨rfl, rfl⟩ : text.takeWhile Text.isBlank ++ label = taken ∧ after = rest := by
        simpa using h
      rw [List.append_assoc, Text.after?_eq_some.1 ha, List.takeWhile_append_dropWhile]

theorem heredocFrom?_append {label text taken rest : Text} {atStart : Bool}
    (h : heredocFrom? label atStart text = some (taken, rest)) : taken ++ rest = text := by
  induction text generalizing atStart taken rest with
  | nil => simp [heredocFrom?] at h
  | cons c after ih =>
    rw [heredocFrom?] at h
    split at h
    · next found hf =>
      obtain rfl : found = (taken, rest) := by simpa using h
      split at hf
      · exact heredocClosing?_append hf
      · simp at hf
    · obtain ⟨⟨t, r⟩, hr, he⟩ := Option.map_eq_some_iff.1 h
      obtain ⟨rfl, rfl⟩ : c :: t = taken ∧ r = rest := by simpa using he
      simp [ih hr]

end DocLint.Lexeme
