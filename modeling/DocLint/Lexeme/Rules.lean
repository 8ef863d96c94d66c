import DocLint.Lexeme.Comment
import DocLint.Lexeme.Fault
import DocLint.Lexeme.Number
import DocLint.Lexeme.Quoted
import DocLint.Lexeme.Word

/-!
# Lexical rules

A source starts outside code. A `<?` enters the code and a `?>` leaves it. In code a fixed list of
rules is tried in order, and the first one that applies cuts off the next piece or finds a fault;
the last rule applies to every character. A rule never loses a character and always takes one
(`nextCut_lossless`), which is why lexing is lossless and ends.
-/

namespace DocLint

/-- Where lexing stands. -/
inductive Mode where
  /-- Outside code. -/
  | html
  /-- In code. -/
  | code
  deriving DecidableEq

/-- What a rule finds at the start of a text. -/
inductive Cut where
  /-- A piece, the mode after it, and what follows it. -/
  | taken (piece : Piece) (mode : Mode) (rest : Text)
  /-- A fault that starts right here. -/
  | refused (fault : LexFault)

namespace Cut

/-- One lexeme, after which the code goes on. -/
def single (kind : Kind) (text rest : Text) : Cut := taken (.single ⟨kind, text⟩) .code rest

/-- A cut is lossless: it takes a first part of the text that is not empty, and leaves the rest. -/
def Lossless (text : Text) : Cut → Prop
  | taken piece _ rest => piece.text ++ rest = text ∧ piece.text ≠ []
  | refused _ => True

end Cut

/-! ## Rules outside code -/

/-- The tag that enters the code. -/
def openTagRule (text : Text) : Option Cut :=
  if "<?".toList.isPrefixOf text then
    let size :=
      if Text.lower (text.take 5) == "<?php".toList then 5
      else if "<?=".toList.isPrefixOf text then 3
      else 2
    some (.single .openTag (text.take size) (text.drop size))
  else none

/-- All text before the next tag. -/
def inlineHtmlRule (text : Text) : Option Cut :=
  if text.isEmpty then none
  else
    let (before, rest) := (Text.cut? "<?".toList text).getD (text, [])
    some (.taken (.single ⟨.inlineHtml, before⟩) .html rest)

/-! ## Rules in code -/

/-- A run of white space. -/
def gapRule (text : Text) : Option Cut :=
  if text.head?.any Text.isGap then
    some (.single .gap (text.takeWhile Text.isGap) (text.dropWhile Text.isGap))
  else none

/-- The tag that leaves the code. -/
def closeTagRule (text : Text) : Option Cut :=
  (Text.after? "?>".toList text).map fun rest =>
    .taken (.single ⟨.closeTag, "?>".toList⟩) .html rest

/-- The start of an attribute. -/
def attributeRule (text : Text) : Option Cut :=
  (Text.after? "#[".toList text).map fun rest => .single .openAttribute "#[".toList rest

/-- A comment that ends with its line. -/
def lineCommentRule (text : Text) : Option Cut :=
  if "#".toList.isPrefixOf text || "//".toList.isPrefixOf text then
    some (.single .comment (Lexeme.lineComment text).1 (Lexeme.lineComment text).2)
  else none

/-- A doc comment. The shortest block comment of all is none. -/
def docCommentRule (text : Text) : Option Cut :=
  match Text.after? "/**".toList text with
  | none => none
  | some inner =>
    if "/".toList.isPrefixOf inner then none
    else match Text.cut? "*/".toList inner with
      | none => some (.refused .openDocComment)
      | some (body, rest) =>
        some (.taken (.docComment (Lexeme.docBody true body)) .code (rest.drop 2))

/-- A block comment. -/
def blockCommentRule (text : Text) : Option Cut :=
  (Text.after? "/*".toList text).map fun inner =>
    match Text.cut? "*/".toList inner with
    | none => .refused .openComment
    | some (body, rest) => .single .comment ("/*".toList ++ body ++ "*/".toList) (rest.drop 2)

/-- A variable. -/
def variableRule : Text → Option Cut
  | '$' :: rest =>
    if rest.head?.any isWordStart then
      some (.single .variableName ('$' :: rest.takeWhile isWordChar) (rest.dropWhile isWordChar))
    else none
  | _ => none

/-- A quoted string. -/
def quotedRule : Text → Option Cut
  | [] => none
  | quote :: rest =>
    if Lexeme.isQuote quote then
      match Lexeme.quotedFrom? quote rest with
      | none => some (.refused .openString)
      | some (text, rest) => some (.single .quoted (quote :: text) rest)
    else none

/-- A number. -/
def numberRule : Text → Option Cut
  | [] => none
  | c :: rest =>
    if Lexeme.startsNumber (c :: rest) then
      let (number, rest) := Lexeme.numberFrom [c] rest
      some (.single (if Lexeme.isReal number then .real else .integer) number rest)
    else none

/-- A word, after the lexeme `before`. -/
def wordRule (before : Option Lexeme) : Text → Option Cut
  | [] => none
  | c :: rest =>
    if isWordStart c then
      let word := c :: rest.takeWhile isWordChar
      some (.single (Lexeme.wordKind before word) word (rest.dropWhile isWordChar))
    else none

/-- A heredoc. -/
def heredocRule (text : Text) : Option Cut :=
  match Text.after? "<<<".toList text with
  | none => none
  | some inner =>
    (Lexeme.heredocOpening? inner).map fun opening =>
      match Lexeme.heredocFrom? opening.label true opening.rest with
      | none => .refused .openHeredoc
      | some (body, rest) => .single .quoted ("<<<".toList ++ opening.text ++ body) rest

/-- Operators of more than one character, a longer one before every operator that starts it. -/
def operators : List Text :=
  ["<=>", "**=", "...", "<<=", ">>=", "===", "!==", "??=", "?->", "->", "=>", "::", "==", "!=", "<>",
    "<=", ">=", "&&", "||", "++", "--", "+=", "-=", "*=", "/=", ".=", "%=", "&=", "|=", "^=", "<<",
    ">>", "??", "**"].map (·.toList)

/-- The kind of an operator. -/
def operatorKind (operator : Text) : Kind :=
  match operator with
  | ['{'] => .openBrace
  | ['}'] => .closeBrace
  | ['('] => .openParen
  | [')'] => .closeParen
  | ['['] => .openSquare
  | [']'] => .closeSquare
  | [';'] => .semicolon
  | [','] => .comma
  | ['='] => .equal
  | ['&'] => .ampersand
  | ['?'] => .question
  | [':'] => .colon
  | ['.', '.', '.'] => .ellipsis
  | _ => .operator

/-- An operator of more than one character. -/
def operatorRule (text : Text) : Option Cut :=
  (operators.find? (·.isPrefixOf text)).map fun operator =>
    .single (operatorKind operator) operator (text.drop operator.length)

/-- Any one character. -/
def characterRule : Text → Option Cut
  | [] => none
  | c :: rest => some (.single (operatorKind [c]) [c] rest)

/-- The rules for one mode, in order, after the lexeme `before`. -/
def rules (before : Option Lexeme) : Mode → List (Text → Option Cut)
  | .html => [openTagRule, inlineHtmlRule]
  | .code =>
    [gapRule, closeTagRule, attributeRule, lineCommentRule, docCommentRule, blockCommentRule,
      variableRule, quotedRule, numberRule, wordRule before, heredocRule, operatorRule,
      characterRule]

/-- What the first rule that applies finds; nothing only at the end of the text. -/
def nextCut (mode : Mode) (before : Option Lexeme) (text : Text) : Option Cut :=
  (rules before mode).findSome? (· text)

/-! ## No rule loses a character -/

theorem openTagRule_lossless {text : Text} {cut : Cut} (h : openTagRule text = some cut) :
    cut.Lossless text := by
  unfold openTagRule at h
  split at h
  · next hp =>
    have hne : text ≠ [] := by rintro rfl; simp at hp
    obtain rfl := Option.some.inj h
    refine ⟨by simp, ?_⟩
    simp only [Piece.text_single, ne_eq, List.take_eq_nil_iff, hne, or_false]
    split
    · decide
    · split <;> decide
  · simp at h

theorem inlineHtmlRule_lossless {text : Text} {cut : Cut} (hc : openTagRule text = none)
    (h : inlineHtmlRule text = some cut) : cut.Lossless text := by
  unfold inlineHtmlRule at h
  split at h
  · simp at h
  · next hne =>
    obtain rfl := Option.some.inj h
    simp only [List.isEmpty_iff] at hne
    cases hcut : Text.cut? "<?".toList text with
    | none => exact ⟨by simp, by simpa using hne⟩
    | some found =>
      obtain ⟨before, after⟩ := found
      obtain ⟨happ, hpre⟩ := Text.cut?_eq_some hcut
      refine ⟨by simpa using happ, ?_⟩
      simp only [Piece.text_single]
      rintro rfl
      obtain rfl : after = text := by simpa using happ
      rw [openTagRule, if_pos (List.isPrefixOf_iff_prefix.2 hpre)] at hc
      simp at hc

theorem takeWhile_ne_nil {p : Char → Bool} {text : Text} (h : text.head?.any p = true) :
    text.takeWhile p ≠ [] := by
  cases text with
  | nil => simp at h
  | cons c rest =>
    have hc : p c = true := by simpa using h
    simp [hc]

theorem gapRule_lossless {text : Text} {cut : Cut} (h : gapRule text = some cut) :
    cut.Lossless text := by
  unfold gapRule at h
  split at h
  · next hg =>
    obtain rfl := Option.some.inj h
    exact ⟨by simp, by simpa using takeWhile_ne_nil hg⟩
  · simp at h

theorem closeTagRule_lossless {text : Text} {cut : Cut} (h : closeTagRule text = some cut) :
    cut.Lossless text := by
  obtain ⟨rest, hr, rfl⟩ := Option.map_eq_some_iff.1 h
  exact ⟨by simpa using Text.after?_eq_some.1 hr, by simp⟩

theorem attributeRule_lossless {text : Text} {cut : Cut} (h : attributeRule text = some cut) :
    cut.Lossless text := by
  obtain ⟨rest, hr, rfl⟩ := Option.map_eq_some_iff.1 h
  exact ⟨by simpa using Text.after?_eq_some.1 hr, by simp⟩

theorem lineCommentRule_lossless {text : Text} {cut : Cut} (h : lineCommentRule text = some cut) :
    cut.Lossless text := by
  unfold lineCommentRule at h
  split at h
  · next hp =>
    obtain rfl := Option.some.inj h
    refine ⟨by simpa using Lexeme.lineComment_append text, ?_⟩
    cases text with
    | nil => simp at hp
    | cons c rest =>
      have hc : '#' = c ∨ '/' = c ∧ ['/'] <+: rest := by simpa using hp
      simp only [Piece.text_single, Lexeme.lineComment]
      rcases hc with rfl | ⟨rfl, _⟩ <;> simp [Text.isNewline]
  · simp at h

theorem docCommentRule_lossless {text : Text} {cut : Cut} (h : docCommentRule text = some cut) :
    cut.Lossless text := by
  unfold docCommentRule at h
  split at h
  · simp at h
  · next inner hi =>
    split at h
    · simp at h
    · split at h
      · obtain rfl := Option.some.inj h
        trivial
      · next body rest hcut =>
        obtain rfl := Option.some.inj h
        obtain ⟨happ, hpre⟩ := Text.cut?_eq_some hcut
        refine ⟨?_, by simp [Piece.text_docComment]⟩
        have hrest : "*/".toList ++ rest.drop 2 = rest := List.prefix_iff_eq_append.1 hpre
        rw [Piece.text_docComment, Lexeme.docBody_text, List.append_assoc, List.append_assoc, hrest,
          happ]
        exact Text.after?_eq_some.1 hi

theorem blockCommentRule_lossless {text : Text} {cut : Cut} (h : blockCommentRule text = some cut) :
    cut.Lossless text := by
  obtain ⟨inner, hi, rfl⟩ := Option.map_eq_some_iff.1 h
  cases hcut : Text.cut? "*/".toList inner with
  | none => trivial
  | some found =>
    obtain ⟨body, rest⟩ := found
    obtain ⟨happ, hpre⟩ := Text.cut?_eq_some hcut
    have hrest : "*/".toList ++ rest.drop 2 = rest := List.prefix_iff_eq_append.1 hpre
    refine ⟨?_, by simp⟩
    rw [Piece.text_single, List.append_assoc, List.append_assoc, hrest, happ]
    exact Text.after?_eq_some.1 hi

theorem variableRule_lossless {text : Text} {cut : Cut} (h : variableRule text = some cut) :
    cut.Lossless text := by
  unfold variableRule at h
  split at h
  · split at h
    · obtain rfl := Option.some.inj h
      exact ⟨by simp, by simp⟩
    · simp at h
  · simp at h

theorem quotedRule_lossless {text : Text} {cut : Cut} (h : quotedRule text = some cut) :
    cut.Lossless text := by
  unfold quotedRule at h
  split at h
  · simp at h
  · split at h
    · split at h
      · obtain rfl := Option.some.inj h
        trivial
      · next hq =>
        obtain rfl := Option.some.inj h
        exact ⟨by simp [Lexeme.quotedFrom?_append hq], by simp⟩
    · simp at h

theorem numberRule_lossless {text : Text} {cut : Cut} (h : numberRule text = some cut) :
    cut.Lossless text := by
  unfold numberRule at h
  split at h
  · simp at h
  · next c rest =>
    split at h
    · obtain rfl := Option.some.inj h
      refine ⟨by simpa using Lexeme.numberFrom_append [c] rest, ?_⟩
      have := Lexeme.numberFrom_length [c] rest
      simp only [Piece.text_single, ne_eq, ← List.length_eq_zero_iff]
      simp only [List.length_singleton] at this
      omega
    · simp at h

theorem wordRule_lossless {before : Option Lexeme} {text : Text} {cut : Cut}
    (h : wordRule before text = some cut) : cut.Lossless text := by
  unfold wordRule at h
  split at h
  · simp at h
  · split at h
    · obtain rfl := Option.some.inj h
      exact ⟨by simp, by simp⟩
    · simp at h

theorem heredocRule_lossless {text : Text} {cut : Cut} (h : heredocRule text = some cut) :
    cut.Lossless text := by
  unfold heredocRule at h
  split at h
  · simp at h
  · next inner hi =>
    obtain ⟨opening, ho, rfl⟩ := Option.map_eq_some_iff.1 h
    cases hf : Lexeme.heredocFrom? opening.label true opening.rest with
    | none => trivial
    | some found =>
      obtain ⟨body, rest⟩ := found
      refine ⟨?_, by simp⟩
      rw [Piece.text_single, List.append_assoc, List.append_assoc, Lexeme.heredocFrom?_append hf,
        Lexeme.heredocOpening?_append ho]
      exact Text.after?_eq_some.1 hi

theorem operators_ne_nil : ∀ operator ∈ operators, operator ≠ [] := by decide

theorem operatorRule_lossless {text : Text} {cut : Cut} (h : operatorRule text = some cut) :
    cut.Lossless text := by
  obtain ⟨operator, ho, rfl⟩ := Option.map_eq_some_iff.1 h
  have hp := List.find?_some ho
  refine ⟨?_, by simpa using operators_ne_nil operator (List.mem_of_find?_eq_some ho)⟩
  simpa using List.prefix_iff_eq_append.1 (List.isPrefixOf_iff_prefix.1 hp)

theorem characterRule_lossless {text : Text} {cut : Cut} (h : characterRule text = some cut) :
    cut.Lossless text := by
  unfold characterRule at h
  split at h
  · simp at h
  · obtain rfl := Option.some.inj h
    exact ⟨rfl, by simp⟩

/-- Whatever is cut off next, it is a first part of the text and not empty. -/
theorem nextCut_lossless {mode : Mode} {before : Option Lexeme} {text : Text} {cut : Cut}
    (h : nextCut mode before text = some cut) : cut.Lossless text := by
  cases mode with
  | html =>
    simp only [nextCut, rules, List.findSome?_cons, List.findSome?_nil] at h
    split at h
    · next ho => exact openTagRule_lossless (ho.trans h)
    · next ho =>
      split at h
      · next hi => exact inlineHtmlRule_lossless ho (hi.trans h)
      · simp at h
  | code =>
    obtain ⟨rule, hmem, hrule⟩ := List.exists_of_findSome?_eq_some h
    simp only [rules, List.mem_cons, List.not_mem_nil, or_false] at hmem
    rcases hmem with rfl | rfl | rfl | rfl | rfl | rfl | rfl | rfl | rfl | rfl | rfl | rfl | rfl
    · exact gapRule_lossless hrule
    · exact closeTagRule_lossless hrule
    · exact attributeRule_lossless hrule
    · exact lineCommentRule_lossless hrule
    · exact docCommentRule_lossless hrule
    · exact blockCommentRule_lossless hrule
    · exact variableRule_lossless hrule
    · exact quotedRule_lossless hrule
    · exact numberRule_lossless hrule
    · exact wordRule_lossless hrule
    · exact heredocRule_lossless hrule
    · exact operatorRule_lossless hrule
    · exact characterRule_lossless hrule

/-- What is left after a cut is shorter. -/
theorem nextCut_shorter {mode after : Mode} {before : Option Lexeme} {text rest : Text}
    {piece : Piece} (h : nextCut mode before text = some (.taken piece after rest)) :
    rest.length < text.length := by
  obtain ⟨happ, hne⟩ := nextCut_lossless h
  have := congrArg List.length happ
  have := List.length_pos_iff.2 hne
  rw [List.length_append] at *
  omega

end DocLint
