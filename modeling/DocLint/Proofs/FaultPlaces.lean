import DocLint.Proofs.Heredocs
import DocLint.Proofs.Partners
import DocLint.Proofs.SourceLines
import DocLint.Proofs.Spelling

/-!
# Where faults are

A source has a stream or a fault. The place of a fault is that of a character of the source, and the text from
there on starts with what the fault is about (`Culprit`): a string, a comment or a heredoc that nothing behind it
ends, or a bracket.

A fault of lexing is at the text that the rules refuse. A fault of brackets is at the token of the bracket, and
brackets are written as their kind is.
-/

namespace DocLint

/-- The text starts with what the message is about. -/
inductive Culprit : (text message : Text) → Prop where
  /-- Every further quote of the same sort is escaped. -/
  | openString {text body : Text} {quote : Char} (start : text = quote :: body)
      (isQuote : Lexeme.isQuote quote = true)
      (escaped : ∀ front back, body = front ++ quote :: back → Text.escapesNext front = true) :
      Culprit text "unterminated string literal".toList
  /-- Nothing ends the comment. -/
  | openComment {text : Text} (start : "/*".toList <+: text) (noEnd : ¬ "*/".toList <:+: text.drop 2) :
      Culprit text "unterminated comment".toList
  /-- Nothing ends the doc comment. -/
  | openDocComment {text : Text} (start : "/**".toList <+: text) (noEnd : ¬ "*/".toList <:+: text.drop 2) :
      Culprit text "unterminated doc comment".toList
  /-- No line closes the heredoc. -/
  | openHeredoc {text label body : Text} (start : HeredocStart text label body)
      (noEnd : ∀ front back, ¬ ClosesHeredoc label body front back) :
      Culprit text "unterminated heredoc".toList
  /-- A closing bracket. -/
  | unmatched {text bracket : Text} (isCloser : bracket ∈ [['}'], [')'], [']']]) (start : bracket <+: text) :
      Culprit text ("unmatched '".toList ++ bracket ++ "'".toList)
  /-- An opening bracket. -/
  | unclosed {text bracket : Text} (isOpener : bracket ∈ [['{'], ['('], ['['], ['#', '[']])
      (start : bracket <+: text) :
      Culprit text ("unclosed '".toList ++ bracket ++ "'".toList)

/-- What a message is about does not start with a line feed. -/
theorem Culprit.inked {text message : Text} (h : Culprit text message) : text.Inked := by
  cases h with
  | @openString body quote start isQuote escaped =>
    refine ⟨quote, body, start, ?_⟩
    rintro rfl
    cases isQuote
  | openComment start noEnd => exact Text.inked_of_start (by decide) start
  | openDocComment start noEnd => exact Text.inked_of_start (by decide) start
  | openHeredoc start noEnd =>
    obtain ⟨blanks, quote, newline, rfl, -⟩ := start.written
    simp only [List.append_assoc]
    exact ⟨'<', _, rfl, by decide⟩
  | unmatched isCloser start =>
    simp only [List.mem_cons, List.not_mem_nil, or_false] at isCloser
    rcases isCloser with rfl | rfl | rfl
    · exact Text.inked_of_start (by decide) start
    · exact Text.inked_of_start (by decide) start
    · exact Text.inked_of_start (by decide) start
  | unclosed isOpener start =>
    simp only [List.mem_cons, List.not_mem_nil, or_false] at isOpener
    rcases isOpener with rfl | rfl | rfl | rfl
    · exact Text.inked_of_start (by decide) start
    · exact Text.inked_of_start (by decide) start
    · exact Text.inked_of_start (by decide) start
    · exact Text.inked_of_start (by decide) start

/-! ## Refused text -/

/-- A string that is read to the end of the text has only escaped quotes of its sort. -/
theorem Lexeme.quotedFrom?_eq_none {quote : Char} {text : Text} (hq : quote ≠ '\\')
    (h : quotedFrom? quote text = none) :
    ∀ front back, text = front ++ quote :: back → Text.escapesNext front = true := by
  fun_induction quotedFrom? quote text with
  | case1 =>
    intro front back htext
    simp at htext
  | case2 c hc => cases h
  | case3 c hc =>
    intro front back htext
    cases front with
    | nil =>
      rw [(List.cons.inj htext).1] at hc
      exact absurd BEq.rfl hc
    | cons first front => simp at htext
  | case4 c d rest hc ih =>
    -- a backslash takes the next character with it, so the count starts anew behind the two
    obtain rfl := eq_of_beq hc
    intro front back htext
    cases front with
    | nil => exact absurd (List.cons.inj htext).1.symm hq
    | cons first front =>
      obtain ⟨rfl, hrest⟩ := List.cons.inj htext
      cases front with
      | nil => rfl
      | cons second front => exact ih (Option.map_eq_none_iff.1 h) front back (List.cons.inj hrest).2
  | case5 => cases h
  | case6 c d rest hc hquote ih =>
    intro front back htext
    cases front with
    | nil =>
      rw [(List.cons.inj htext).1] at hquote
      exact absurd BEq.rfl hquote
    | cons first front =>
      obtain ⟨rfl, hrest⟩ := List.cons.inj htext
      have hpass : Text.escapesNext (c :: front) = Text.escapesNext front := by
        simp [Text.escapesNext, hc]
      rw [hpass]
      exact ih (Option.map_eq_none_iff.1 h) front back hrest

section Rules

variable {text : Text} {fault : LexFault}

theorem docCommentRule_refused (h : docCommentRule text = some (.refused fault)) :
    Culprit text fault.message := by
  unfold docCommentRule at h
  split at h
  · cases h
  · next inner hinner =>
    obtain rfl := Text.after?_eq_some.1 hinner
    split at h
    · cases h
    · next hslash =>
      split at h
      · next hcut =>
        obtain rfl : fault = .openDocComment := by simpa [eq_comm] using h
        refine .openDocComment ⟨inner, rfl⟩ fun hend => ?_
        -- the star of the opening would need a slash behind it to end the comment
        rcases List.infix_cons_iff.1 (show "*/".toList <:+: '*' :: inner from hend) with hend | hend
        · have hinner : ['/'] <+: inner := ((List.cons_prefix_cons).1 hend).2
          exact hslash (List.isPrefixOf_iff_prefix.2 hinner)
        · exact Text.not_infix_of_cut?_none hcut (by decide) hend
      · cases h

theorem blockCommentRule_refused (h : blockCommentRule text = some (.refused fault)) :
    Culprit text fault.message := by
  obtain ⟨inner, hinner, hcut⟩ := Option.map_eq_some_iff.1 h
  obtain rfl := Text.after?_eq_some.1 hinner
  split at hcut
  · next hnone =>
    obtain rfl : fault = .openComment := by simpa [eq_comm] using hcut
    exact .openComment ⟨inner, rfl⟩ fun hend => Text.not_infix_of_cut?_none hnone (by decide) hend
  · cases hcut

theorem quotedRule_refused (h : quotedRule text = some (.refused fault)) : Culprit text fault.message := by
  unfold quotedRule at h
  split at h
  · cases h
  · next quote body =>
    split at h
    · next hquote =>
      have hslash : quote ≠ '\\' := by
        rintro rfl
        cases hquote
      split at h
      · next hnone =>
        obtain rfl : fault = .openString := by simpa [eq_comm] using h
        exact .openString rfl hquote (Lexeme.quotedFrom?_eq_none hslash hnone)
      · cases h
    · cases h

theorem heredocRule_refused (h : heredocRule text = some (.refused fault)) : Culprit text fault.message := by
  unfold heredocRule at h
  split at h
  · cases h
  · next inner hinner =>
    obtain rfl := Text.after?_eq_some.1 hinner
    obtain ⟨opening, hopening, hbody⟩ := Option.map_eq_some_iff.1 h
    have hstart := Lexeme.heredocOpening?_start hopening
    obtain ⟨c, more, hlabel, hc⟩ := hstart.exists_cons
    split at hbody
    · next hnone =>
      obtain rfl : fault = .openHeredoc := by simpa [eq_comm] using hbody
      exact .openHeredoc hstart fun front back => Lexeme.not_closesHeredoc hlabel hc hnone front back fun _ => rfl
    · cases hbody

/-- Where a text is refused, it starts with what the fault is about. -/
theorem nextCut_refused {mode : Mode} {before : Option Lexeme}
    (h : nextCut mode before text = some (.refused fault)) : Culprit text fault.message := by
  obtain ⟨rule, hmem, hrule⟩ := List.exists_of_findSome?_eq_some h
  cases mode with
  | html =>
    simp only [rules, List.mem_cons, List.not_mem_nil, or_false] at hmem
    rcases hmem with rfl | rfl
    · simp [openTagRule, Cut.single] at hrule
    · simp [inlineHtmlRule] at hrule
  | code =>
    simp only [rules, List.mem_cons, List.not_mem_nil, or_false] at hmem
    rcases hmem with rfl | rfl | rfl | rfl | rfl | rfl | rfl | rfl | rfl | rfl | rfl | rfl | rfl
    · simp [gapRule, Cut.single] at hrule
    · simp [closeTagRule] at hrule
    · simp [attributeRule, Cut.single] at hrule
    · simp [lineCommentRule, Cut.single] at hrule
    · exact docCommentRule_refused hrule
    · exact blockCommentRule_refused hrule
    · unfold variableRule at hrule
      split at hrule
      · simp [Cut.single] at hrule
      · cases hrule
    · exact quotedRule_refused hrule
    · unfold numberRule at hrule
      split at hrule
      · cases hrule
      · simp [Cut.single] at hrule
    · unfold wordRule at hrule
      split at hrule
      · cases hrule
      · simp [Cut.single] at hrule
    · exact heredocRule_refused hrule
    · simp [operatorRule, Cut.single] at hrule
    · unfold characterRule at hrule
      split at hrule
      · cases hrule
      · simp [Cut.single] at hrule

end Rules

/-- A scan that stops at a fault has cut off a first part of the text, and the rules refuse the rest. -/
theorem scanFrom_fault {mode : Mode} {before : Option Lexeme} {text : Text} {fault : LexFault}
    (h : (scanFrom mode before text).fault = some fault) :
    ∃ rest, (scanFrom mode before text).text ++ rest = text ∧ Culprit rest fault.message := by
  fun_induction scanFrom mode before text with
  | case1 => cases h
  | case2 mode before text found hrefused =>
    obtain rfl := Option.some.inj h
    exact ⟨text, rfl, nextCut_refused hrefused⟩
  | case3 mode before text piece after rest htaken scan ih =>
    obtain ⟨refused, htext, hculprit⟩ := ih h
    refine ⟨refused, ?_, hculprit⟩
    have hlossless : piece.text ++ rest = text := (nextCut_lossless htaken).1
    rw [Scan.text, List.flatMap_cons, List.append_assoc, ← hlossless]
    exact congrArg _ htext

/-! ## Brackets -/

theorem Kind.closer_spelling {kind : Kind} (h : kind.isCloser = true) :
    ∃ bracket, kind.spelling? = some bracket ∧ bracket ∈ [['}'], [')'], [']']] := by
  cases kind with
  | closeBrace => exact ⟨['}'], rfl, by decide⟩
  | closeParen => exact ⟨[')'], rfl, by decide⟩
  | closeSquare => exact ⟨[']'], rfl, by decide⟩
  | _ => cases h

theorem Kind.opener_spelling {kind : Kind} (h : kind.closedBy.isSome = true) :
    ∃ bracket, kind.spelling? = some bracket ∧ bracket ∈ [['{'], ['('], ['['], ['#', '[']] := by
  cases kind with
  | openBrace => exact ⟨['{'], rfl, by decide⟩
  | openParen => exact ⟨['('], rfl, by decide⟩
  | openSquare => exact ⟨['['], rfl, by decide⟩
  | openAttribute => exact ⟨['#', '['], rfl, by decide⟩
  | _ => cases h

/-- A laid out token is cut from the text, starts where its place says, and is written as its kind is. -/
theorem Lexed.exists_split {source : Text} {pieces : List Piece} (run : Lexed .html none source pieces)
    {i : Nat} {token : Token} (hi : (layout pieces)[i]? = some token) :
    ∃ before behind, source = before ++ (token.content ++ behind) ∧
      token.line = (Pos.start.advance before).line ∧ token.column = (Pos.start.advance before).column ∧
      token.lexeme.Spelled := by
  have hsource : (layout pieces).flatMap (·.content) = source := by
    rw [flatMap_content, layout, layoutFrom_lexeme, List.flatMap_assoc]
    exact run.text_eq
  obtain ⟨hlt, hget⟩ := List.getElem?_eq_some_iff.1 hi
  obtain ⟨hline, hcolumn⟩ := (layoutFrom_placed .start 0 pieces).getElem? hi
  refine ⟨((layout pieces).take i).flatMap (·.content), ((layout pieces).drop (i + 1)).flatMap (·.content),
    ?_, hline, hcolumn, ?_⟩
  · rw [← hget, ← List.flatMap_cons, ← List.drop_eq_getElem_cons hlt, ← List.flatMap_append,
      List.take_append_drop, hsource]
  · have hmem : token.lexeme ∈ pieces.flatMap (·.lexemes) := by
      rw [← layoutFrom_lexeme .start 0]
      exact List.mem_map_of_mem (List.mem_of_getElem? hi)
    obtain ⟨piece, hpiece, hlexeme⟩ := List.mem_flatMap.1 hmem
    exact run.spelled piece hpiece _ hlexeme

/-! ## Sources -/

/-- The place of the error is that of the character with the index `p`, and what the error is about starts there. -/
structure LexError.PointsAt (error : LexError) (source : Text) (p : Nat) : Prop where
  inside : p < source.length
  line : error.line = 1 + (source.take p).count '\n'
  column : error.column = 1 + (Text.lastLine (source.take p)).length
  culprit : Culprit (source.drop p) error.fault.message

theorem LexError.pointsAt_length {error : LexError} {before behind : Text}
    (hline : error.line = (Pos.start.advance before).line)
    (hcolumn : error.column = (Pos.start.advance before).column)
    (hculprit : Culprit behind error.fault.message) : error.PointsAt (before ++ behind) before.length := by
  obtain ⟨c, rest, rfl, -⟩ := hculprit.inked
  rw [Pos.advance_start] at hline hcolumn
  constructor
  case inside => simp
  case line => simpa using hline
  case column => simpa using hcolumn
  case culprit => simpa using hculprit

/-- A source has an error if lexing stops at a fault, or else if its tokens cannot be paired. -/
theorem Stream.ofSource_eq_error {source : Text} {error : LexError} (h : ofSource source = .error error) :
    (∃ fault, (scan source).fault = some fault ∧ error = ⟨fault,
      (Pos.start.advance (scan source).text).line, (Pos.start.advance (scan source).text).column⟩) ∨
    (scan source).fault = none ∧ pair (layout (scan source).pieces) = .error error := by
  unfold ofSource at h
  cases hfault : (scan source).fault with
  | some fault =>
    simp only [hfault, Except.error.injEq] at h
    exact Or.inl ⟨fault, rfl, h.symm⟩
  | none =>
    simp only [hfault] at h
    cases hp : pair (layout (scan source).pieces) with
    | error found =>
      obtain rfl : found = error := by simpa [hp, Except.map] using h
      exact Or.inr ⟨rfl, rfl⟩
    | ok tokens => simp [hp, Except.map] at h

/-- Every error of a source points at its culprit. -/
theorem Stream.exists_pointsAt {source : Text} {error : LexError} (h : ofSource source = .error error) :
    ∃ p, error.PointsAt source p := by
  rcases ofSource_eq_error h with ⟨fault, hfault, rfl⟩ | ⟨hfault, hpair⟩
  · obtain ⟨rest, htext, hculprit⟩ := scanFrom_fault hfault
    have hsource : (scan source).text ++ rest = source := htext
    refine ⟨(scan source).text.length, ?_⟩
    generalize (scan source).text = before at hsource ⊢
    rw [← hsource]
    exact LexError.pointsAt_length rfl rfl hculprit
  · have run : Lexed .html none source (scan source).pieces := lexed_scanFrom .html none source hfault
    -- settling leaves the brackets alone, so the token of the fault is one of the layout
    rcases matchFault_of_settle (matchFault_of_matchBrackets (pair_eq_error.1 hpair)) with
      ⟨i, token, hat, rfl⟩ | ⟨i, token, hat, rfl⟩
    · obtain ⟨before, behind, rfl, hline, hcolumn, hspelled⟩ := run.exists_split hat.token_at
      obtain ⟨bracket, hbracket, hcloser⟩ := Kind.closer_spelling hat.isCloser
      have hcontent : token.content = bracket := hspelled bracket hbracket
      refine ⟨before.length, LexError.pointsAt_length hline hcolumn ?_⟩
      exact .unmatched (hcontent ▸ hcloser) (List.prefix_append _ _)
    · obtain ⟨before, behind, rfl, hline, hcolumn, hspelled⟩ := run.exists_split hat.token_at
      obtain ⟨bracket, hbracket, hopener⟩ := Kind.opener_spelling hat.isOpener
      have hcontent : token.content = bracket := hspelled bracket hbracket
      refine ⟨before.length, LexError.pointsAt_length hline hcolumn ?_⟩
      exact .unclosed (hcontent ▸ hopener) (List.prefix_append _ _)

/-- A source has a stream of all its text, or an error that points at its culprit. -/
theorem Stream.ofSource_total (source : Text) :
    (∃ stream, ofSource source = .ok stream ∧ stream.toList.flatMap (·.content) = source) ∨
      ∃ error p, ofSource source = .error error ∧ error.PointsAt source p := by
  cases h : ofSource source with
  | ok stream => exact Or.inl ⟨stream, rfl, flatMap_content_eq h⟩
  | error error =>
    obtain ⟨p, hpoints⟩ := exists_pointsAt h
    exact Or.inr ⟨error, p, rfl, hpoints⟩

end DocLint
