import DocLint.Proofs.FaultPlaces
import DocLint.Proofs.LexicalSoundness

/-!
# The extent of heredocs

In code, a text that starts a heredoc is cut off through the label on the first line that closes it, as one piece,
and is refused if no line does (`nextCut_heredoc`, `nextCut_unclosed`). Any other `<<<` starts an operator. What the
lexer does at a place that it reaches is a part of what it does with the whole source (`Reached.scan_eq`), and the
tokens of a stream are where their pieces are (`exists_token_of_piece`).
-/

namespace DocLint

namespace Lexeme

/-! ## The first line -/

theorem not_quote_of_isLabelStart {c : Char} (h : isLabelStart c = true) : (c == '\x27' || c == '\x22') = false := by
  by_contra hquote
  have hc : c = '\x27' ∨ c = '\x22' := by simpa [or_iff_not_imp_left] using hquote
  rcases hc with rfl | rfl
  · cases h
  · cases h

/-- A text that starts a heredoc is read so. -/
theorem heredocOpening?_of_start {inner label body : Text}
    (h : HeredocStart ("<<<".toList ++ inner) label body) :
    ∃ opening, heredocOpening? inner = some opening ∧ opening.label = label ∧ opening.rest = body := by
  obtain ⟨blanks, quote, newline, htext, hblanks, hquote, hnewline⟩ := h.written
  obtain ⟨c, hhead, hc⟩ := h.start
  have hinner : inner = blanks ++ (quote ++ (label ++ (quote ++ (newline ++ body)))) := by
    simpa using htext
  have hlabelHead : (label ++ (quote ++ (newline ++ body))).head? = some c := by
    rw [List.head?_append, hhead]
    rfl
  -- what follows the blanks is no blank, and what follows the label goes on with no character of a label
  have hblankRun : Text.RunOf Text.isBlank blanks (quote ++ (label ++ (quote ++ (newline ++ body)))) := by
    refine ⟨hblanks, fun d hd => ?_⟩
    rcases hquote with rfl | rfl | rfl
    · rw [List.nil_append, hlabelHead] at hd
      obtain rfl := Option.some.inj hd
      exact isBlank_of_isLabelStart hc
    · obtain rfl := Option.some.inj hd
      rfl
    · obtain rfl := Option.some.inj hd
      rfl
  have hlabelRun : Text.RunOf isLabelChar label (quote ++ (newline ++ body)) := by
    refine ⟨h.chars, fun d hd => ?_⟩
    rcases hquote with rfl | rfl | rfl
    · rcases hnewline with rfl | rfl
      · obtain rfl := Option.some.inj hd
        rfl
      · obtain rfl := Option.some.inj hd
        rfl
    · obtain rfl := Option.some.inj hd
      rfl
    · obtain rfl := Option.some.inj hd
      rfl
  have hlabelQuote : labelQuote (quote ++ (label ++ (quote ++ (newline ++ body)))) =
      (quote, label ++ (quote ++ (newline ++ body))) := by
    rcases hquote with rfl | rfl | rfl
    · cases hrest : label ++ ([] ++ (newline ++ body)) with
      | nil =>
        rw [hrest] at hlabelHead
        cases hlabelHead
      | cons d rest =>
        rw [hrest] at hlabelHead
        obtain rfl := Option.some.inj hlabelHead
        rw [List.nil_append, labelQuote, not_quote_of_isLabelStart hc]
        rfl
    · rfl
    · rfl
  have hlineEnd : lineEnd? (newline ++ body) = some (newline, body) := by
    rcases hnewline with rfl | rfl
    · rfl
    · rfl
  have hstart : label.head?.any isLabelStart = true := by
    rw [hhead]
    exact hc
  have hafter : Text.after? quote (quote ++ (newline ++ body)) = some (newline ++ body) :=
    Text.after?_eq_some.2 rfl
  refine ⟨⟨blanks ++ quote ++ label ++ quote ++ newline, label, body⟩, ?_, rfl, rfl⟩
  simp only [heredocOpening?, hinner, hblankRun.takeWhile_append, hblankRun.dropWhile_append, hlabelQuote,
    hlabelRun.takeWhile_append, hlabelRun.dropWhile_append, hstart, if_true, hafter, hlineEnd, Option.map_some]

/-! ## The closing line -/

/-- What is read as the closing of a heredoc closes it. -/
theorem closesHeredoc_of_heredocClosing? {label text taken back : Text}
    (h : heredocClosing? label text = some (taken, back)) : ClosesHeredoc label text [] back := by
  unfold heredocClosing? at h
  split at h
  · cases h
  · next rest hrest =>
    split at h
    · cases h
    · next hstop =>
      obtain ⟨-, rfl⟩ := Prod.mk.inj (Option.some.inj h)
      refine ⟨⟨text.takeWhile Text.isBlank, ?_, fun c hc => List.mem_takeWhile_imp hc⟩, Or.inl rfl, fun c hc => ?_⟩
      · rw [List.nil_append, Text.after?_eq_some.1 hrest, List.takeWhile_append_dropWhile]
      · rw [hc] at hstop
        simpa using hstop

/-- No line closes the heredoc before the one behind `front`. A line starts at the start of the text only if
`atStart` says so. -/
structure FirstClosing (label : Text) (atStart : Bool) (body front back : Text) : Prop where
  closes : ClosesHeredoc label body front back
  lineStart : front = [] → atStart = true
  first : ∀ front' back', ClosesHeredoc label body front' back' → (front' = [] → atStart = true) →
    front.length ≤ front'.length

/-- A body is read through the label on the first line that closes the heredoc. -/
theorem heredocFrom?_of_first {c : Char} {more label body front back : Text} {atStart : Bool}
    (hlabel : label = c :: more) (hc : Text.isBlank c = false) (h : FirstClosing label atStart body front back) :
    ∃ taken, heredocFrom? label atStart body = some (taken, back) := by
  induction body generalizing atStart front with
  | nil =>
    obtain ⟨blanks, hbody, -⟩ := h.closes.written
    rw [hlabel] at hbody
    simp at hbody
  | cons passed rest ih =>
    rw [heredocFrom?]
    cases front with
    | nil =>
      obtain ⟨blanks, hbody, hblanks⟩ := h.closes.written
      rw [h.lineStart rfl, if_pos rfl, hbody, List.nil_append,
        heredocClosing?_of_closes hlabel hc hblanks h.closes.stop]
      exact ⟨_, rfl⟩
    | cons d front =>
      have hclosing : (if atStart = true then heredocClosing? label (passed :: rest) else none) = none := by
        split
        · next hstart =>
          by_contra hsome
          obtain ⟨⟨taken, later⟩, hfound⟩ := Option.ne_none_iff_exists'.1 hsome
          have hle := h.first [] later (closesHeredoc_of_heredocClosing? hfound) fun _ => hstart
          exact absurd hle (Nat.not_succ_le_zero _)
        · rfl
      obtain ⟨hlater, hnewline⟩ := h.closes.tail
      have hrest : FirstClosing label (passed == '\n') rest front back := by
        refine ⟨hlater, fun hnil => beq_iff_eq.2 (hnewline hnil), fun front' back' hcloses hstart => ?_⟩
        have hle := h.first (passed :: front') back'
          (hcloses.cons fun hnil => beq_iff_eq.1 (hstart hnil)) fun hnil => absurd hnil (List.cons_ne_nil _ _)
        exact Nat.le_of_succ_le_succ hle
      obtain ⟨taken, htaken⟩ := ih hrest
      rw [hclosing, htaken]
      exact ⟨_, rfl⟩

/-- What is read as a body ends with the first line that closes the heredoc. -/
theorem firstClosing_of_heredocFrom? {c : Char} {more label body taken back : Text} {atStart : Bool}
    (hlabel : label = c :: more) (hc : Text.isBlank c = false)
    (h : heredocFrom? label atStart body = some (taken, back)) :
    ∃ front, FirstClosing label atStart body front back := by
  induction body generalizing atStart taken with
  | nil => cases h
  | cons passed rest ih =>
    rw [heredocFrom?] at h
    split at h
    · next found hfound =>
      obtain rfl := Option.some.inj h
      split at hfound
      · next hstart =>
        exact ⟨[], closesHeredoc_of_heredocClosing? hfound, fun _ => hstart, fun _ _ _ _ => Nat.zero_le _⟩
      · cases hfound
    · next hclosing =>
      obtain ⟨⟨later, after⟩, hlater, heq⟩ := Option.map_eq_some_iff.1 h
      obtain ⟨-, rfl⟩ := Prod.mk.inj heq
      obtain ⟨front, hcloses, hstart, hfirst⟩ := ih hlater
      refine ⟨passed :: front, hcloses.cons fun hnil => beq_iff_eq.1 (hstart hnil),
        fun hnil => absurd hnil (List.cons_ne_nil _ _), fun front' back' hcloses' hstart' => ?_⟩
      cases front' with
      | nil =>
        obtain ⟨blanks, hbody, hblanks⟩ := hcloses'.written
        rw [hstart' rfl, if_pos rfl, hbody, List.nil_append,
          heredocClosing?_of_closes hlabel hc hblanks hcloses'.stop] at hclosing
        cases hclosing
      | cons d front' =>
        obtain ⟨hlater', hnewline⟩ := hcloses'.tail
        exact Nat.succ_le_succ (hfirst front' back' hlater' fun hnil => beq_iff_eq.2 (hnewline hnil))

/-- If a line closes the heredoc, there is a first one. -/
theorem exists_firstClosing {c : Char} {more label body front back : Text} (hlabel : label = c :: more)
    (hc : Text.isBlank c = false) (h : ClosesHeredoc label body front back) :
    ∃ front' back', FirstClosing label true body front' back' := by
  cases hfrom : heredocFrom? label true body with
  | none => exact absurd h (not_closesHeredoc hlabel hc hfrom front back fun _ => rfl)
  | some found =>
    obtain ⟨front', hfirst⟩ := firstClosing_of_heredocFrom? hlabel hc hfrom
    exact ⟨front', found.2, hfirst⟩

end Lexeme

/-! ## The next piece -/

section Cut

variable {text label body front back : Text}

theorem operatorRule_angles (inner : Text) :
    operatorRule ("<<<".toList ++ inner) = some (.single .operator "<<".toList ('<' :: inner)) := rfl

/-- At `<<<` in code there is a heredoc or else an operator. -/
theorem nextCut_angles (before : Option Lexeme) (inner : Text) :
    nextCut .code before ("<<<".toList ++ inner) =
      (heredocRule ("<<<".toList ++ inner)).or (operatorRule ("<<<".toList ++ inner)) := by
  have hfirst : ((rules before .code).take 10).findSome? (· ("<<<".toList ++ inner)) = none := rfl
  rw [nextCut, ← List.take_append_drop 10 (rules before .code), List.findSome?_append, hfirst, Option.none_or]
  show [heredocRule, operatorRule, characterRule].findSome? (· ("<<<".toList ++ inner)) = _
  rw [List.findSome?_cons]
  cases heredocRule ("<<<".toList ++ inner) with
  | some cut => rfl
  | none => rw [List.findSome?_cons, operatorRule_angles]; rfl

theorem HeredocStart.exists_inner (h : HeredocStart text label body) : ∃ inner, text = "<<<".toList ++ inner := by
  obtain ⟨blanks, quote, newline, htext, -⟩ := h.written
  exact ⟨blanks ++ quote ++ label ++ quote ++ newline ++ body, by simpa using htext⟩

/-- A heredoc is cut off through the label on the first line that closes it. -/
theorem nextCut_heredoc (before : Option Lexeme) (hs : HeredocStart text label body)
    (hfirst : Lexeme.FirstClosing label true body front back) :
    ∃ heredoc, heredoc ++ back = text ∧ nextCut .code before text = some (.single .quoted heredoc back) := by
  obtain ⟨inner, rfl⟩ := hs.exists_inner
  obtain ⟨c, more, hlabel, hc⟩ := hs.exists_cons
  obtain ⟨opening, hopening, rfl, rfl⟩ := Lexeme.heredocOpening?_of_start hs
  obtain ⟨taken, htaken⟩ := Lexeme.heredocFrom?_of_first hlabel hc hfirst
  have hrule : heredocRule ("<<<".toList ++ inner) =
      some (.single .quoted ("<<<".toList ++ opening.text ++ taken) back) := by
    rw [heredocRule, Text.after?_eq_some.2 rfl]
    simp only [hopening, Option.map_some, htaken]
  refine ⟨_, ?_, by rw [nextCut_angles, hrule, Option.some_or]⟩
  rw [List.append_assoc, Lexeme.heredocFrom?_append htaken, List.append_assoc,
    Lexeme.heredocOpening?_append hopening]

/-- A heredoc that no line closes is refused. -/
theorem nextCut_unclosed (before : Option Lexeme) (hs : HeredocStart text label body)
    (hno : ∀ front back, ¬ ClosesHeredoc label body front back) :
    nextCut .code before text = some (.refused .openHeredoc) := by
  obtain ⟨inner, rfl⟩ := hs.exists_inner
  obtain ⟨c, more, hlabel, hc⟩ := hs.exists_cons
  obtain ⟨opening, hopening, rfl, rfl⟩ := Lexeme.heredocOpening?_of_start hs
  have hnone : Lexeme.heredocFrom? opening.label true opening.rest = none := by
    by_contra hsome
    obtain ⟨⟨taken, back⟩, hfound⟩ := Option.ne_none_iff_exists'.1 hsome
    obtain ⟨front, hfirst⟩ := Lexeme.firstClosing_of_heredocFrom? hlabel hc hfound
    exact hno front back hfirst.closes
  have hrule : heredocRule ("<<<".toList ++ inner) = some (.refused .openHeredoc) := by
    rw [heredocRule, Text.after?_eq_some.2 rfl]
    simp only [hopening, Option.map_some, hnone]
  rw [nextCut_angles, hrule, Option.some_or]

/-- Where no heredoc starts, `<<<` is an operator and what follows. -/
theorem nextCut_operator (before : Option Lexeme) (hpre : "<<<".toList <+: text)
    (hno : ∀ label body, ¬ HeredocStart text label body) :
    nextCut .code before text = operatorRule text ∧
      operatorRule text = some (.single .operator "<<".toList (text.drop 2)) := by
  obtain ⟨inner, rfl⟩ := hpre
  have hrule : heredocRule ("<<<".toList ++ inner) = none := by
    rw [heredocRule, Text.after?_eq_some.2 rfl, Option.map_eq_none_iff]
    by_contra hsome
    obtain ⟨opening, hopening⟩ := Option.ne_none_iff_exists'.1 hsome
    exact hno _ _ (Lexeme.heredocOpening?_start hopening)
  refine ⟨by rw [nextCut_angles, hrule, Option.none_or], operatorRule_angles inner⟩

end Cut

/-! ## Places that the lexer reaches -/

/-- Of a source, the lexer cuts off `pieces`, and goes on with `text` in a mode and after a lexeme. -/
inductive Reached (source : Text) : List Piece → Mode → Option Lexeme → Text → Prop where
  /-- At the start of the source. -/
  | start : Reached source [] .html none source
  /-- Behind the next piece. -/
  | cut {pieces : List Piece} {mode after : Mode} {before : Option Lexeme} {text rest : Text} {piece : Piece}
      (reached : Reached source pieces mode before text)
      (next : nextCut mode before text = some (.taken piece after rest)) :
      Reached source (pieces ++ [piece]) after (piece.lastHeard before) rest

namespace Reached

variable {source text : Text} {pieces : List Piece} {mode : Mode} {before : Option Lexeme}

theorem text_eq (h : Reached source pieces mode before text) : pieces.flatMap (·.text) ++ text = source := by
  induction h with
  | start => rfl
  | cut _ next ih =>
    have hlossless := (nextCut_lossless next).1
    rw [List.flatMap_append, List.flatMap_singleton, List.append_assoc, hlossless, ih]

/-- The scan of the source is what was cut off and the scan of what is left. -/
theorem scan_eq (h : Reached source pieces mode before text) :
    (scan source).pieces = pieces ++ (scanFrom mode before text).pieces ∧
      (scan source).fault = (scanFrom mode before text).fault := by
  induction h with
  | start => exact ⟨rfl, rfl⟩
  | cut _ next ih =>
    rw [scanFrom_of_taken next] at ih
    obtain ⟨hpieces, hfault⟩ := ih
    exact ⟨by rw [hpieces, List.append_assoc]; rfl, hfault⟩

end Reached

/-! ## Pieces in a stream -/

namespace Stream

variable {source : Text} {stream : Stream}

/-- A piece of one lexeme is a token of the stream, behind the text of the pieces before it. -/
theorem exists_token_of_piece (h : ofSource source = .ok stream) {pieces later : List Piece} {lexeme : Lexeme}
    (hp : (scan source).pieces = pieces ++ .single lexeme :: later)
    (hk : lexeme.kind ≠ .function ∧ lexeme.kind ≠ .arrow) :
    ∃ (i : Nat) (token : Token), stream[i]? = some token ∧ token.lexeme = lexeme ∧
      stream.textBefore i = pieces.flatMap (·.text) ∧ stream.textFrom (i + 1) = later.flatMap (·.text) := by
  have hlexemes : (scan source).pieces.flatMap (·.lexemes) =
      pieces.flatMap (·.lexemes) ++ lexeme :: later.flatMap (·.lexemes) := by
    rw [hp, List.flatMap_append, List.flatMap_cons]
    rfl
  have hat : ((layout (scan source).pieces).map Token.lexeme)[(pieces.flatMap (·.lexemes)).length]? =
      some lexeme := by
    rw [layout_lexeme, hlexemes, List.getElem?_append_right (Nat.le_refl _), Nat.sub_self]
    rfl
  rw [List.getElem?_map] at hat
  obtain ⟨before, hbefore, rfl⟩ := Option.map_eq_some_iff.1 hat
  obtain ⟨token, htoken, kept, hkind⟩ := exists_pair_getElem? (ofSource_eq_ok.1 h).2 hbefore
  rw [Array.getElem?_toList] at htoken
  have hsame : token.kind = before.kind := by
    rcases settledKind_cases before.kind _ with heq | ⟨hfunction, -⟩ | ⟨harrow, -⟩
    · exact hkind.trans heq
    · exact absurd hfunction hk.1
    · exact absurd harrow hk.2
  refine ⟨_, token, htoken, by rw [Token.lexeme, Token.lexeme, hsame, kept.content], ?_, ?_⟩
  · rw [textBefore_eq_lexemes h, hlexemes, List.take_left, List.flatMap_assoc]
    rfl
  · rw [textFrom_eq_lexemes h, hlexemes, ← List.drop_drop, List.drop_left, List.drop_one, List.tail_cons,
      List.flatMap_assoc]
    rfl

end Stream

/-! ## Heredocs of a source -/

/-- Behind the text of `pieces`, one lexeme is cut off the source, and is one token of its stream. What follows it is
`rest`. -/
structure CutsOff (source : Text) (pieces : List Piece) (lexeme : Lexeme) (rest : Text) : Prop where
  scanned : pieces ++ [.single lexeme] <+: (scan source).pieces
  token : ∀ stream, Stream.ofSource source = .ok stream → ∃ (i : Nat) (token : Token),
    stream[i]? = some token ∧ token.kind = lexeme.kind ∧ token.content = lexeme.text ∧
      stream.textBefore i = pieces.flatMap (·.text) ∧ stream.textFrom (i + 1) = rest

namespace Reached

variable {source text : Text} {pieces : List Piece} {before : Option Lexeme}

/-- What is cut off next is cut off the source. -/
theorem cutsOff {mode after : Mode} {lexeme : Lexeme} {rest : Text} (h : Reached source pieces mode before text)
    (next : nextCut mode before text = some (.taken (.single lexeme) after rest))
    (hk : lexeme.kind ≠ .function ∧ lexeme.kind ≠ .arrow) : CutsOff source pieces lexeme rest := by
  have hnext := h.cut next
  obtain ⟨hpieces, -⟩ := hnext.scan_eq
  refine ⟨⟨_, hpieces.symm⟩, fun stream hstream => ?_⟩
  rw [List.append_assoc] at hpieces
  obtain ⟨i, token, htoken, hlexeme, hbefore, -⟩ := Stream.exists_token_of_piece hstream hpieces hk
  refine ⟨i, token, htoken, congrArg Lexeme.kind hlexeme, congrArg Lexeme.text hlexeme, hbefore, ?_⟩
  -- the source before, the token and the rest are the source
  have hsource := Stream.textBefore_append_textFrom hstream i
  have hcontent : token.content = lexeme.text := congrArg Lexeme.text hlexeme
  rw [Stream.textFrom_eq htoken, hbefore, hcontent, ← hnext.text_eq, List.flatMap_append, List.append_assoc] at hsource
  have hrest := List.append_cancel_left hsource
  rw [List.flatMap_singleton, Piece.text_single] at hrest
  exact List.append_cancel_left hrest

/-- A heredoc that starts at a place the lexer reaches is an error there if no line closes it. -/
theorem ofSource_error_iff {label body : Text} (h : Reached source pieces .code before text)
    (hs : HeredocStart text label body) :
    Stream.ofSource source = .error ⟨.openHeredoc, (Pos.start.advance (pieces.flatMap (·.text))).line,
        (Pos.start.advance (pieces.flatMap (·.text))).column⟩ ↔
      ∀ front back, ¬ ClosesHeredoc label body front back := by
  constructor
  · intro herror front back hcloses
    obtain ⟨c, more, hlabel, hc⟩ := hs.exists_cons
    obtain ⟨front', back', hfirst⟩ := Lexeme.exists_firstClosing hlabel hc hcloses
    obtain ⟨heredoc, -, hnext⟩ := nextCut_heredoc before hs hfirst
    have hpieces := (h.cut hnext).scan_eq.1
    rcases Stream.ofSource_eq_error herror with ⟨fault, -, heq⟩ | ⟨-, hpair⟩
    · -- the fault would be behind the heredoc
      have hne : (Piece.single ⟨.quoted, heredoc⟩).text ≠ [] := (nextCut_lossless hnext).2
      obtain ⟨-, hline, hcolumn⟩ := LexError.mk.inj heq
      rw [Scan.text, hpieces, List.append_assoc, List.flatMap_append] at hline hcolumn
      refine Pos.advance_start_ne ?_ (Int.ofNat_inj.1 hline) (Int.ofNat_inj.1 hcolumn)
      rw [List.flatMap_append, List.flatMap_singleton]
      exact List.append_ne_nil_of_left_ne_nil hne _
    · rcases matchFault_of_matchBrackets (pair_eq_error.1 hpair) with ⟨i, token, -, heq⟩ | ⟨i, token, -, heq⟩
      · cases congrArg LexError.fault heq
      · cases congrArg LexError.fault heq
  · intro hno
    obtain ⟨hpieces, hfault⟩ := h.scan_eq
    rw [scanFrom_of_refused (nextCut_unclosed before hs hno)] at hpieces hfault
    rw [List.append_nil] at hpieces
    rw [Stream.ofSource]
    simp only [hfault, Scan.text, hpieces]

/-- What the lexer does in code at a place that it reaches, if the text there starts with `<<<`.

* A heredoc, through the label on the first line that closes it, is one lexeme and one token: the text before it and
  the text behind it are those of the other tokens.
* If no line closes a heredoc, and only then, the error is an unterminated heredoc at its start.
* Anything else is left to the rule of operators, which takes the first two characters. -/
theorem heredoc_extent (h : Reached source pieces .code before text) :
    pieces.flatMap (·.text) ++ text = source ∧
    (∀ label body, HeredocStart text label body →
      (∀ front back, ClosesHeredoc label body front back →
        (∀ front' back', ClosesHeredoc label body front' back' → front.length ≤ front'.length) →
        ∃ heredoc, heredoc ++ back = text ∧ CutsOff source pieces ⟨.quoted, heredoc⟩ back) ∧
      (Stream.ofSource source = .error ⟨.openHeredoc, (Pos.start.advance (pieces.flatMap (·.text))).line,
          (Pos.start.advance (pieces.flatMap (·.text))).column⟩ ↔
        ∀ front back, ¬ ClosesHeredoc label body front back)) ∧
    ("<<<".toList <+: text → (∀ label body, ¬ HeredocStart text label body) →
      nextCut .code before text = operatorRule text ∧
        CutsOff source pieces ⟨.operator, "<<".toList⟩ (text.drop 2)) ∧
    LexFault.openHeredoc.message = "unterminated heredoc".toList := by
  refine ⟨h.text_eq, fun label body hs => ⟨fun front back hcloses hfirst => ?_, h.ofSource_error_iff hs⟩,
    fun hpre hno => ?_, rfl⟩
  · have hclosing : Lexeme.FirstClosing label true body front back :=
      ⟨hcloses, fun _ => rfl, fun front' back' hcloses' _ => hfirst front' back' hcloses'⟩
    obtain ⟨heredoc, htext, hnext⟩ := nextCut_heredoc before hs hclosing
    exact ⟨heredoc, htext, h.cutsOff hnext ⟨by simp, by simp⟩⟩
  · obtain ⟨hnext, hoperator⟩ := nextCut_operator before hpre hno
    exact ⟨hnext, h.cutsOff (hnext.trans hoperator) ⟨by decide, by decide⟩⟩

/-- A heredoc with a quoted label. Its body holds a bracket, a comment and a quote, and a line that starts with the
label but goes on. -/
def quotedLabel : Text := "<?= <<<'X'\n\x7d /** @b */ 'c\n XY\n\tX;".toList

theorem heredoc_extent_quotedLabel :
    ∃ stream, Stream.ofSource quotedLabel = .ok stream ∧ ∃ (i : Nat) (token : Token),
      stream[i]? = some token ∧ token.kind = .quoted ∧
        token.content = "<<<'X'\n\x7d /** @b */ 'c\n XY\n\tX".toList ∧
        stream.textBefore i = "<?= ".toList ∧ stream.textFrom (i + 1) = ";".toList := by
  obtain ⟨stream, hstream⟩ := exists_eq_ok (by decide +kernel : (Stream.ofSource quotedLabel).isOk = true)
  have hreach : Reached quotedLabel [.single ⟨.openTag, "<?=".toList⟩, .single ⟨.gap, " ".toList⟩] .code _
      "<<<'X'\n\x7d /** @b */ 'c\n XY\n\tX;".toList := (Reached.start.cut rfl).cut rfl
  have hopening : Lexeme.heredocOpening? "'X'\n\x7d /** @b */ 'c\n XY\n\tX;".toList =
      some ⟨"'X'\n".toList, "X".toList, "\x7d /** @b */ 'c\n XY\n\tX;".toList⟩ := rfl
  have hs := Lexeme.heredocOpening?_start hopening
  have hfrom : Lexeme.heredocFrom? "X".toList true "\x7d /** @b */ 'c\n XY\n\tX;".toList =
      some ("\x7d /** @b */ 'c\n XY\n\tX".toList, ";".toList) := rfl
  obtain ⟨front, hcloses, -, hfirst⟩ := Lexeme.firstClosing_of_heredocFrom? rfl rfl hfrom
  obtain ⟨-, hheredocs, -⟩ := heredoc_extent hreach
  obtain ⟨heredoc, htext, hcut⟩ := (hheredocs _ _ hs).1 front _ hcloses fun front' back' hcloses' =>
    hfirst front' back' hcloses' fun _ => rfl
  obtain ⟨i, token, htoken, hkind, hcontent, hbefore, hrest⟩ := hcut.token stream hstream
  have hheredoc : heredoc ++ ";".toList = "<<<'X'\n\x7d /** @b */ 'c\n XY\n\tX".toList ++ ";".toList := htext
  exact ⟨stream, hstream, i, token, htoken, hkind, hcontent.trans (List.append_cancel_right hheredoc), hbefore,
    hrest⟩

end Reached

end DocLint
