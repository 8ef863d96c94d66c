import DocLint.Lexeme.Scan

/-!
# Runs of the lexer

A source without a fault is cut into pieces by a run: one cut after the other, until no text is left
(`Lexed`). What holds of each cut then holds of each piece of a source by induction on the run. Here
this is shown for the text of the pieces, which is the source, and for the kinds of their lexemes:
the parts of a doc comment stand in doc comments and nowhere else.
-/

namespace DocLint

/-- Lexing cuts `text` into `pieces`, to the end and without a fault. -/
inductive Lexed : Mode → Option Lexeme → Text → List Piece → Prop where
  /-- At the end of the text nothing is left to cut. -/
  | done (mode : Mode) (before : Option Lexeme) : Lexed mode before [] []
  /-- One cut, and a run from where it ends. -/
  | cut {mode after : Mode} {before : Option Lexeme} {text rest : Text} {piece : Piece}
      {pieces : List Piece} (h : nextCut mode before text = some (.taken piece after rest))
      (run : Lexed after (piece.lastHeard before) rest pieces) :
      Lexed mode before text (piece :: pieces)

/-- Some rule applies as long as there is text. -/
theorem nextCut_eq_none {mode : Mode} {before : Option Lexeme} {text : Text}
    (h : nextCut mode before text = none) : text = [] := by
  cases text with
  | nil => rfl
  | cons c rest =>
    rw [nextCut, List.findSome?_eq_none_iff] at h
    cases mode with
    | html => exact absurd (h inlineHtmlRule (by simp [rules])) (by simp [inlineHtmlRule])
    | code => exact absurd (h characterRule (by simp [rules])) (by simp [characterRule])

section Scan

variable {mode after : Mode} {before : Option Lexeme} {text rest : Text}

theorem scanFrom_of_none (h : nextCut mode before text = none) :
    scanFrom mode before text = ⟨[], none⟩ := by
  rw [scanFrom]
  split
  · rfl
  · next hc => simp [h] at hc
  · next hc => simp [h] at hc

theorem scanFrom_of_refused {fault : LexFault} (h : nextCut mode before text = some (.refused fault)) :
    scanFrom mode before text = ⟨[], some fault⟩ := by
  rw [scanFrom]
  split
  · next hc => simp [h] at hc
  · next hc =>
    obtain rfl : fault = _ := by simpa [h] using hc
    rfl
  · next hc => simp [h] at hc

theorem scanFrom_of_taken {piece : Piece} (h : nextCut mode before text = some (.taken piece after rest)) :
    scanFrom mode before text = { scanFrom after (piece.lastHeard before) rest with
      pieces := piece :: (scanFrom after (piece.lastHeard before) rest).pieces } := by
  rw [scanFrom]
  split
  · next hc => simp [h] at hc
  · next hc => simp [h] at hc
  · next hc =>
    obtain ⟨rfl, rfl, rfl⟩ : piece = _ ∧ after = _ ∧ rest = _ := by simpa [h] using hc
    rfl

end Scan

/-- A scan that ends without a fault is a run. -/
theorem lexed_scanFrom (mode : Mode) (before : Option Lexeme) (text : Text)
    (h : (scanFrom mode before text).fault = none) :
    Lexed mode before text (scanFrom mode before text).pieces := by
  fun_induction scanFrom mode before text with
  | case1 mode before text hn =>
    rw [nextCut_eq_none hn]
    exact .done mode before
  | case2 => simp at h
  | case3 mode before text piece after rest hc scan ih => exact .cut hc (ih h)

namespace Lexed

variable {mode : Mode} {before : Option Lexeme} {text : Text} {pieces : List Piece}

/-- A run loses nothing. -/
theorem text_eq (run : Lexed mode before text pieces) : pieces.flatMap (·.text) = text := by
  induction run with
  | done => rfl
  | cut h _ ih =>
    rw [List.flatMap_cons, ih]
    exact (nextCut_lossless h).1

/-- What holds of every cut holds of every piece of a run. -/
theorem forall_pieces {P : Piece → Prop} (run : Lexed mode before text pieces)
    (step : ∀ {mode after : Mode} {before : Option Lexeme} {text rest : Text} {piece : Piece},
      nextCut mode before text = some (.taken piece after rest) → P piece) :
    ∀ piece ∈ pieces, P piece := by
  induction run with
  | done => simp
  | cut h _ ih =>
    intro piece hp
    rcases List.mem_cons.1 hp with rfl | hp
    · exact step h
    · exact ih piece hp

end Lexed

/-! ## Doc comments are groups -/

/-- What may stand between the delimiters of a doc comment. -/
def Kind.isDocInner : Kind → Bool
  | docGap | docStar | docTag | docText => true
  | _ => false

theorem Kind.isDoc_iff {kind : Kind} :
    kind.isDoc = true ↔ kind = .docOpen ∨ kind = .docClose ∨ kind.isDocInner = true := by
  cases kind <;> simp [isDoc, isDocInner]

/-- The parts of a doc comment are together, and only there; none of them is empty. -/
def Piece.Grouped : Piece → Prop
  | single lexeme => lexeme.kind.isDoc = false
  | docComment body => ∀ lexeme ∈ body, lexeme.kind.isDocInner = true ∧ lexeme.text ≠ []

/-- All that a doc comment is cut into are parts of it, its delimiters included. -/
theorem Piece.Grouped.isDoc {body : List Lexeme} (h : (docComment body).Grouped) :
    ∀ lexeme ∈ (docComment body).lexemes, lexeme.kind.isDoc = true := by
  intro lexeme hm
  simp only [lexemes, List.mem_cons, List.mem_append, List.not_mem_nil, or_false] at hm
  rcases hm with rfl | hm | rfl
  · rfl
  · exact Kind.isDoc_iff.2 (Or.inr (Or.inr (h lexeme hm).1))
  · rfl

/-- The piece that a cut takes is grouped. -/
def Cut.Grouped : Cut → Prop
  | taken piece _ _ => piece.Grouped
  | refused _ => True

theorem Lexeme.docStep_isDocInner (lineStart : Bool) (c : Char) (rest : Text) :
    (docStep lineStart c rest).lexeme.kind.isDocInner = true := by
  unfold docStep docNewline
  split
  · split <;> rfl
  · split
    · rfl
    · split
      · rfl
      · split <;> rfl

theorem Lexeme.docBody_grouped (lineStart : Bool) (text : Text) :
    (Piece.docComment (docBody lineStart text)).Grouped := by
  fun_induction docBody lineStart text with
  | case1 => simp [Piece.Grouped]
  | case2 lineStart c rest step ih =>
    intro lexeme hl
    rcases List.mem_cons.1 hl with rfl | hl
    · exact ⟨docStep_isDocInner lineStart c rest, docStep_text_ne_nil lineStart c rest⟩
    · exact ih lexeme hl

theorem operatorKind_isDoc (operator : Text) : (operatorKind operator).isDoc = false := by
  unfold operatorKind
  split <;> rfl

theorem Lexeme.wordKind_isDoc (before : Option Lexeme) (word : Text) :
    (wordKind before word).isDoc = false := by
  have hkeys : ∀ entry ∈ Kind.keywords, entry.2.isDoc = false := by decide
  unfold wordKind
  split
  · rfl
  · next keyword hk =>
    obtain ⟨entry, he, rfl⟩ := Option.map_eq_some_iff.1 hk
    split
    · rfl
    · exact hkeys entry (List.mem_of_find?_eq_some he)

section Rules

variable {text : Text} {cut : Cut}

theorem openTagRule_grouped (h : openTagRule text = some cut) : cut.Grouped := by
  unfold openTagRule at h
  split at h
  · obtain rfl := Option.some.inj h
    rfl
  · simp at h

theorem inlineHtmlRule_grouped (h : inlineHtmlRule text = some cut) : cut.Grouped := by
  unfold inlineHtmlRule at h
  split at h
  · simp at h
  · obtain rfl := Option.some.inj h
    rfl

theorem gapRule_grouped (h : gapRule text = some cut) : cut.Grouped := by
  unfold gapRule at h
  split at h
  · obtain rfl := Option.some.inj h
    rfl
  · simp at h

theorem closeTagRule_grouped (h : closeTagRule text = some cut) : cut.Grouped := by
  obtain ⟨rest, -, rfl⟩ := Option.map_eq_some_iff.1 h
  rfl

theorem attributeRule_grouped (h : attributeRule text = some cut) : cut.Grouped := by
  obtain ⟨rest, -, rfl⟩ := Option.map_eq_some_iff.1 h
  rfl

theorem lineCommentRule_grouped (h : lineCommentRule text = some cut) : cut.Grouped := by
  unfold lineCommentRule at h
  split at h
  · obtain rfl := Option.some.inj h
    rfl
  · simp at h

theorem docCommentRule_grouped (h : docCommentRule text = some cut) : cut.Grouped := by
  unfold docCommentRule at h
  split at h
  · simp at h
  · split at h
    · simp at h
    · split at h
      · obtain rfl := Option.some.inj h
        trivial
      · next body rest _ =>
        obtain rfl := Option.some.inj h
        exact Lexeme.docBody_grouped true body

theorem blockCommentRule_grouped (h : blockCommentRule text = some cut) : cut.Grouped := by
  obtain ⟨inner, -, rfl⟩ := Option.map_eq_some_iff.1 h
  split
  · trivial
  · rfl

theorem variableRule_grouped (h : variableRule text = some cut) : cut.Grouped := by
  unfold variableRule at h
  split at h
  · split at h
    · obtain rfl := Option.some.inj h
      rfl
    · simp at h
  · simp at h

theorem quotedRule_grouped (h : quotedRule text = some cut) : cut.Grouped := by
  unfold quotedRule at h
  split at h
  · simp at h
  · split at h
    · split at h
      · obtain rfl := Option.some.inj h
        trivial
      · obtain rfl := Option.some.inj h
        rfl
    · simp at h

theorem numberRule_grouped (h : numberRule text = some cut) : cut.Grouped := by
  unfold numberRule at h
  split at h
  · simp at h
  · split at h
    · obtain rfl := Option.some.inj h
      show Kind.isDoc (if _ then _ else _) = false
      split <;> rfl
    · simp at h

theorem wordRule_grouped {before : Option Lexeme} (h : wordRule before text = some cut) :
    cut.Grouped := by
  unfold wordRule at h
  split at h
  · simp at h
  · split at h
    · obtain rfl := Option.some.inj h
      exact Lexeme.wordKind_isDoc before _
    · simp at h

theorem heredocRule_grouped (h : heredocRule text = some cut) : cut.Grouped := by
  unfold heredocRule at h
  split at h
  · simp at h
  · obtain ⟨opening, -, rfl⟩ := Option.map_eq_some_iff.1 h
    split
    · trivial
    · rfl

theorem operatorRule_grouped (h : operatorRule text = some cut) : cut.Grouped := by
  obtain ⟨operator, -, rfl⟩ := Option.map_eq_some_iff.1 h
  exact operatorKind_isDoc operator

theorem characterRule_grouped (h : characterRule text = some cut) : cut.Grouped := by
  unfold characterRule at h
  split at h
  · simp at h
  · obtain rfl := Option.some.inj h
    exact operatorKind_isDoc _

end Rules

/-- Whatever is cut off next, the parts of a doc comment in it are together. -/
theorem nextCut_grouped {mode : Mode} {before : Option Lexeme} {text : Text} {cut : Cut}
    (h : nextCut mode before text = some cut) : cut.Grouped := by
  obtain ⟨rule, hmem, hrule⟩ := List.exists_of_findSome?_eq_some h
  cases mode with
  | html =>
    simp only [rules, List.mem_cons, List.not_mem_nil, or_false] at hmem
    rcases hmem with rfl | rfl
    · exact openTagRule_grouped hrule
    · exact inlineHtmlRule_grouped hrule
  | code =>
    simp only [rules, List.mem_cons, List.not_mem_nil, or_false] at hmem
    rcases hmem with rfl | rfl | rfl | rfl | rfl | rfl | rfl | rfl | rfl | rfl | rfl | rfl | rfl
    · exact gapRule_grouped hrule
    · exact closeTagRule_grouped hrule
    · exact attributeRule_grouped hrule
    · exact lineCommentRule_grouped hrule
    · exact docCommentRule_grouped hrule
    · exact blockCommentRule_grouped hrule
    · exact variableRule_grouped hrule
    · exact quotedRule_grouped hrule
    · exact numberRule_grouped hrule
    · exact wordRule_grouped hrule
    · exact heredocRule_grouped hrule
    · exact operatorRule_grouped hrule
    · exact characterRule_grouped hrule

/-- The pieces of a run are grouped. -/
theorem Lexed.grouped {mode : Mode} {before : Option Lexeme} {text : Text} {pieces : List Piece}
    (run : Lexed mode before text pieces) : ∀ piece ∈ pieces, piece.Grouped :=
  run.forall_pieces fun h => nextCut_grouped h

/-- No lexeme of a run is empty. -/
theorem Lexed.lexeme_text_ne_nil {mode : Mode} {before : Option Lexeme} {text : Text}
    {pieces : List Piece} (run : Lexed mode before text pieces) :
    ∀ piece ∈ pieces, ∀ lexeme ∈ piece.lexemes, lexeme.text ≠ [] := by
  refine run.forall_pieces fun {_ _ _ _ _ piece} h => ?_
  cases piece with
  | single lexeme =>
    have hne := (nextCut_lossless h).2
    simpa [Piece.lexemes] using hne
  | docComment body =>
    have hbody : (Piece.docComment body).Grouped := nextCut_grouped h
    intro lexeme hl
    simp only [Piece.lexemes, List.mem_cons, List.mem_append, List.not_mem_nil, or_false] at hl
    rcases hl with rfl | hl | rfl
    · simp [Piece.docOpening]
    · exact (hbody lexeme hl).2
    · simp [Piece.docClosing]

end DocLint
