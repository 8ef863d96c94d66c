import DocLint.Lexeme.Rules
import DocLint.Proofs.LineEnds
import Mathlib.Data.List.Basic
import Mathlib.Data.List.TakeWhile

/-!
# Text in a frame

Two things can be done to a source that lexing should not mind: write the ends of its lines another way, and
let more text follow it. A frame stands for both (`Frame.put`). It fits a text that has no carriage return if
line ends get one, and that ends with a semicolon or a closing brace if more text follows (`Frame.Fits`). None
of the functions that cut text looks past such an end, except those that search for a mark; these are the same
in a frame if they find it.
-/

namespace DocLint

/-- Does the character end a statement? -/
def endsStatement (c : Char) : Bool := c == ';' || c == '}'

theorem endsStatement_iff {c : Char} : endsStatement c = true ↔ c = ';' ∨ c = '}' := by
  simp [endsStatement]

/-- Does a token of this kind end a statement? -/
def Kind.endsStatement (kind : Kind) : Bool := kind == semicolon || kind == closeBrace

/-- How lines end, and what follows. -/
structure Frame where
  lineEnd : LineEnd
  more : Text

namespace Frame

/-- A text put into a frame. -/
def put (frame : Frame) (text : Text) : Text := text.spell frame.lineEnd ++ frame.more

structure Fits (frame : Frame) (text : Text) : Prop where
  ended : frame.more = [] ∨ ∃ c, text.getLast? = some c ∧ endsStatement c = true
  plain : frame.lineEnd = .crlf → '\r' ∉ text

variable {frame : Frame} {c : Char} {text rest : Text}

theorem put_cons (h : c ≠ '\n') : frame.put (c :: rest) = c :: frame.put rest := by
  rw [put, put, Text.spell_cons h, List.cons_append]

theorem put_newline : frame.put ('\n' :: rest) = frame.lineEnd.text ++ frame.put rest := by
  rw [put, put, Text.spell_newline, List.append_assoc]

theorem put_append {front : Text} (h : '\n' ∉ front) : frame.put (front ++ rest) = front ++ frame.put rest := by
  rw [put, put, Text.spell_append, Text.spell_of_not_mem h, List.append_assoc]

theorem put_nil (h : frame.more = []) : frame.put [] = [] := by
  rw [put, h]
  rfl

namespace Fits

theorem more_of_nil (h : frame.Fits []) : frame.more = [] := by
  rcases h.ended with hmore | ⟨c, hc, -⟩
  · exact hmore
  · cases hc

theorem suffix {front : Text} (h : frame.Fits (front ++ rest)) (hr : frame.more = [] ∨ rest ≠ []) :
    frame.Fits rest := by
  refine ⟨?_, fun hcrlf hm => h.plain hcrlf (List.mem_append_right _ hm)⟩
  rcases hr with hmore | hne
  · exact Or.inl hmore
  · rcases h.ended with hmore | ⟨c, hc, hend⟩
    · exact Or.inl hmore
    · refine Or.inr ⟨c, ?_, hend⟩
      rw [List.getLast?_append_of_ne_nil _ hne] at hc
      exact hc

theorem of_cons (h : frame.Fits (c :: rest)) (hr : frame.more = [] ∨ rest ≠ []) : frame.Fits rest :=
  suffix (show frame.Fits ([c] ++ rest) from h) hr

/-- Behind a character that ends no statement the text goes on. -/
theorem tail (h : frame.Fits (c :: rest)) (hc : endsStatement c = false) : frame.Fits rest := by
  refine h.of_cons ?_
  rcases h.ended with hmore | ⟨d, hd, hend⟩
  · exact Or.inl hmore
  · refine Or.inr ?_
    rintro rfl
    obtain rfl : c = d := by simpa using hd
    rw [hc] at hend
    cases hend

theorem exists_mem (h : frame.Fits text) : frame.more = [] ∨ ∃ c ∈ text, endsStatement c = true := by
  rcases h.ended with hmore | ⟨c, hc, hend⟩
  · exact Or.inl hmore
  · exact Or.inr ⟨c, List.mem_of_getLast? hc, hend⟩

end Fits

/-! ## Runs and marks -/

/-- A class of characters that has both parts of a line end or none, and no end of a statement. -/
def Blind (p : Char → Bool) : Prop := p '\r' = p '\n' ∧ p ';' = false ∧ p '}' = false

instance (p : Char → Bool) : Decidable (Blind p) := inferInstanceAs (Decidable (_ ∧ _ ∧ _))

theorem Blind.statement {p : Char → Bool} (h : Blind p) (hc : endsStatement c = true) : p c = false := by
  rcases endsStatement_iff.1 hc with rfl | rfl
  · exact h.2.1
  · exact h.2.2

theorem Fits.exists_stop (h : frame.Fits text) {p : Char → Bool} (hp : Blind p) :
    frame.more = [] ∨ ∃ c ∈ text, p c = false := by
  rcases h.exists_mem with hmore | ⟨c, hc, hend⟩
  · exact Or.inl hmore
  · exact Or.inr ⟨c, hc, hp.statement hend⟩

theorem takeWhile_put (h : frame.Fits text) {p : Char → Bool} (hp : Blind p) :
    (frame.put text).takeWhile p = Text.spell frame.lineEnd (text.takeWhile p) :=
  Text.takeWhile_spell_append hp.1 (h.exists_stop hp)

theorem dropWhile_put (h : frame.Fits text) {p : Char → Bool} (hp : Blind p) :
    (frame.put text).dropWhile p = frame.put (text.dropWhile p) :=
  Text.dropWhile_spell_append hp.1 (h.exists_stop hp)

theorem Fits.dropWhile (h : frame.Fits text) {p : Char → Bool} (hp : Blind p) :
    frame.Fits (text.dropWhile p) := by
  have hsplit : text = text.takeWhile p ++ text.dropWhile p := List.takeWhile_append_dropWhile.symm
  rw [hsplit] at h
  refine h.suffix ?_
  rw [← hsplit] at h
  rcases h.exists_stop hp with hmore | ⟨c, hc, hpc⟩
  · exact Or.inl hmore
  · refine Or.inr fun hnil => ?_
    rw [hnil, List.append_nil] at hsplit
    rw [hsplit] at hc
    rw [List.mem_takeWhile_imp hc] at hpc
    cases hpc

/-- A mark without line ends and ends of statements. -/
def Foreign (mark : Text) : Prop := ∀ c ∈ ['\r', '\n', ';', '}'], c ∉ mark

instance (mark : Text) : Decidable (Foreign mark) := inferInstanceAs (Decidable (∀ _ ∈ _, _))

theorem Foreign.ne_return {mark : Text} (h : Foreign mark) : '\r' ∉ mark := h _ (by decide)

theorem Foreign.newline {mark : Text} (h : Foreign mark) : '\n' ∉ mark := h _ (by decide)

theorem Foreign.lineEnd {mark : Text} (h : Foreign mark) {e : LineEnd} : ∀ d ∈ e.text, d ∉ mark := by
  intro d hd
  cases e with
  | lf =>
    obtain rfl : d = '\n' := by simpa [LineEnd.text] using hd
    exact h.newline
  | crlf =>
    obtain rfl | rfl : d = '\r' ∨ d = '\n' := by simpa [LineEnd.text] using hd
    · exact h.ne_return
    · exact h.newline

theorem Foreign.statement {mark : Text} (h : Foreign mark) (hc : endsStatement c = true) : c ∉ mark := by
  rcases endsStatement_iff.1 hc with rfl | rfl
  · exact h _ (by decide)
  · exact h _ (by decide)

theorem Fits.exists_foreign (h : frame.Fits text) {mark : Text} (hm : Foreign mark) :
    frame.more = [] ∨ ∃ c ∈ text, c ∉ mark := by
  rcases h.exists_mem with hmore | ⟨c, hc, hend⟩
  · exact Or.inl hmore
  · exact Or.inr ⟨c, hc, hm.statement hend⟩

theorem isPrefixOf_put (h : frame.Fits text) {mark : Text} (hm : Foreign mark) :
    mark.isPrefixOf (frame.put text) = mark.isPrefixOf text :=
  Text.isPrefixOf_spell_append hm.ne_return hm.newline (h.exists_foreign hm)

theorem after?_put (h : frame.Fits text) {mark : Text} (hm : Foreign mark) :
    Text.after? mark (frame.put text) = (Text.after? mark text).map frame.put :=
  Text.after?_spell_append hm.ne_return hm.newline (h.exists_foreign hm)

theorem Fits.after {mark : Text} (h : frame.Fits (mark ++ rest)) (hm : Foreign mark) :
    frame.Fits rest := by
  refine h.suffix ?_
  rcases h.ended with hmore | ⟨c, hc, hend⟩
  · exact Or.inl hmore
  · refine Or.inr ?_
    rintro rfl
    rw [List.append_nil] at hc
    exact hm.statement hend (List.mem_of_getLast? hc)

/-! ## Searches -/

theorem cut?_append_of_forall {mark front : Text} (hne : mark ≠ []) (h : ∀ d ∈ front, d ∉ mark) :
    Text.cut? mark (front ++ rest) =
      (Text.cut? mark rest).map fun found => (front ++ found.1, found.2) := by
  induction front with
  | nil => simp
  | cons d front ih =>
    obtain ⟨m, marks, rfl⟩ := List.exists_cons_of_ne_nil hne
    have hd : d ≠ m := fun heq => h d List.mem_cons_self (List.mem_cons.2 (Or.inl heq))
    rw [List.cons_append, Text.cut?, Text.isPrefixOf_cons_ne hd, if_neg Bool.false_ne_true,
      ih fun later hm => h later (List.mem_cons_of_mem _ hm), Option.map_map]
    rfl

/-- Looking for a mark. -/
theorem cut?_put {mark : Text} (h : frame.Fits text) (hm : Foreign mark) (hne : mark ≠ [])
    (hfound : frame.more = [] ∨ Text.cut? mark text ≠ none) :
    Text.cut? mark (frame.put text) =
      (Text.cut? mark text).map fun found => (Text.spell frame.lineEnd found.1, frame.put found.2) := by
  induction text with
  | nil =>
    rw [put_nil h.more_of_nil]
    rfl
  | cons c rest ih =>
    by_cases hc : c = '\n'
    · subst hc
      have hpass : Text.cut? mark (['\n'] ++ rest) =
          (Text.cut? mark rest).map fun found => (['\n'] ++ found.1, found.2) :=
        cut?_append_of_forall hne (by simpa using hm.newline)
      rw [List.singleton_append] at hpass
      rw [hpass] at hfound ⊢
      rw [put_newline, cut?_append_of_forall hne hm.lineEnd,
        ih (h.tail (by decide)) (by simpa using hfound), Option.map_map, Option.map_map]
      rfl
    · have hprefix : mark.isPrefixOf (c :: frame.put rest) = mark.isPrefixOf (c :: rest) := by
        rw [← put_cons hc, isPrefixOf_put h hm]
      rw [put_cons hc, Text.cut?, hprefix]
      rw [Text.cut?] at hfound ⊢
      by_cases hp : mark.isPrefixOf (c :: rest) = true
      · rw [if_pos hp, if_pos hp, ← put_cons hc]
        rfl
      · rw [if_neg hp] at hfound ⊢
        rw [if_neg hp]
        have hrest : frame.Fits rest := by
          refine h.of_cons (hfound.imp_right ?_)
          rintro hsome rfl
          exact hsome rfl
        rw [ih hrest (by simpa using hfound), Option.map_map, Option.map_map]
        congr 1
        funext found
        simp [Text.spell_cons hc]

/-- A line comment. -/
theorem lineComment_put (h : frame.Fits text)
    (hended : frame.more = [] ∨ (Lexeme.lineComment text).2 ≠ []) :
    Lexeme.lineComment (frame.put text) =
      (Text.spell frame.lineEnd (Lexeme.lineComment text).1, frame.put (Lexeme.lineComment text).2) := by
  have hmark : Foreign "?>".toList := by decide
  induction text with
  | nil =>
    rw [put_nil h.more_of_nil]
    exact Prod.ext rfl (put_nil h.more_of_nil).symm
  | cons c rest ih =>
    by_cases hc : c = '\n'
    · subst hc
      have hstop : ∀ after, Lexeme.lineComment ('\n' :: after) = ([], '\n' :: after) := fun _ => rfl
      have hreturn : ∀ after, Lexeme.lineComment ('\r' :: after) = ([], '\r' :: after) := fun _ => rfl
      rw [hstop, put_newline]
      cases frame.lineEnd with
      | lf => exact hstop _
      | crlf => exact hreturn _
    · have hprefix : "?>".toList.isPrefixOf (c :: frame.put rest) = "?>".toList.isPrefixOf (c :: rest) := by
        rw [← put_cons hc, isPrefixOf_put h hmark]
      rw [put_cons hc, Lexeme.lineComment, hprefix]
      rw [Lexeme.lineComment] at hended ⊢
      by_cases hstop : (Text.isNewline c || "?>".toList.isPrefixOf (c :: rest)) = true
      · rw [if_pos hstop, if_pos hstop, put_cons hc]
        rfl
      · rw [if_neg hstop] at hended ⊢
        rw [if_neg hstop]
        have hrest : frame.Fits rest := by
          refine h.of_cons (hended.imp_right ?_)
          rintro hne rfl
          exact hne rfl
        rw [ih hrest hended]
        exact Prod.ext (Text.spell_cons hc).symm rfl

/-! ## Quoted strings -/

section Quoted

variable {quote : Char}

theorem isQuote_plain (h : Lexeme.isQuote quote = true) :
    quote ≠ '\\' ∧ quote ≠ '\r' ∧ quote ≠ '\n' ∧ endsStatement quote = false := by
  have hcases : quote = '\x27' ∨ quote = '\x22' ∨ quote = '\x60' := by
    simpa [Lexeme.isQuote, or_assoc] using h
  rcases hcases with rfl | rfl | rfl
  · decide
  · decide
  · decide

theorem quotedFrom?_pass (hb : c ≠ '\\') (hq : c ≠ quote) :
    Lexeme.quotedFrom? quote (c :: rest) =
      (Lexeme.quotedFrom? quote rest).map fun found => (c :: found.1, found.2) := by
  cases rest with
  | nil => simp [Lexeme.quotedFrom?, hq]
  | cons d rest => simp [Lexeme.quotedFrom?, hb, hq]

theorem quotedFrom?_close (hb : quote ≠ '\\') :
    Lexeme.quotedFrom? quote (quote :: rest) = some ([quote], rest) := by
  cases rest with
  | nil => simp [Lexeme.quotedFrom?]
  | cons d rest => simp [Lexeme.quotedFrom?, hb]

theorem quotedFrom?_escape (d : Char) :
    Lexeme.quotedFrom? quote ('\\' :: d :: rest) =
      (Lexeme.quotedFrom? quote rest).map fun found => ('\\' :: d :: found.1, found.2) := by
  simp [Lexeme.quotedFrom?]

/-- A line end is passed, whether it is one character or two. -/
theorem quotedFrom?_lineEnd (hquote : Lexeme.isQuote quote = true) (e : LineEnd) :
    Lexeme.quotedFrom? quote (e.text ++ rest) =
      (Lexeme.quotedFrom? quote rest).map fun found => (e.text ++ found.1, found.2) := by
  obtain ⟨-, hreturn, hnewline, -⟩ := isQuote_plain hquote
  cases e with
  | lf => exact quotedFrom?_pass (by decide) hnewline.symm
  | crlf =>
    rw [LineEnd.text, List.cons_append, List.singleton_append,
      quotedFrom?_pass (by decide) hreturn.symm, quotedFrom?_pass (by decide) hnewline.symm,
      Option.map_map]
    rfl

/-- A backslash takes the carriage return with it; the line feed is passed then. -/
theorem quotedFrom?_escape_lineEnd (hquote : Lexeme.isQuote quote = true) (e : LineEnd) :
    Lexeme.quotedFrom? quote ('\\' :: (e.text ++ rest)) =
      (Lexeme.quotedFrom? quote rest).map fun found => ('\\' :: (e.text ++ found.1), found.2) := by
  obtain ⟨-, -, hnewline, -⟩ := isQuote_plain hquote
  cases e with
  | lf => exact quotedFrom?_escape '\n'
  | crlf =>
    rw [LineEnd.text, List.cons_append, List.singleton_append, quotedFrom?_escape,
      quotedFrom?_pass (by decide) hnewline.symm, Option.map_map]
    rfl

theorem quotedFrom?_put (hquote : Lexeme.isQuote quote = true) (h : frame.Fits text)
    (hfound : frame.more = [] ∨ Lexeme.quotedFrom? quote text ≠ none) :
    Lexeme.quotedFrom? quote (frame.put text) = (Lexeme.quotedFrom? quote text).map fun found =>
      (Text.spell frame.lineEnd found.1, frame.put found.2) := by
  obtain ⟨hback, -, hnewline, -⟩ := isQuote_plain hquote
  have hleft : ∀ after : Text, (frame.more = [] ∨ Lexeme.quotedFrom? quote after ≠ none) →
      frame.more = [] ∨ after ≠ [] := by
    intro after hafter
    refine hafter.imp_right ?_
    rintro hsome rfl
    exact hsome rfl
  -- a backslash takes two characters, so the induction is on the length
  induction hsize : text.length using Nat.strong_induction_on generalizing text with
  | _ size ih =>
    cases text with
    | nil =>
      rw [put_nil h.more_of_nil]
      rfl
    | cons c rest =>
      by_cases hq : c = quote
      · subst hq
        rw [put_cons hnewline, quotedFrom?_close hback, quotedFrom?_close hback]
        simp [Text.spell_cons hnewline]
      · by_cases hb : c = '\\'
        · subst hb
          have hrest : frame.Fits rest := h.tail (by decide)
          rw [put_cons (by decide)]
          cases rest with
          | nil =>
            rw [put_nil hrest.more_of_nil]
            simp [Lexeme.quotedFrom?, hq]
          | cons d rest =>
            rw [quotedFrom?_escape] at hfound ⊢
            have hafter : frame.more = [] ∨ Lexeme.quotedFrom? quote rest ≠ none := by
              simpa using hfound
            have hih := ih rest.length (by simp at hsize; omega) (hrest.of_cons (hleft rest hafter))
              hafter rfl
            by_cases hd : d = '\n'
            · subst hd
              rw [put_newline, quotedFrom?_escape_lineEnd hquote, hih, Option.map_map, Option.map_map]
              rfl
            · rw [put_cons hd, quotedFrom?_escape, hih, Option.map_map, Option.map_map]
              congr 1
              funext found
              simp [Text.spell_cons hd, Text.spell_cons (show '\\' ≠ '\n' by decide)]
        · rw [quotedFrom?_pass hb hq] at hfound ⊢
          have hafter : frame.more = [] ∨ Lexeme.quotedFrom? quote rest ≠ none := by
            simpa using hfound
          have hih := ih rest.length (by simp at hsize; omega) (h.of_cons (hleft rest hafter)) hafter rfl
          by_cases hc : c = '\n'
          · subst hc
            rw [put_newline, quotedFrom?_lineEnd hquote, hih, Option.map_map, Option.map_map]
            rfl
          · rw [put_cons hc, quotedFrom?_pass hb hq, hih, Option.map_map, Option.map_map]
            congr 1
            funext found
            simp [Text.spell_cons hc]

end Quoted

/-! ## Numbers -/

theorem head?_put_any {p : Char → Bool} (hp : p '\r' = p '\n') (h : frame.Fits text) :
    (frame.put text).head?.any p = text.head?.any p := by
  cases text with
  | nil => rw [put_nil h.more_of_nil]
  | cons c rest =>
    by_cases hc : c = '\n'
    · subst hc
      rw [put_newline]
      cases frame.lineEnd with
      | lf => rfl
      | crlf => simpa [LineEnd.text] using hp
    · rw [put_cons hc]
      rfl

theorem continuesNumber_eq_false (done after : Text)
    (hc : c = '\r' ∨ c = '\n' ∨ endsStatement c = true) :
    Lexeme.continuesNumber done c after = false := by
  have hnone : ∀ d ∈ ['\r', '\n', ';', '}'], Text.isAlphanumeric d = false ∧ d ≠ '_' ∧ d ≠ '.' ∧
      d ≠ '+' ∧ d ≠ '-' := by
    decide +kernel
  rw [endsStatement_iff] at hc
  obtain ⟨halpha, h1, h2, h3, h4⟩ := hnone c (by simpa using hc)
  simp [Lexeme.continuesNumber, halpha, h1, h2, h3, h4]

theorem numberFrom_stop (done after : Text) (hc : c = '\r' ∨ c = '\n' ∨ endsStatement c = true) :
    Lexeme.numberFrom done (c :: after) = (done, c :: after) := by
  rw [Lexeme.numberFrom, continuesNumber_eq_false done after hc, if_neg Bool.false_ne_true]

theorem continuesNumber_put (done : Text) (h : frame.Fits rest) :
    Lexeme.continuesNumber done c (frame.put rest) = Lexeme.continuesNumber done c rest := by
  have hdigit : Text.isDigit '\r' = Text.isDigit '\n' := by decide +kernel
  rw [Lexeme.continuesNumber, Lexeme.continuesNumber, head?_put_any hdigit h]

theorem numberFrom_put (done : Text) (h : frame.Fits text) :
    Lexeme.numberFrom done (frame.put text) =
      ((Lexeme.numberFrom done text).1, frame.put (Lexeme.numberFrom done text).2) := by
  induction text generalizing done with
  | nil =>
    rw [put_nil h.more_of_nil]
    exact Prod.ext rfl (put_nil h.more_of_nil).symm
  | cons c rest ih =>
    by_cases hc : c = '\n'
    · subst hc
      rw [numberFrom_stop done rest (Or.inr (Or.inl rfl)), put_newline]
      cases frame.lineEnd with
      | lf => exact numberFrom_stop done _ (Or.inr (Or.inl rfl))
      | crlf => exact numberFrom_stop done _ (Or.inl rfl)
    · rw [put_cons hc]
      cases hend : endsStatement c with
      | true =>
        rw [numberFrom_stop done _ (Or.inr (Or.inr hend)), numberFrom_stop done _ (Or.inr (Or.inr hend)),
          put_cons hc]
      | false =>
        rw [Lexeme.numberFrom, Lexeme.numberFrom, continuesNumber_put done (h.tail hend)]
        split
        · exact ih _ (h.tail hend)
        · rw [put_cons hc]

theorem newline_not_mem_numberFrom {done : Text} (h : '\n' ∉ done) (text : Text) :
    '\n' ∉ (Lexeme.numberFrom done text).1 := by
  induction text generalizing done with
  | nil => exact h
  | cons c rest ih =>
    rw [Lexeme.numberFrom]
    split
    · next hc =>
      refine ih ?_
      rw [List.mem_append, not_or, List.mem_singleton]
      refine ⟨h, ?_⟩
      rintro rfl
      rw [continuesNumber_eq_false done rest (Or.inr (Or.inl rfl))] at hc
      cases hc
    · exact h

theorem startsNumber_put (h : frame.Fits (c :: rest)) :
    Lexeme.startsNumber (c :: frame.put rest) = Lexeme.startsNumber (c :: rest) := by
  have hdigit : Text.isDigit '\r' = Text.isDigit '\n' := by decide +kernel
  cases hend : endsStatement c with
  | true =>
    have hpoint : c ≠ '.' := by
      rintro rfl
      cases hend
    rw [Lexeme.startsNumber, Lexeme.startsNumber, beq_false_of_ne hpoint, Bool.false_and, Bool.false_and]
  | false => rw [Lexeme.startsNumber, Lexeme.startsNumber, head?_put_any hdigit (h.tail hend)]

/-! ## Heredocs -/

section Heredoc

theorem isLabelChar_blind : Blind Lexeme.isLabelChar := by decide

theorem isBlank_blind : Blind Text.isBlank := by decide

theorem newline_not_mem_takeWhile {p : Char → Bool} (hp : p '\n' = false) (text : Text) :
    '\n' ∉ text.takeWhile p := by
  intro hm
  have := List.mem_takeWhile_imp hm
  rw [hp] at this
  cases this

theorem foreign_of_forall {p : Char → Bool} {mark : Text} (hp : Blind p) (hn : p '\n' = false)
    (h : ∀ c ∈ mark, p c = true) : Foreign mark := by
  intro c hc hm
  have hpc := h c hm
  have hnone : p c = false := by
    simp only [List.mem_cons, List.not_mem_nil, or_false] at hc
    rcases hc with rfl | rfl | rfl | rfl
    · rw [hp.1, hn]
    · exact hn
    · exact hp.2.1
    · exact hp.2.2
  rw [hnone] at hpc
  cases hpc

theorem lineEnd?_put (h : frame.Fits text) :
    Lexeme.lineEnd? (frame.put text) = (Lexeme.lineEnd? text).map fun found =>
      (Text.spell frame.lineEnd found.1, frame.put found.2) := by
  cases text with
  | nil =>
    rw [put_nil h.more_of_nil]
    rfl
  | cons c rest =>
    by_cases hc : c = '\n'
    · subst hc
      rw [put_newline]
      cases frame.lineEnd with
      | lf => rfl
      | crlf => rfl
    · rw [put_cons hc]
      by_cases hreturn : c = '\r'
      · subst hreturn
        have hlf : frame.lineEnd = .lf := by
          cases hend : frame.lineEnd with
          | lf => rfl
          | crlf => exact absurd List.mem_cons_self (h.plain hend)
        have hrest : frame.Fits rest := h.tail (by decide)
        cases rest with
        | nil =>
          rw [put_nil hrest.more_of_nil]
          rfl
        | cons d rest =>
          by_cases hd : d = '\n'
          · subst hd
            rw [put_newline, hlf]
            rfl
          · rw [put_cons hd]
            simp [Lexeme.lineEnd?, hd]
      · simp [Lexeme.lineEnd?, hc, hreturn]

theorem labelQuote_put (h : frame.Fits text) :
    Lexeme.labelQuote (frame.put text) =
      ((Lexeme.labelQuote text).1, frame.put (Lexeme.labelQuote text).2) := by
  cases text with
  | nil =>
    rw [put_nil h.more_of_nil]
    exact Prod.ext rfl (put_nil h.more_of_nil).symm
  | cons c rest =>
    by_cases hc : c = '\n'
    · subst hc
      have hnone : ∀ d after, d = '\r' ∨ d = '\n' → Lexeme.labelQuote (d :: after) = ([], d :: after) := by
        rintro d after (rfl | rfl)
        · rfl
        · rfl
      rw [hnone _ rest (Or.inr rfl), put_newline]
      cases frame.lineEnd with
      | lf => exact hnone _ _ (Or.inr rfl)
      | crlf => exact hnone _ _ (Or.inl rfl)
    · rw [put_cons hc, Lexeme.labelQuote, Lexeme.labelQuote]
      split
      · rfl
      · exact Prod.ext rfl (put_cons hc).symm

/-- The quote of a label is a quote, or none at all. -/
theorem labelQuote_cases (text : Text) :
    (Lexeme.labelQuote text).1 ∈ [[], ['\x27'], ['\x22']] := by
  cases text with
  | nil => simp [Lexeme.labelQuote]
  | cons c rest =>
    rw [Lexeme.labelQuote]
    split
    · next hc =>
      have : c = '\x27' ∨ c = '\x22' := by simpa using hc
      rcases this with rfl | rfl
      · simp
      · simp
    · simp

theorem labelQuote_foreign (text : Text) : Foreign (Lexeme.labelQuote text).1 := by
  have hall : ∀ quote ∈ [[], ['\x27'], ['\x22']], Foreign quote := by decide
  exact hall _ (labelQuote_cases text)

theorem heredocOpening?_put (h : frame.Fits text) :
    Lexeme.heredocOpening? (frame.put text) = (Lexeme.heredocOpening? text).map fun opening =>
      { text := Text.spell frame.lineEnd opening.text, label := opening.label
        rest := frame.put opening.rest } := by
  have hblanks := h.dropWhile isBlank_blind
  have hafter : frame.Fits (Lexeme.labelQuote (text.dropWhile Text.isBlank)).2 := by
    refine Fits.after ?_ (labelQuote_foreign (text.dropWhile Text.isBlank))
    rwa [Lexeme.labelQuote_append]
  have hlabel := newline_not_mem_takeWhile (show Lexeme.isLabelChar '\n' = false by decide)
    (Lexeme.labelQuote (text.dropWhile Text.isBlank)).2
  have hquote := labelQuote_foreign (text.dropWhile Text.isBlank)
  simp only [Lexeme.heredocOpening?]
  rw [takeWhile_put h isBlank_blind, dropWhile_put h isBlank_blind, labelQuote_put hblanks]
  dsimp only
  rw [takeWhile_put hafter isLabelChar_blind, dropWhile_put hafter isLabelChar_blind,
    Text.spell_of_not_mem hlabel, after?_put (hafter.dropWhile isLabelChar_blind) hquote]
  split
  · cases hquotes : Text.after? (Lexeme.labelQuote (text.dropWhile Text.isBlank)).1
        ((Lexeme.labelQuote (text.dropWhile Text.isBlank)).2.dropWhile Lexeme.isLabelChar) with
    | none => rfl
    | some afterQuotes =>
      have hfits : frame.Fits afterQuotes := by
        refine Fits.after ?_ hquote
        rw [Text.after?_eq_some.1 hquotes]
        exact hafter.dropWhile isLabelChar_blind
      dsimp only [Option.map_some]
      rw [lineEnd?_put hfits, Option.map_map, Option.map_map]
      congr 1
      funext found
      simp [Text.spell_append, Text.spell_of_not_mem hlabel, Text.spell_of_not_mem hquote.newline]
  · rfl

/-- A label is not empty and made of label characters. -/
structure IsLabel (label : Text) : Prop where
  ne_nil : label ≠ []
  chars : ∀ c ∈ label, Lexeme.isLabelChar c = true

theorem IsLabel.foreign {label : Text} (h : IsLabel label) : Foreign label :=
  foreign_of_forall isLabelChar_blind (by decide) h.chars

theorem isLabel_of_opening {opening : Lexeme.HeredocOpening}
    (h : Lexeme.heredocOpening? text = some opening) : IsLabel opening.label := by
  simp only [Lexeme.heredocOpening?] at h
  split at h
  · next hstart =>
    split at h
    · simp at h
    · obtain ⟨found, -, rfl⟩ := Option.map_eq_some_iff.1 h
      refine ⟨?_, fun c hc => List.mem_takeWhile_imp hc⟩
      intro hnil
      dsimp only at hnil
      rw [hnil] at hstart
      simp at hstart
  · simp at h

variable {label : Text}

theorem heredocClosing?_put (hl : IsLabel label) (h : frame.Fits text) :
    Lexeme.heredocClosing? label (frame.put text) = (Lexeme.heredocClosing? label text).map fun found =>
      (Text.spell frame.lineEnd found.1, frame.put found.2) := by
  have hlabelChar : Lexeme.isLabelChar '\r' = Lexeme.isLabelChar '\n' := by decide
  have hblanks := h.dropWhile isBlank_blind
  rw [Lexeme.heredocClosing?, Lexeme.heredocClosing?, dropWhile_put h isBlank_blind,
    after?_put hblanks hl.foreign]
  cases hafter : Text.after? label (text.dropWhile Text.isBlank) with
  | none => rfl
  | some rest =>
    have hrest : frame.Fits rest := by
      refine Fits.after ?_ hl.foreign
      rwa [Text.after?_eq_some.1 hafter]
    dsimp only [Option.map_some]
    rw [head?_put_any hlabelChar hrest]
    split
    · rfl
    · rw [Option.map_some, takeWhile_put h isBlank_blind, Text.spell_append,
        Text.spell_of_not_mem hl.foreign.newline]

theorem heredocClosing?_eq_none (hl : IsLabel label) (hblank : Text.isBlank c = false)
    (hc : Lexeme.isLabelChar c = false) : Lexeme.heredocClosing? label (c :: rest) = none := by
  obtain ⟨d, more, rfl⟩ := List.exists_cons_of_ne_nil hl.ne_nil
  have hd : c ≠ d := by
    rintro rfl
    rw [hl.chars c List.mem_cons_self] at hc
    cases hc
  rw [Lexeme.heredocClosing?, List.dropWhile_cons_of_neg (by simp [hblank]), Text.after?,
    Text.isPrefixOf_cons_ne hd]
  rfl

/-- Within a line, or where the line does not close the heredoc, one character is passed. -/
theorem heredocFrom?_pass {atStart : Bool}
    (h : atStart = true → Lexeme.heredocClosing? label (c :: rest) = none) :
    Lexeme.heredocFrom? label atStart (c :: rest) =
      (Lexeme.heredocFrom? label (c == '\n') rest).map fun found => (c :: found.1, found.2) := by
  rw [Lexeme.heredocFrom?]
  cases atStart with
  | true => rw [if_pos rfl, h rfl]
  | false => rfl

theorem heredocFrom?_lineEnd (hl : IsLabel label) (atStart : Bool) (e : LineEnd) :
    Lexeme.heredocFrom? label atStart (e.text ++ rest) =
      (Lexeme.heredocFrom? label true rest).map fun found => (e.text ++ found.1, found.2) := by
  have hnone : ∀ d after, d = '\r' ∨ d = '\n' → Lexeme.heredocClosing? label (d :: after) = none := by
    rintro d after (rfl | rfl)
    · exact heredocClosing?_eq_none hl (by decide) (by decide)
    · exact heredocClosing?_eq_none hl (by decide) (by decide)
  cases e with
  | lf => exact heredocFrom?_pass fun _ => hnone _ _ (Or.inr rfl)
  | crlf =>
    rw [LineEnd.text, List.cons_append, List.singleton_append,
      heredocFrom?_pass fun _ => hnone _ _ (Or.inl rfl),
      heredocFrom?_pass fun _ => hnone _ _ (Or.inr rfl), Option.map_map]
    rfl

theorem heredocFrom?_put (hl : IsLabel label) {atStart : Bool} (h : frame.Fits text)
    (hfound : frame.more = [] ∨ Lexeme.heredocFrom? label atStart text ≠ none) :
    Lexeme.heredocFrom? label atStart (frame.put text) =
      (Lexeme.heredocFrom? label atStart text).map fun found =>
        (Text.spell frame.lineEnd found.1, frame.put found.2) := by
  induction text generalizing atStart with
  | nil =>
    rw [put_nil h.more_of_nil]
    rfl
  | cons c rest ih =>
    by_cases hc : c = '\n'
    · subst hc
      have hpass : Lexeme.heredocFrom? label atStart (LineEnd.lf.text ++ rest) = _ :=
        heredocFrom?_lineEnd hl atStart .lf
      rw [LineEnd.text, List.singleton_append] at hpass
      rw [hpass] at hfound ⊢
      rw [put_newline, heredocFrom?_lineEnd hl, ih (h.tail (by decide)) (by simpa using hfound),
        Option.map_map, Option.map_map]
      rfl
    · have hclosing := heredocClosing?_put hl h
      rw [put_cons hc] at hclosing ⊢
      by_cases hcloses : atStart = true ∧ Lexeme.heredocClosing? label (c :: rest) ≠ none
      · obtain ⟨rfl, hsome⟩ := hcloses
        obtain ⟨found, hfound⟩ := Option.ne_none_iff_exists'.1 hsome
        rw [hfound, Option.map_some] at hclosing
        rw [Lexeme.heredocFrom?, Lexeme.heredocFrom?, if_pos rfl, if_pos rfl, hclosing, hfound]
        rfl
      · have hnone : atStart = true → Lexeme.heredocClosing? label (c :: rest) = none := by
          intro hstart
          by_contra hne
          exact hcloses ⟨hstart, hne⟩
        have hnone' : atStart = true →
            Lexeme.heredocClosing? label (c :: frame.put rest) = none := by
          intro hstart
          rw [hclosing, hnone hstart]
          rfl
        rw [heredocFrom?_pass hnone] at hfound ⊢
        have hafter : frame.more = [] ∨ Lexeme.heredocFrom? label (c == '\n') rest ≠ none := by
          simpa using hfound
        have hrest : frame.Fits rest := by
          refine h.of_cons (hafter.imp_right ?_)
          rintro hsome rfl
          exact hsome rfl
        rw [heredocFrom?_pass hnone', ih hrest hafter, Option.map_map, Option.map_map]
        congr 1
        funext found
        simp [Text.spell_cons hc]

end Heredoc

end Frame

/-! ## Doc comments -/

/-- A lexeme with the ends of lines in it written another way. -/
def Lexeme.spell (e : LineEnd) (lexeme : Lexeme) : Lexeme := { lexeme with text := lexeme.text.spell e }

namespace Lexeme

variable {e : LineEnd} {c : Char} {rest text : Text}

theorem docLine_spell (hc : c ≠ '\n') : docLine c (Text.spell e rest) = Text.spell e (docLine c rest) := by
  have hline : (!Text.isNewline '\r') = !Text.isNewline '\n' := by decide
  have hblank : Text.isBlank '\r' = Text.isBlank '\n' := by decide
  rw [docLine, docLine, Text.takeWhile_spell hline, Text.dropEndWhile_spell hblank, Text.spell_cons hc]

/-- One lexeme of a doc comment, the text of which has no carriage return that is not part of a line end. -/
theorem docStep_spell (lineStart : Bool) (hc : c ≠ '\n') (hr : c ≠ '\r') :
    docStep lineStart c (Text.spell e rest) =
      { lexeme := (docStep lineStart c rest).lexeme.spell e
        lineStart := (docStep lineStart c rest).lineStart
        rest := Text.spell e (docStep lineStart c rest).rest } := by
  have hblank : Text.isBlank '\r' = Text.isBlank '\n' := by decide
  have hgap : (!Text.isGap '\r') = !Text.isGap '\n' := by decide
  have hline : Text.isNewline c = false := by simp [Text.isNewline, hc, hr]
  unfold docStep
  rw [hline, if_neg Bool.false_ne_true, if_neg Bool.false_ne_true, Text.takeWhile_spell hblank,
    Text.dropWhile_spell hblank, Text.takeWhile_spell hgap, Text.dropWhile_spell hgap, docLine_spell hc]
  split
  · simp [spell, Text.spell_cons hc]
  · split
    · simp [spell, Text.spell_cons hc]
    · split
      · simp [spell, Text.spell_cons hc]
      · have hdrop : (c :: Text.spell e rest).drop (Text.spell e (docLine c rest)).length =
            Text.spell e ((c :: rest).drop (docLine c rest).length) := by
          obtain ⟨after, hafter⟩ := docLine_isPrefix c rest
          rw [← Text.spell_cons hc, ← hafter, Text.spell_append, List.drop_left, List.drop_left]
        dsimp only
        rw [hdrop]
        rfl

theorem docBody_spell (lineStart : Bool) (h : e = .crlf → '\r' ∉ text) :
    docBody lineStart (Text.spell e text) = (docBody lineStart text).map (·.spell e) := by
  cases e with
  | lf => simp [spell]
  | crlf =>
    fun_induction docBody lineStart text with
    | case1 => simp [docBody]
    | case2 lineStart c rest step ih =>
      have hplain := h rfl
      have hrest : '\r' ∉ step.rest := by
        intro hm
        refine hplain ?_
        rw [← docStep_append lineStart c rest]
        exact List.mem_append_right _ hm
      by_cases hc : c = '\n'
      · subst hc
        rw [Text.spell_newline, LineEnd.text, List.cons_append, docBody]
        exact congrArg (_ :: ·) (ih fun _ => hrest)
      · have hr : c ≠ '\r' := by
          rintro rfl
          exact hplain List.mem_cons_self
        rw [Text.spell_cons hc, docBody, docStep_spell lineStart hc hr]
        exact congrArg (_ :: ·) (ih fun _ => hrest)

end Lexeme

end DocLint
