import DocLint.Proofs.TokenForms

/-!
# Where heredocs start and end

A heredoc starts with `<<<`, a label that may be quoted, and the end of the line (`HeredocStart`). It is closed
by the label at the start of a later line, with only blanks in front of it and no label character behind it
(`ClosesHeredoc`). If the body is read to the end of the text, no line of it closes the heredoc.
-/

namespace DocLint

/-- The text starts a heredoc with the given label, and `body` is all that follows its first line. -/
structure HeredocStart (text label body : Text) : Prop where
  written : ∃ blanks quote newline : Text,
    text = "<<<".toList ++ blanks ++ quote ++ label ++ quote ++ newline ++ body ∧
      (∀ c ∈ blanks, Text.isBlank c = true) ∧ (quote = [] ∨ quote = ['\x27'] ∨ quote = ['\x22']) ∧
      (newline = ['\n'] ∨ newline = ['\r', '\n'])
  start : ∃ c, label.head? = some c ∧ Lexeme.isLabelStart c = true
  chars : ∀ c ∈ label, Lexeme.isLabelChar c = true

/-- In a body, behind `front`, a line closes the heredoc: blanks and the label, before `back`. -/
structure ClosesHeredoc (label body front back : Text) : Prop where
  written : ∃ blanks : Text, body = front ++ (blanks ++ (label ++ back)) ∧ ∀ c ∈ blanks, Text.isBlank c = true
  lineStart : front = [] ∨ front.getLast? = some '\n'
  stop : ∀ c, back.head? = some c → Lexeme.isLabelChar c = false

namespace Text

variable {p : Char → Bool} {text rest : Text}

theorem takeWhile_eq_nil_of_head (h : ∀ c, text.head? = some c → p c = false) : text.takeWhile p = [] := by
  cases text with
  | nil => rfl
  | cons c rest => rw [List.takeWhile_cons, if_neg (by simpa using h c rfl)]

theorem RunOf.takeWhile_append (h : RunOf p text rest) : (text ++ rest).takeWhile p = text := by
  rw [List.takeWhile_append_of_pos h.all, takeWhile_eq_nil_of_head h.stop, List.append_nil]

theorem RunOf.dropWhile_append (h : RunOf p text rest) : (text ++ rest).dropWhile p = rest := by
  have hsplit := List.takeWhile_append_dropWhile (p := p) (l := text ++ rest)
  rw [h.takeWhile_append] at hsplit
  exact List.append_cancel_left hsplit

end Text

theorem Lexeme.isBlank_of_isLabelStart {c : Char} (h : isLabelStart c = true) : Text.isBlank c = false := by
  by_contra hblank
  have hc : c = ' ' ∨ c = '\t' := by simpa [Text.isBlank, or_iff_not_imp_left] using hblank
  rcases hc with rfl | rfl
  · cases h
  · cases h

theorem HeredocStart.exists_cons {text label body : Text} (h : HeredocStart text label body) :
    ∃ c rest, label = c :: rest ∧ Text.isBlank c = false := by
  obtain ⟨c, hhead, hc⟩ := h.start
  cases label with
  | nil => cases hhead
  | cons first rest =>
    obtain rfl := Option.some.inj hhead
    exact ⟨first, rest, rfl, Lexeme.isBlank_of_isLabelStart hc⟩

/-- Behind one more character, a line closes the heredoc as before. -/
theorem ClosesHeredoc.cons {label body front back : Text} {c : Char} (h : ClosesHeredoc label body front back)
    (hc : front = [] → c = '\n') : ClosesHeredoc label (c :: body) (c :: front) back := by
  obtain ⟨blanks, rfl, hblanks⟩ := h.written
  refine ⟨⟨blanks, rfl, hblanks⟩, Or.inr ?_, h.stop⟩
  cases front with
  | nil => rw [hc rfl]; rfl
  | cons second front =>
    have hlast := h.lineStart.resolve_left (List.cons_ne_nil _ _)
    rwa [List.getLast?_cons_cons]

/-- A line that closes the heredoc later closes it behind the first character, too. -/
theorem ClosesHeredoc.tail {label body front back : Text} {c d : Char}
    (h : ClosesHeredoc label (c :: body) (d :: front) back) :
    ClosesHeredoc label body front back ∧ (front = [] → c = '\n') := by
  obtain ⟨blanks, hbody, hblanks⟩ := h.written
  obtain ⟨rfl, hrest⟩ := List.cons.inj hbody
  have hlast := h.lineStart.resolve_left (List.cons_ne_nil _ _)
  refine ⟨⟨⟨blanks, hrest, hblanks⟩, ?_, h.stop⟩, ?_⟩
  · cases front with
    | nil => exact Or.inl rfl
    | cons second front => exact Or.inr (by simpa [List.getLast?_cons_cons] using hlast)
  · rintro rfl
    simpa using hlast

namespace Lexeme

theorem labelQuote_fst (text : Text) :
    (labelQuote text).1 = [] ∨ (labelQuote text).1 = ['\x27'] ∨ (labelQuote text).1 = ['\x22'] := by
  cases text with
  | nil => exact Or.inl rfl
  | cons c rest =>
    rw [labelQuote]
    split
    · next hquote =>
      have hc : c = '\x27' ∨ c = '\x22' := by simpa using hquote
      rcases hc with rfl | rfl
      · exact Or.inr (Or.inl rfl)
      · exact Or.inr (Or.inr rfl)
    · exact Or.inl rfl

theorem lineEnd?_fst {text newline rest : Text} (h : lineEnd? text = some (newline, rest)) :
    newline = ['\n'] ∨ newline = ['\r', '\n'] := by
  unfold lineEnd? at h
  split at h
  · exact Or.inl (Prod.mk.inj (Option.some.inj h)).1.symm
  · exact Or.inr (Prod.mk.inj (Option.some.inj h)).1.symm
  · cases h

/-- What is read as the first line of a heredoc is one. -/
theorem heredocOpening?_start {inner : Text} {opening : HeredocOpening}
    (h : heredocOpening? inner = some opening) :
    HeredocStart ("<<<".toList ++ inner) opening.label opening.rest := by
  have happend := heredocOpening?_append h
  simp only [heredocOpening?] at h
  split at h
  · next hstart =>
    split at h
    · cases h
    · next afterQuotes hquotes =>
      obtain ⟨⟨newline, rest⟩, hnewline, rfl⟩ := Option.map_eq_some_iff.1 h
      have hhead := (Option.any_eq_true _ _).1 hstart
      refine ⟨⟨inner.takeWhile Text.isBlank, (labelQuote (inner.dropWhile Text.isBlank)).1, newline, ?_,
        fun c hc => List.mem_takeWhile_imp hc, labelQuote_fst _, lineEnd?_fst hnewline⟩, hhead,
        fun c hc => List.mem_takeWhile_imp hc⟩
      simp only [List.append_assoc] at happend ⊢
      exact congrArg _ happend.symm
  · cases h

/-- A label at the start of a line closes a heredoc there. -/
theorem heredocClosing?_of_closes {c : Char} {more label blanks back : Text} (hlabel : label = c :: more)
    (hc : Text.isBlank c = false) (hblanks : ∀ d ∈ blanks, Text.isBlank d = true)
    (hstop : ∀ d, back.head? = some d → isLabelChar d = false) :
    heredocClosing? label (blanks ++ (label ++ back)) = some (blanks ++ label, back) := by
  have hrun : Text.RunOf Text.isBlank blanks (label ++ back) := by
    refine ⟨hblanks, fun d hd => ?_⟩
    rw [hlabel] at hd
    obtain rfl := Option.some.inj hd
    exact hc
  have hafter : Text.after? label (label ++ back) = some back := Text.after?_eq_some.2 rfl
  have hend : ¬ back.head?.any isLabelChar = true := by
    intro hany
    obtain ⟨d, hd, hchar⟩ := (Option.any_eq_true _ _).1 hany
    rw [hstop d hd] at hchar
    cases hchar
  rw [heredocClosing?, hrun.dropWhile_append, hafter, hrun.takeWhile_append]
  exact if_neg hend

/-- A body that is read to its end has no line that closes the heredoc. -/
theorem not_closesHeredoc {c : Char} {more label body : Text} {atStart : Bool} (hlabel : label = c :: more)
    (hc : Text.isBlank c = false) (h : heredocFrom? label atStart body = none) (front back : Text)
    (hfront : front = [] → atStart = true) : ¬ ClosesHeredoc label body front back := by
  induction body generalizing atStart front with
  | nil =>
    intro hcloses
    obtain ⟨blanks, hbody, -⟩ := hcloses.written
    rw [hlabel] at hbody
    simp at hbody
  | cons first rest ih =>
    intro hcloses
    obtain ⟨blanks, hbody, hblanks⟩ := hcloses.written
    rw [heredocFrom?] at h
    split at h
    · cases h
    · next hclosing =>
      cases front with
      | nil =>
        rw [hfront rfl, if_pos rfl, hbody, List.nil_append,
          heredocClosing?_of_closes hlabel hc hblanks hcloses.stop] at hclosing
        cases hclosing
      | cons passed front =>
        -- the line starts right behind the character passed, or behind a later one
        obtain ⟨hlater, hnewline⟩ := hcloses.tail
        refine ih (Option.map_eq_none_iff.1 h) front (fun hnil => ?_) hlater
        rw [hnewline hnil]
        rfl

end Lexeme

end DocLint
