import DocLint.Proofs.SourceLines
import DocLint.Snippet

/-!
# Snippets show the line of a token

A snippet takes its line from a text cut at every character that ends a line in some convention, while
tokens count line feeds. The two agree as long as no other such character stands in the lines up to the
token's, where a carriage return at the end of a line is none (`Text.IsOneLine`). Then the snippet of a
token shows the line on which the token starts, and the first caret stands under the first character of the
token.

Without that they do not agree: a form feed in a string is no line feed, but it shifts the lines that snippets
show behind it.
-/

namespace DocLint

namespace Text

/-- A line without the carriage return at its end, if there is one. -/
def withoutReturn (line : Text) : Text := if line.getLast? = some '\r' then line.dropLast else line

/-- No character breaks the line, but perhaps a carriage return at its end. -/
def IsOneLine (line : Text) : Prop := ∀ c ∈ withoutReturn line, isLineBreak c = false

variable {p : Char → Bool} {c : Char} {text rest line body : Text} {more : List Text}

instance (line : Text) : Decidable (IsOneLine line) := decidableForallMem _ _

theorem withoutReturn_cases (line : Text) :
    line = withoutReturn line ∨ line = withoutReturn line ++ ['\r'] := by
  unfold withoutReturn
  split
  · next hlast =>
    have hne : line ≠ [] := by
      rintro rfl
      cases hlast
    have hreturn : line.getLast hne = '\r' := by
      rw [List.getLast?_eq_some_getLast hne] at hlast
      exact Option.some.inj hlast
    right
    rw [← hreturn, List.dropLast_concat_getLast hne]
  · exact Or.inl rfl

/-- Any other character stays where it is. -/
theorem getElem?_withoutReturn {n : Nat} (h : (line)[n]? = some c) (hc : c ≠ '\r') :
    (withoutReturn line)[n]? = some c := by
  rcases withoutReturn_cases line with heq | heq
  · rw [← heq]
    exact h
  · rw [heq] at h
    by_cases hn : n < (withoutReturn line).length
    · rwa [List.getElem?_append_left hn] at h
    · rw [List.getElem?_append_right (Nat.le_of_not_lt hn)] at h
      have hlast := List.mem_singleton.1 (List.mem_of_getElem? h)
      exact absurd hlast hc

/-! ## Cutting at every break -/

theorem dropEndWhile_concat (hc : p c = true) : dropEndWhile p (text ++ [c]) = dropEndWhile p text := by
  simp [dropEndWhile, hc]

theorem dropEndWhile_eq_self (h : ∀ c ∈ text, p c = false) : dropEndWhile p text = text := by
  unfold dropEndWhile
  cases hreverse : text.reverse with
  | nil => simpa using hreverse
  | cons c front =>
    have hmem : c ∈ text := by
      rw [← List.mem_reverse, hreverse]
      exact List.mem_cons_self
    have hkeep : ¬ p c = true := by simpa using h c hmem
    rw [List.dropWhile_cons, if_neg hkeep, ← hreverse, List.reverse_reverse]

theorem lines_append (hbody : ∀ c ∈ body, isLineBreak c = false) (h : lines rest = line :: more) :
    lines (body ++ rest) = (body ++ line) :: more := by
  induction body with
  | nil => exact h
  | cons c body ih =>
    have hc := hbody c List.mem_cons_self
    have hrest := ih fun d hd => hbody d (List.mem_cons_of_mem _ hd)
    have hreturn : c ≠ '\r' := by
      rintro rfl
      cases hc
    have hno : ¬ isLineBreak c = true := by simpa using hc
    rw [List.cons_append, lines, if_neg hno, hrest]
    · rfl
    · intro _ heq _
      exact hreturn heq

theorem lines_of_forall (hne : body ≠ []) (hbody : ∀ c ∈ body, isLineBreak c = false) :
    lines body = [body] := by
  obtain ⟨front, c, rfl⟩ := List.eq_nil_or_concat body |>.resolve_left hne
  have hc : ¬ isLineBreak c = true := by simpa using hbody c (by simp)
  have hlast : lines [c] = [[c]] := by
    rw [lines, if_neg hc, lines]
    intro _ _ heq
    cases heq
  rw [List.concat_eq_append] at hbody ⊢
  exact lines_append (fun d hd => hbody d (List.mem_append_left _ hd)) hlast

/-- A line and the line feed behind it are one line of the text. -/
theorem IsOneLine.lines_cons (h : IsOneLine line) (rest : Text) :
    lines (line ++ '\n' :: rest) = (line ++ ['\n']) :: lines rest := by
  rcases withoutReturn_cases line with heq | heq
  · have hfeed : lines ('\n' :: rest) = ['\n'] :: lines rest := by
      rw [lines, if_pos (by decide)]
      intro _ hreturn
      cases hreturn
    rw [IsOneLine, ← heq] at h
    exact lines_append h hfeed
  · have hfeed : lines ('\r' :: '\n' :: rest) = ['\r', '\n'] :: lines rest := by rw [lines]
    rw [heq, List.append_assoc, List.append_assoc]
    exact lines_append h hfeed

/-- The last line of a text is a line of the text, unless it is empty. -/
theorem IsOneLine.lines_self (h : IsOneLine line) : lines line = if line = [] then [] else [line] := by
  split
  · next hnil =>
    rw [hnil]
    rfl
  · next hne =>
    rcases withoutReturn_cases line with heq | heq
    · rw [IsOneLine, ← heq] at h
      exact lines_of_forall hne h
    · have hreturn : lines ['\r'] = [['\r']] := rfl
      rw [heq]
      exact lines_append h hreturn

theorem IsOneLine.ne_of_mem (h : IsOneLine line) (hm : c ∈ withoutReturn line) : c ≠ '\n' ∧ c ≠ '\r' := by
  have hc := h c hm
  constructor
  · rintro rfl
    cases hc
  · rintro rfl
    cases hc

theorem IsOneLine.newline_not_mem (h : IsOneLine line) : ∀ c ∈ line, (c == '\n') = false := by
  intro c hm
  rcases withoutReturn_cases line with heq | heq
  · rw [heq] at hm
    simpa using (h.ne_of_mem hm).1
  · rw [heq] at hm
    rcases List.mem_append.1 hm with hm | hm
    · simpa using (h.ne_of_mem hm).1
    · obtain rfl := List.mem_singleton.1 hm
      rfl

/-- A line is shown without the carriage return at its end. -/
theorem IsOneLine.shownLine_eq (h : IsOneLine line) : shownLine line = withoutReturn line := by
  have hbare : dropEndWhile (· == '\r') (withoutReturn line) = withoutReturn line := by
    refine dropEndWhile_eq_self fun c hm => ?_
    simpa using (h.ne_of_mem hm).2
  rw [shownLine, dropEndWhile_eq_self h.newline_not_mem]
  rcases withoutReturn_cases line with heq | heq
  · exact (congrArg _ heq).trans hbare
  · calc dropEndWhile (· == '\r') line
        = dropEndWhile (· == '\r') (withoutReturn line ++ ['\r']) := congrArg _ heq
      _ = withoutReturn line := by rw [dropEndWhile_concat (by decide), hbare]

theorem IsOneLine.shownLine_feed (h : IsOneLine line) : shownLine (line ++ ['\n']) = withoutReturn line := by
  have hfeed : dropEndWhile (· == '\n') (line ++ ['\n']) = dropEndWhile (· == '\n') line :=
    dropEndWhile_concat (by decide)
  rw [shownLine, hfeed]
  exact h.shownLine_eq

/-! ## Shown lines -/

/-- The line with an index as it is shown; empty if there is none. -/
def shownAt (text : Text) (n : Nat) : Text := ((lines text)[n]?.map shownLine).getD []

theorem feedLines_eq_cons (h : feedLines text = line :: more) :
    more = [] ∧ text = line ∨ ∃ rest, text = line ++ '\n' :: rest ∧ feedLines rest = more := by
  induction text generalizing line with
  | nil =>
    obtain ⟨rfl, rfl⟩ := List.cons.inj h
    exact Or.inl ⟨rfl, rfl⟩
  | cons c rest ih =>
    by_cases hc : c = '\n'
    · subst hc
      rw [feedLines_newline] at h
      obtain ⟨rfl, hmore⟩ := List.cons.inj h
      exact Or.inr ⟨rest, rfl, hmore⟩
    · obtain ⟨first, later, hlines⟩ := exists_feedLines rest
      rw [feedLines_cons hc hlines] at h
      obtain ⟨rfl, rfl⟩ := List.cons.inj h
      rcases ih hlines with ⟨hnone, rfl⟩ | ⟨behind, rfl, hbehind⟩
      · exact Or.inl ⟨hnone, rfl⟩
      · exact Or.inr ⟨behind, rfl, hbehind⟩

/-- Where nothing else breaks the lines, a line is shown as line feeds cut it. -/
theorem shownAt_eq {n : Nat} (h : (feedLines text)[n]? = some line)
    (hone : ∀ other ∈ (feedLines text).take (n + 1), IsOneLine other) : shownAt text n = withoutReturn line := by
  induction n generalizing text with
  | zero =>
    obtain ⟨first, more, hlines⟩ := exists_feedLines text
    rw [hlines] at h hone
    obtain rfl : first = line := by simpa using h
    have hfirst := hone first (by simp)
    rcases feedLines_eq_cons hlines with ⟨-, rfl⟩ | ⟨rest, rfl, -⟩
    · rw [shownAt, hfirst.lines_self]
      split
      · next hnil => simp [hnil, withoutReturn]
      · exact hfirst.shownLine_eq
    · rw [shownAt, hfirst.lines_cons]
      exact hfirst.shownLine_feed
  | succ n ih =>
    obtain ⟨first, more, hlines⟩ := exists_feedLines text
    rw [hlines] at h hone
    have hfirst := hone first (by simp)
    rcases feedLines_eq_cons hlines with ⟨hnone, -⟩ | ⟨rest, rfl, hrest⟩
    · rw [hnone] at h
      cases h
    · have hlater : shownAt rest n = withoutReturn line := by
        refine ih (by rw [hrest]; exact h) fun other hm => hone other ?_
        rw [hrest] at hm
        exact List.mem_cons_of_mem _ hm
      rw [shownAt, hfirst.lines_cons]
      exact hlater

end Text

/-! ## Snippets of tokens -/

/-- The snippet at the place of a token. -/
def Token.snippet (token : Token) (label message source filename : Text) : Snippet :=
  { label, message, line := token.line, column := token.column, source, filename }

theorem Snippet.shown_eq {snippet : Snippet} (h : 1 ≤ snippet.line) :
    snippet.shown = Text.shownAt snippet.source (snippet.line - 1).toNat := by
  rw [Snippet.shown, if_neg (by omega), Text.shownAt]
  cases (Text.lines snippet.source)[(snippet.line - 1).toNat]? with
  | none => rfl
  | some line => rfl

namespace Snippet

/-- The first caret stands under the character `c` of the source line. -/
def CaretUnder (snippet : Snippet) (c : Char) : Prop :=
  ∃ shownRow caretRow : Text, ∃ place, snippet.rows[3]? = some shownRow ∧ snippet.rows[4]? = some caretRow ∧
    shownRow[place]? = some c ∧ caretRow[place]? = some '^' ∧ '^' ∉ caretRow.take place

theorem one_le_carets (snippet : Snippet) : 1 ≤ snippet.carets := Int.le_max_left _ _

/-- The first caret stands under the character at the column of the snippet. -/
theorem caretUnder_of_shown {snippet : Snippet} {c : Char}
    (h : snippet.shown[(snippet.column - 1).toNat]? = some c) : snippet.CaretUnder c := by
  obtain ⟨more, hmore⟩ : ∃ more, snippet.carets.toNat = more + 1 :=
    ⟨snippet.carets.toNat - 1, by have := snippet.one_le_carets; omega⟩
  -- the gutter is as wide as the number and the mark in front of the source line
  have hwidth : ∀ number : Text, (Text.fill (number.length + 1) ' ' ++ "| ".toList ++
      Text.fill (snippet.column - 1) ' ').length =
        (number ++ " | ".toList).length + (snippet.column - 1).toNat := by
    intro number
    simp [Text.fill]
    omega
  have hblank : ∀ number : Text, '^' ∉ Text.fill (number.length + 1) ' ' ++ "| ".toList ++
      Text.fill (snippet.column - 1) ' ' := by
    intro number
    simp [Text.fill, List.mem_replicate]
  refine ⟨_, _, (Text.ofInt snippet.line ++ " | ".toList).length + (snippet.column - 1).toNat, rfl, rfl, ?_, ?_, ?_⟩
  · rw [List.getElem?_append_right (Nat.le_add_right _ _), Nat.add_sub_cancel_left]
    exact h
  · rw [← hwidth, List.getElem?_append_right (Nat.le_refl _), Nat.sub_self, Text.fill, hmore]
    rfl
  · rw [← hwidth, List.take_left]
    exact hblank _

end Snippet

namespace Stream

variable {source : Text} {stream : Stream} {i : Nat} {token : Token}

/-- The first character of a token, unless it is a line feed, stands at the column of the token in the line on
which the token starts. -/
theorem getElem?_feedLine_at (h : ofSource source = .ok stream) (hi : stream[i]? = some token) {c : Char}
    (hhead : token.content.head? = some c) (hc : c ≠ '\n') :
    (Text.lastLine (stream.textBefore i) ++
      (stream.textFrom i).takeWhile (· != '\n'))[(token.column - 1).toNat]? = some c := by
  obtain ⟨rest, hcontent⟩ : ∃ rest, token.content = c :: rest := by
    cases hcontent : token.content with
    | nil =>
      rw [hcontent] at hhead
      cases hhead
    | cons first rest =>
      rw [hcontent] at hhead
      exact ⟨rest, congrArg (· :: rest) (Option.some.inj hhead)⟩
  have hkeep : (c != '\n') = true := by simpa using hc
  rw [(feedLine_at h hi).2, List.getElem?_append_right (Nat.le_refl _), Nat.sub_self, textFrom_eq hi, hcontent,
    List.cons_append, List.takeWhile_cons, if_pos hkeep]
  rfl

/-- Where only line feeds break the lines up to the token's, a snippet at the place of a token shows the line on
which the token starts, without a carriage return at its end. The first character of the token stands there at
its column, and under it the first caret. -/
theorem snippet_shows_token_line (h : ofSource source = .ok stream) (hi : stream[i]? = some token)
    (hone : ∀ line ∈ (Text.feedLines source).take token.line.toNat, Text.IsOneLine line)
    (label message filename : Text) :
    ∃ line, (Text.feedLines source)[(token.line - 1).toNat]? = some line ∧
      line = Text.lastLine (stream.textBefore i) ++ (stream.textFrom i).takeWhile (· != '\n') ∧
      (token.snippet label message source filename).rows[3]? =
        some (Text.ofInt token.line ++ " | ".toList ++ Text.withoutReturn line) ∧
      ∀ c, token.content.head? = some c → Text.isNewline c = false →
        (Text.withoutReturn line)[(token.column - 1).toNat]? = some c ∧
        (token.snippet label message source filename).CaretUnder c := by
  obtain ⟨hline, -⟩ := feedLine_at h hi
  have hfirst : 1 ≤ token.line := by
    rw [(place_eq h hi).1]
    omega
  have hnumber : (token.line - 1).toNat + 1 = token.line.toNat := by omega
  have hshown : (token.snippet label message source filename).shown = Text.withoutReturn
      (Text.lastLine (stream.textBefore i) ++ (stream.textFrom i).takeWhile (· != '\n')) :=
    (Snippet.shown_eq hfirst).trans (Text.shownAt_eq hline (hnumber ▸ hone))
  refine ⟨_, hline, rfl, ?_, fun c hhead hc => ?_⟩
  · show some (Text.ofInt token.line ++ " | ".toList ++ (token.snippet label message source filename).shown) = _
    rw [hshown]
  · have hnewline : c ≠ '\r' ∧ c ≠ '\n' := by simpa [Text.isNewline] using hc
    have hat := Text.getElem?_withoutReturn (getElem?_feedLine_at h hi hhead hnewline.2) hnewline.1
    exact ⟨hat, Snippet.caretUnder_of_shown (hshown ▸ hat)⟩

/-- A variable on a line that ends with a carriage return. -/
theorem snippet_shows_token_line_return :
    ∃ stream token, ofSource "<?php\r\n  $x = 'é';\r\n".toList = .ok stream ∧ stream[2]? = some token ∧
      (∀ line ∈ (Text.feedLines "<?php\r\n  $x = 'é';\r\n".toList).take token.line.toNat, Text.IsOneLine line) ∧
      (token.snippet [] [] "<?php\r\n  $x = 'é';\r\n".toList []).rows[3]? = some "2 |   $x = 'é';".toList ∧
      (token.snippet [] [] "<?php\r\n  $x = 'é';\r\n".toList []).CaretUnder '$' := by
  have hrun : (ofSource "<?php\r\n  $x = 'é';\r\n".toList).toOption.any (fun stream =>
      stream[2]?.any fun token => token.line == 2 && token.content == "$x".toList) = true := by
    decide +kernel
  obtain ⟨stream, h, hat⟩ := exists_eq_ok_of_any hrun
  obtain ⟨token, hi, hat⟩ := (Option.any_eq_true _ _).1 hat
  simp only [Bool.and_eq_true, beq_iff_eq] at hat
  obtain ⟨hnumber, hcontent⟩ := hat
  have hone : ∀ line ∈ (Text.feedLines "<?php\r\n  $x = 'é';\r\n".toList).take token.line.toNat,
      Text.IsOneLine line := by
    rw [hnumber]
    decide
  obtain ⟨line, hline, -, hrow, hcaret⟩ := snippet_shows_token_line h hi hone [] [] []
  have hsecond : (Text.feedLines "<?php\r\n  $x = 'é';\r\n".toList)[1]? = some "  $x = 'é';\r".toList := by
    decide
  rw [hnumber] at hline hrow
  obtain rfl := Option.some.inj (hline.symm.trans hsecond)
  exact ⟨stream, token, h, hi, hone, hrow, (hcaret '$' (by rw [hcontent]; rfl) (by decide)).2⟩

/-- A string with a form feed in it, and a function on the line behind it. -/
def formFeedInString : Text := "<?php\n$a = \"x\x0cy\";\nfunction f() \x7b\x7d".toList

/-- The function stands on the third line and is shown under the end of the second, which the form feed cut in
two. -/
theorem snippet_shows_other_line :
    ∃ stream token, ofSource formFeedInString = .ok stream ∧ stream[9]? = some token ∧
      token.content = "function".toList ∧
      (Text.feedLines formFeedInString)[(token.line - 1).toNat]? = some "function f() \x7b\x7d".toList ∧
      (token.snippet [] [] formFeedInString []).rows[3]? = some "3 | y\";".toList := by
  have hrun : (ofSource formFeedInString).toOption.any (fun stream =>
      stream[9]?.any fun token => token.content == "function".toList &&
        (Text.feedLines formFeedInString)[(token.line - 1).toNat]? == some "function f() \x7b\x7d".toList &&
        (token.snippet [] [] formFeedInString []).rows[3]? == some "3 | y\";".toList) = true := by
    decide +kernel
  obtain ⟨stream, h, hat⟩ := exists_eq_ok_of_any hrun
  obtain ⟨token, hi, hat⟩ := (Option.any_eq_true _ _).1 hat
  simp only [Bool.and_eq_true, beq_iff_eq] at hat
  exact ⟨stream, token, h, hi, hat.1.1, hat.1.2, hat.2⟩

end Stream

end DocLint
