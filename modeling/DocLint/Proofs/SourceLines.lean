import DocLint.Proofs.LineEnds
import DocLint.Proofs.Positions

/-!
# The lines of a source

Places count line feeds, so the line of a place is what stands around it between two line feeds
(`Text.feedLines`). The line of a token starts with the end of the text before the token and goes on with
the token itself (`Stream.feedLine_at`), and so the column of the token is where it stands in its line.
-/

namespace DocLint

namespace Text

/-- The lines of a text, with a line feed between any two. -/
def feedLines (text : Text) : List Text := splitWhere (· == '\n') text

variable {c : Char} {text rest line : Text} {more : List Text}

theorem feedLines_newline (rest : Text) : feedLines ('\n' :: rest) = [] :: feedLines rest := by
  simp [feedLines, splitWhere]

theorem feedLines_cons (hc : c ≠ '\n') (h : feedLines rest = line :: more) :
    feedLines (c :: rest) = (c :: line) :: more :=
  splitWhere_cons_neg (by simpa using hc) h

theorem exists_feedLines (text : Text) : ∃ line more, feedLines text = line :: more :=
  List.exists_cons_of_ne_nil (splitWhere_ne_nil _ text)

/-- The first line goes up to the first line feed. -/
theorem getElem?_feedLines_zero (text : Text) :
    (feedLines text)[0]? = some (text.takeWhile (· != '\n')) := by
  induction text with
  | nil => rfl
  | cons c rest ih =>
    by_cases hc : c = '\n'
    · subst hc
      rw [feedLines_newline]
      rfl
    · obtain ⟨line, more, hlines⟩ := exists_feedLines rest
      rw [hlines] at ih
      have hline : line = rest.takeWhile (· != '\n') := by simpa using ih
      have hkeep : (c != '\n') = true := by simpa using hc
      rw [feedLines_cons hc hlines, List.takeWhile_cons, if_pos hkeep, hline]
      rfl

theorem feedLines_append (text rest : Text) :
    feedLines (text ++ '\n' :: rest) = feedLines text ++ feedLines rest := by
  induction text with
  | nil => exact feedLines_newline rest
  | cons c text ih =>
    by_cases hc : c = '\n'
    · subst hc
      rw [List.cons_append, feedLines_newline, feedLines_newline, ih, List.cons_append]
    · obtain ⟨line, more, hlines⟩ := exists_feedLines text
      rw [hlines, List.cons_append] at ih
      rw [List.cons_append, feedLines_cons hc ih, feedLines_cons hc hlines, List.cons_append]

theorem length_feedLines (text : Text) : (feedLines text).length = text.count '\n' + 1 := by
  induction text with
  | nil => rfl
  | cons c rest ih =>
    by_cases hc : c = '\n'
    · subst hc
      rw [feedLines_newline, List.length_cons, ih, List.count_cons_self]
    · obtain ⟨line, more, hlines⟩ := exists_feedLines rest
      rw [hlines] at ih
      rw [feedLines_cons hc hlines, List.count_cons_of_ne hc, ← ih]
      rfl

/-- The line at the place where a text is cut: the last line before it and the first line behind it are
together the line there. -/
theorem getElem?_feedLines (before behind : Text) :
    (feedLines (before ++ behind))[before.count '\n']? =
      some (lastLine before ++ behind.takeWhile (· != '\n')) := by
  induction before using List.reverseRecOn generalizing behind with
  | nil => exact getElem?_feedLines_zero behind
  | append_singleton before c ih =>
    rw [lastLine_concat, List.append_assoc, List.singleton_append]
    by_cases hc : c = '\n'
    · subst hc
      have hlength := length_feedLines before
      have hcount : (before ++ ['\n']).count '\n' = (feedLines before).length := by simp [hlength]
      rw [hcount, feedLines_append, List.getElem?_append_right (Nat.le_refl _), Nat.sub_self,
        getElem?_feedLines_zero, if_pos rfl]
      rfl
    · have hcount : (before ++ [c]).count '\n' = before.count '\n' := by simp [hc]
      have hkeep : (c != '\n') = true := by simpa using hc
      rw [hcount, ih, if_neg hc, List.takeWhile_cons, if_pos hkeep, List.append_assoc]
      rfl

/-- Something stands on the first line of the text. -/
def Inked (text : Text) : Prop := ∃ c rest, text = c :: rest ∧ c ≠ '\n'

theorem inked_of_start {c : Char} {start text : Text} (hc : c ≠ '\n') (h : c :: start <+: text) :
    text.Inked := by
  obtain ⟨behind, rfl⟩ := h
  exact ⟨c, start ++ behind, rfl, hc⟩

theorem Inked.takeWhile_ne_nil {text : Text} (h : text.Inked) : text.takeWhile (· != '\n') ≠ [] := by
  obtain ⟨c, rest, rfl, hc⟩ := h
  rw [List.takeWhile_cons, if_pos (by simpa using hc)]
  exact List.cons_ne_nil _ _

end Text

namespace Stream

variable {source : Text} {stream : Stream} {i : Nat} {token : Token}

/-- The line on which a token starts, at the number that the token has for it, and what the column of the
token leaves of it. -/
theorem feedLine_at (h : ofSource source = .ok stream) (hi : stream[i]? = some token) :
    (Text.feedLines source)[(token.line - 1).toNat]? =
        some (Text.lastLine (stream.textBefore i) ++ (stream.textFrom i).takeWhile (· != '\n')) ∧
      (token.column - 1).toNat = (Text.lastLine (stream.textBefore i)).length := by
  obtain ⟨hline, hcolumn⟩ := place_eq h hi
  have hnumber : (token.line - 1).toNat = (stream.textBefore i).count '\n' := by
    rw [hline, textBefore]
    omega
  have hplace : (token.column - 1).toNat = (Text.lastLine (stream.textBefore i)).length := by
    rw [hcolumn, textBefore]
    omega
  have hcut := Text.getElem?_feedLines (stream.textBefore i) (stream.textFrom i)
  rw [textBefore_append_textFrom h i] at hcut
  exact ⟨hnumber ▸ hcut, hplace⟩

end Stream

end DocLint
