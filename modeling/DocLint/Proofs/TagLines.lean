import DocLint.Command.FileScan
import DocLint.Proofs.CommentLines
import DocLint.Proofs.OwnComments

/-!
# What follows a tag on its line

Where every carriage return stands before a line feed, the text that is read behind a tag is the rest of its line:
all from the end of the tag to the end of the line or of the comment, without the blanks around it (`behindTag`).
So a tag of a doc comment is found to be empty only if its line has nothing more to say.

The lexer cuts the rest of a line into at most a gap and a text (`lineText?_docBody`). The text is found by a search
over the whole comment, but counts only if no line feed comes before it (`tagContent_eq_lineText?`).
-/

namespace DocLint

/-! ## Lines -/

namespace Text

variable {p : Char → Bool} {c : Char} {text rest front back : Text}

/-- Every carriage return stands right before a line feed. -/
def ReturnsPaired (text : Text) : Prop := ∀ i : Nat, text[i]? = some '\r' → text[i + 1]? = some '\n'

instance (text : Text) : Decidable (ReturnsPaired text) :=
  decidable_of_iff (∀ i, i < text.length → text[i]? = some '\r' → text[i + 1]? = some '\n')
    ⟨fun h i hi => h i (List.getElem?_eq_some_iff.1 hi).1 hi, fun h i _ hi => h i hi⟩

/-- The first line of a text, without the line feed, or the carriage return and the line feed, that ends it. -/
def firstLine : Text → Text
  | [] => []
  | c :: rest => if c = '\n' ∨ c = '\r' ∧ rest.head? = some '\n' then [] else c :: firstLine rest

/-- A text without the blanks at its ends. -/
def trimBlanks (text : Text) : Text := dropEndWhile isBlank (text.dropWhile isBlank)

/-- A text, if there is any. -/
def nonempty? (text : Text) : Option Text := if text = [] then none else some text

theorem ReturnsPaired.of_append (h : ReturnsPaired (front ++ back)) : ReturnsPaired back := by
  intro i hi
  have hat : (front ++ back)[front.length + i]? = some '\r' := by
    rw [List.getElem?_append_right (by omega), Nat.add_sub_cancel_left, hi]
  have hnext := h _ hat
  rwa [List.getElem?_append_right (by omega), show front.length + i + 1 - front.length = i + 1 by omega] at hnext

theorem ReturnsPaired.of_append_left (h : ReturnsPaired (text ++ back)) (hb : back.head? ≠ some '\n') :
    ReturnsPaired text := by
  intro i hi
  have hlt := (List.getElem?_eq_some_iff.1 hi).1
  have hnext := h i (by rw [List.getElem?_append_left hlt, hi])
  rcases Nat.lt_or_ge (i + 1) text.length with hin | hout
  · rwa [List.getElem?_append_left hin] at hnext
  · rw [List.getElem?_append_right hout, show i + 1 - text.length = 0 by omega, ← List.head?_eq_getElem?] at hnext
    exact absurd hnext hb

theorem ReturnsPaired.head (h : ReturnsPaired ('\r' :: rest)) : rest.head? = some '\n' := by
  rw [List.head?_eq_getElem?]
  exact h 0 rfl

theorem ReturnsPaired.tail (h : ReturnsPaired (c :: rest)) : ReturnsPaired rest := fun i hi => h (i + 1) hi

theorem firstLine_eq_takeWhile (h : ReturnsPaired text) : firstLine text = text.takeWhile (!isNewline ·) := by
  induction text with
  | nil => rfl
  | cons c rest ih =>
    have hends : (c = '\n' ∨ c = '\r' ∧ rest.head? = some '\n') ↔ isNewline c = true := by
      rw [isNewline, Bool.or_eq_true, beq_iff_eq, beq_iff_eq]
      constructor
      · rintro (rfl | ⟨rfl, -⟩)
        · exact Or.inr rfl
        · exact Or.inl rfl
      · rintro (rfl | rfl)
        · exact Or.inr ⟨rfl, h.head⟩
        · exact Or.inl rfl
    rw [firstLine, List.takeWhile_cons]
    by_cases hc : isNewline c = true
    · rw [if_pos (hends.2 hc), if_neg (by simpa using hc)]
    · rw [if_neg (hends.not.2 hc), if_pos (by simpa using hc), ih h.tail]

theorem dropEndWhile_cons (hc : p c = false) : dropEndWhile p (c :: text) = c :: dropEndWhile p text := by
  unfold dropEndWhile
  rw [List.reverse_cons, List.dropWhile_append]
  split
  · next hall =>
    rw [List.isEmpty_iff.1 hall, List.dropWhile_cons, if_neg (by simpa using hc)]
    rfl
  · rw [List.reverse_append]
    rfl

theorem newline_of_isBlank (hc : isBlank c = true) : isNewline c = false := by
  have hblank : c = ' ' ∨ c = '\t' := by simpa [isBlank] using hc
  rcases hblank with rfl | rfl
  · rfl
  · rfl

theorem trimBlanks_firstLine_dropWhile (text : Text) :
    trimBlanks (firstLine (text.dropWhile isBlank)) = trimBlanks (firstLine text) := by
  induction text with
  | nil => rfl
  | cons c rest ih =>
    by_cases hc : isBlank c = true
    · have hno : ¬ (c = '\n' ∨ c = '\r' ∧ rest.head? = some '\n') := by
        rintro (rfl | ⟨rfl, -⟩)
        · cases hc
        · cases hc
      rw [List.dropWhile_cons, if_pos hc, ih, firstLine, if_neg hno, trimBlanks, trimBlanks, List.dropWhile_cons,
        if_pos hc]
    · rw [List.dropWhile_cons, if_neg hc]

theorem return_not_mem_unifyNewlines (text : Text) : '\r' ∉ unifyNewlines text := by
  fun_induction unifyNewlines text with
  | case1 => exact List.not_mem_nil
  | case2 rest ih => simpa using ih
  | case3 c rest _ ih =>
    intro hm
    rcases List.mem_cons.1 hm with hc | hm
    · split at hc
      · cases hc
      · next hne => exact hne (by rw [← hc]; rfl)
    · exact ih hm

theorem returnsPaired_of_not_mem (h : '\r' ∉ text) : ReturnsPaired text := fun _ hi =>
  absurd (List.mem_of_getElem? hi) h

end Text

theorem Disk.read_returnsPaired {disk : Disk} {path : Path} {text : Text} (h : disk.read path = .ok text) :
    Text.ReturnsPaired text := by
  unfold Disk.read at h
  split at h
  · cases h
  · split at h
    · obtain rfl := Except.ok.inj h
      exact Text.returnsPaired_of_not_mem (Text.return_not_mem_unifyNewlines _)
    · cases h

/-! ## The rest of a line in lexemes -/

namespace Lexeme

/-- The first text of a comment, unless a line feed comes before it. -/
def lineText? : List Lexeme → Option Text
  | [] => none
  | lexeme :: rest =>
    if lexeme.kind = .docText then some lexeme.text
    else if '\n' ∈ lexeme.text then none
    else lineText? rest

theorem lineText?_eq_some {lexemes : List Lexeme} {text : Text} :
    lineText? lexemes = some text ↔ ∃ k : Nat, lexemes[k]? = some ⟨.docText, text⟩ ∧
      ∀ (j : Nat) (lexeme : Lexeme), j < k → lexemes[j]? = some lexeme →
        lexeme.kind ≠ .docText ∧ '\n' ∉ lexeme.text := by
  induction lexemes with
  | nil => simp [lineText?]
  | cons first rest ih =>
    rw [lineText?]
    split
    · next hk =>
      constructor
      · intro h
        obtain rfl := Option.some.inj h
        exact ⟨0, congrArg some (by rw [← hk]), fun j _ hj => absurd hj (Nat.not_lt_zero j)⟩
      · rintro ⟨k, hat, hbefore⟩
        cases k with
        | zero =>
          obtain rfl := Option.some.inj hat
          rfl
        | succ k => exact absurd hk (hbefore 0 first (Nat.succ_pos k) rfl).1
    · next hk =>
      split
      · next hfeed =>
        constructor
        · intro h
          cases h
        · rintro ⟨k, hat, hbefore⟩
          cases k with
          | zero =>
            obtain rfl := Option.some.inj hat
            exact absurd rfl hk
          | succ k => exact absurd hfeed (hbefore 0 first (Nat.succ_pos k) rfl).2
      · next hfeed =>
        rw [ih]
        constructor
        · rintro ⟨k, hat, hbefore⟩
          refine ⟨k + 1, hat, fun j lexeme hj hl => ?_⟩
          cases j with
          | zero =>
            obtain rfl := Option.some.inj hl
            exact ⟨hk, hfeed⟩
          | succ j => exact hbefore j lexeme (by omega) hl
        · rintro ⟨k, hat, hbefore⟩
          cases k with
          | zero =>
            obtain rfl := Option.some.inj hat
            exact absurd rfl hk
          | succ k => exact ⟨k, hat, fun j lexeme hj hl => hbefore (j + 1) lexeme (by omega) hl⟩

/-- A tag is the start of a line no more. -/
theorem docStep_lineStart_of_tag {lineStart : Bool} {c : Char} {rest : Text}
    (h : (docStep lineStart c rest).lexeme.kind = .docTag) : (docStep lineStart c rest).lineStart = false := by
  unfold docStep docNewline at h ⊢
  split at h
  · split at h
    · cases h
    · cases h
  · next hnewline =>
    rw [if_neg hnewline]
    split at h
    · cases h
    · next hblank =>
      rw [if_neg hblank]
      split at h
      · cases h
      · next hstar =>
        rw [if_neg hstar]
        split at h
        · next htag => rw [if_pos htag]
        · cases h

/-- Behind a tag, the rest of a comment is cut as the rest of a line. -/
theorem exists_docBody_behind_tag (lineStart : Bool) (text : Text) {lexeme : Lexeme} (hk : lexeme.kind = .docTag) :
    ∀ j : Nat, (docBody lineStart text)[j]? = some lexeme →
      ∃ rest, (docBody lineStart text).drop (j + 1) = docBody false rest := by
  fun_induction docBody lineStart text with
  | case1 =>
    intro j hj
    cases hj
  | case2 lineStart c rest step ih =>
    intro j hj
    cases j with
    | zero =>
      obtain rfl := Option.some.inj hj
      exact ⟨step.rest, by rw [← docStep_lineStart_of_tag hk]; rfl⟩
    | succ j => exact ih j hj

theorem docBody_cons_blank (lineStart : Bool) {c : Char} (rest : Text) (hc : Text.isBlank c = true) :
    docBody lineStart (c :: rest) =
      ⟨.docGap, c :: rest.takeWhile Text.isBlank⟩ :: docBody lineStart (rest.dropWhile Text.isBlank) := by
  rw [docBody]
  simp [docStep, Text.newline_of_isBlank hc, hc]

theorem feed_mem_docNewline {c : Char} {rest : Text} (hc : Text.isNewline c = true)
    (h : Text.ReturnsPaired (c :: rest)) :
    '\n' ∈ (docNewline c rest).lexeme.text ∧ (docNewline c rest).lexeme.kind = .docGap := by
  have hnewline : c = '\r' ∨ c = '\n' := by simpa [Text.isNewline] using hc
  rcases hnewline with rfl | rfl
  · simp [docNewline, h.head]
  · simp [docNewline]

/-- The rest of a line that starts with no blank: its text, if it has not ended. -/
theorem lineText?_docBody_of_head {text : Text} (h : Text.ReturnsPaired text)
    (hb : ∀ c, text.head? = some c → Text.isBlank c = false) :
    lineText? (docBody false text) = Text.nonempty? (Text.trimBlanks (Text.firstLine text)) := by
  cases text with
  | nil =>
    rw [docBody]
    rfl
  | cons c rest =>
    have hblank := hb c rfl
    rw [docBody, Text.firstLine_eq_takeWhile h, List.takeWhile_cons]
    by_cases hc : Text.isNewline c = true
    · obtain ⟨hfeed, hgap⟩ := feed_mem_docNewline hc h
      rw [docStep, if_pos hc, lineText?, hgap, if_neg (by decide), if_pos hfeed, if_neg (by simpa using hc)]
      rfl
    · have hstep : docStep false c rest =
          ⟨⟨.docText, docLine c rest⟩, false, (c :: rest).drop (docLine c rest).length⟩ := by
        simp [docStep, hc, hblank]
      rw [hstep, lineText?, if_pos rfl, if_pos (by simpa using hc), Text.trimBlanks, List.dropWhile_cons,
        if_neg (by simpa using hblank), Text.dropEndWhile_cons hblank]
      rfl

/-- Of the rest of a line, the first text is all that is left, without the blanks around it. -/
theorem lineText?_docBody {text : Text} (h : Text.ReturnsPaired text) :
    lineText? (docBody false text) = Text.nonempty? (Text.trimBlanks (Text.firstLine text)) := by
  rw [← Text.trimBlanks_firstLine_dropWhile]
  cases text with
  | nil =>
    rw [docBody]
    rfl
  | cons c rest =>
    by_cases hc : Text.isBlank c = true
    · have hgap : '\n' ∉ c :: rest.takeWhile Text.isBlank := by
        intro hm
        have hfeed : Text.isBlank '\n' = true := by
          rcases List.mem_cons.1 hm with rfl | hm
          · exact hc
          · exact List.mem_takeWhile_imp hm
        cases hfeed
      have hrest : Text.ReturnsPaired (rest.dropWhile Text.isBlank) := by
        have htail := h.tail
        rw [← List.takeWhile_append_dropWhile (p := Text.isBlank) (l := rest)] at htail
        exact htail.of_append
      rw [docBody_cons_blank false rest hc, lineText?, if_neg (fun hk => by cases hk), if_neg hgap,
        List.dropWhile_cons, if_pos hc]
      exact lineText?_docBody_of_head hrest fun d hd => Text.head?_dropWhile hd
    · rw [List.dropWhile_cons, if_neg hc]
      refine lineText?_docBody_of_head h fun d hd => ?_
      obtain rfl := Option.some.inj hd
      simpa using hc

end Lexeme

/-- What is cut off as a doc comment is cut further line by line. -/
theorem nextCut_docComment {mode after : Mode} {before : Option Lexeme} {text rest : Text} {body : List Lexeme}
    (h : nextCut mode before text = some (.taken (.docComment body) after rest)) :
    ∃ inner, body = Lexeme.docBody true inner := by
  have htext := (nextCut_lossless h).1
  rw [Piece.text_docComment, List.append_assoc] at htext
  cases mode with
  | html =>
    obtain ⟨hmode, -⟩ := (nextCut_formed h).2 Piece.docOpening List.mem_cons_self
    cases hmode
  | code =>
    -- the text starts with `/**`, so the rules before that of doc comments do not apply, and the next one does
    have hfirst : ((rules before .code).take 4).findSome? (· text) = none := by
      rw [← htext]
      rfl
    rw [nextCut, ← List.take_append_drop 4 (rules before .code), List.findSome?_append, hfirst,
      Option.none_or] at h
    rcases findSome?_cons_cases h with hrule | ⟨-, h⟩
    · unfold docCommentRule at hrule
      split at hrule
      · cases hrule
      · split at hrule
        · cases hrule
        · split at hrule
          · cases hrule
          · cases hrule
            exact ⟨_, rfl⟩
    · rcases findSome?_cons_cases h with hrule | ⟨hnone, -⟩
      · obtain ⟨inner, -, hcut⟩ := Option.map_eq_some_iff.1 hrule
        split at hcut
        · cases hcut
        · cases hcut
      · rw [← htext] at hnone
        cases hnone

/-! ## The rest of a line in a stream -/

namespace Stream

variable {source : Text} {stream : Stream} {o c t : Nat} {tags : List Int}

/-- The lexemes of the tokens from an index on and before another. -/
def lexemesBetween (stream : Stream) (first last : Nat) : List Lexeme :=
  (stream.extract first last).toList.map Token.lexeme

theorem lexemesBetween_text (stream : Stream) (first last : Nat) :
    (stream.lexemesBetween first last).flatMap (·.text) = stream.textBetween first last := by
  rw [lexemesBetween, textBetween_eq_extract, flatMap_content]

theorem lexemesBetween_getElem? {first last j : Nat} {lexeme : Lexeme} :
    (stream.lexemesBetween first last)[j]? = some lexeme ↔
      first + j < last ∧ ∃ token, stream[first + j]? = some token ∧ token.lexeme = lexeme := by
  rw [lexemesBetween, List.getElem?_map, Array.getElem?_toList, Array.getElem?_extract, Option.map_eq_some_iff]
  constructor
  · rintro ⟨token, hat, hl⟩
    split at hat
    · exact ⟨by omega, token, hat, hl⟩
    · cases hat
  · rintro ⟨hlt, token, hat, hl⟩
    have hsize := lt_size hat
    exact ⟨token, by rw [if_pos (by omega), hat], hl⟩

theorem lexemesBetween_drop (stream : Stream) (first last n : Nat) :
    (stream.lexemesBetween first last).drop n = stream.lexemesBetween (first + n) last := by
  refine List.ext_getElem? fun j => Option.ext fun lexeme => ?_
  rw [List.getElem?_drop]
  show _ = some lexeme ↔ _ = some lexeme
  rw [lexemesBetween_getElem?, lexemesBetween_getElem?, Nat.add_assoc]

/-- Between its delimiters, a doc comment of a source is cut line by line. -/
theorem exists_docBody_of_group (h : ofSource source = .ok stream) (hg : DocGroup stream.toList o c tags) :
    ∃ inner, stream.lexemesBetween (o + 1) c = Lexeme.docBody true inner := by
  obtain ⟨front, back, body, start, hm, hlayout, rfl, rfl⟩ := exists_docComment_of_group h hg
  have hbody : ∀ piece ∈ (scan source).pieces, ∀ body, piece = .docComment body →
      ∃ inner, body = Lexeme.docBody true inner := by
    refine (lexed_of_ofSource h).forall_pieces ?_
    rintro mode after before text rest piece hcut body rfl
    exact nextCut_docComment hcut
  obtain ⟨inner, hinner⟩ := hbody _ hm body rfl
  refine ⟨inner, ?_⟩
  rw [← hinner]
  have hgrouped := (lexed_of_ofSource h).grouped _ hm
  -- pairing keeps the parts of doc comments, so the tokens have the lexemes that they were laid out from
  have hat : ∀ (j : Nat) (lexeme : Lexeme), body[j]? = some lexeme →
      ∃ token, stream[front.length + 1 + j]? = some token ∧ token.lexeme = lexeme := by
    intro j lexeme hj
    have hlt := (List.getElem?_eq_some_iff.1 hj).1
    have hplaced : ((placeAll (start.advance Piece.docOpening.text) body).map Token.lexeme)[j]? = some lexeme := by
      rw [placeAll_lexeme, hj]
    rw [List.getElem?_map] at hplaced
    obtain ⟨token, htoken, rfl⟩ := Option.map_eq_some_iff.1 hplaced
    have hlayoutAt : (layout (scan source).pieces)[front.length + 1 + j]? = some token := by
      rw [hlayout, Piece.tokens, getElem?_group_inner (by omega) (by rw [placeAll_length]; omega),
        show front.length + 1 + j - front.length - 1 = j by omega, htoken]
    have hdoc : token.kind.isDoc = true :=
      Kind.isDoc_iff.2 (Or.inr (Or.inr (hgrouped _ (List.mem_of_getElem? hj)).1))
    obtain ⟨settled, hsettled, kept, hkind⟩ :=
      exists_pair_getElem?_of_isDoc (ofSource_eq_ok.1 h).2 hlayoutAt hdoc
    rw [Array.getElem?_toList] at hsettled
    exact ⟨settled, hsettled, by rw [Token.lexeme, Token.lexeme, hkind, kept.content]⟩
  refine List.ext_getElem? fun j => Option.ext fun lexeme => ?_
  show _ = some lexeme ↔ _ = some lexeme
  rw [lexemesBetween_getElem?]
  constructor
  · rintro ⟨hlt, token, htoken, rfl⟩
    have hj : j < body.length := by omega
    obtain ⟨other, hother, hl⟩ := hat j _ (List.getElem?_eq_getElem hj)
    obtain rfl := Option.some.inj (htoken.symm.trans hother)
    rw [List.getElem?_eq_getElem hj, hl]
  · intro hj
    have hlt := (List.getElem?_eq_some_iff.1 hj).1
    exact ⟨by omega, hat j lexeme hj⟩

/-- Behind a tag, a doc comment is cut as the rest of a line. -/
theorem lexemesBetween_behind_tag (h : ofSource source = .ok stream) (hg : DocGroup stream.toList o c tags)
    (ht : (t : Int) ∈ tags) :
    stream.lexemesBetween (t + 1) c = Lexeme.docBody false (stream.textBetween (t + 1 : Nat) c) := by
  obtain ⟨tag, hot, htc, htag, hk⟩ := exists_tag hg ht
  obtain ⟨inner, hinner⟩ := exists_docBody_of_group h hg
  have hat : (stream.lexemesBetween (o + 1) c)[t - (o + 1)]? = some tag.lexeme := by
    rw [lexemesBetween_getElem?, show o + 1 + (t - (o + 1)) = t by omega]
    exact ⟨htc, tag, htag, rfl⟩
  rw [hinner] at hat
  obtain ⟨rest, hrest⟩ := Lexeme.exists_docBody_behind_tag true inner hk _ hat
  rw [← hinner, lexemesBetween_drop, show o + 1 + (t - (o + 1) + 1) = t + 1 by omega] at hrest
  have htext := lexemesBetween_text stream (t + 1) c
  rw [hrest, Lexeme.docBody_text] at htext
  rw [hrest, htext]

/-- What is read behind a tag is the first text of the lexemes there, unless a line feed comes before it. -/
theorem tagContent_eq_lineText? (h : ofSource source = .ok stream) {tag : Token} (ht : stream[t]? = some tag)
    (hk : tag.kind = .docTag) :
    stream.tagContent t c = Lexeme.lineText? (stream.lexemesBetween (t + 1) c) := by
  have hname : '\n' ∉ tag.content := by
    have hform := form_at h ht
    rw [hk] at hform
    intro hfeed
    have hgap := hform.noGap '\n' hfeed
    cases hgap
  refine Option.ext fun text => ?_
  show _ = some text ↔ _ = some text
  rw [tagContent_eq_some_iff_feed h ht hk, Lexeme.lineText?_eq_some]
  constructor
  · rintro ⟨s, ⟨hbehind, hbefore, ⟨token, hs, htext, rfl⟩, hfirst⟩, hfeed⟩
    refine ⟨s - (t + 1), ?_, fun j lexeme hj hat => ?_⟩
    · rw [lexemesBetween_getElem?, show t + 1 + (s - (t + 1)) = s by omega]
      exact ⟨hbefore, token, hs, by rw [Token.lexeme, htext]⟩
    · obtain ⟨hlt, other, hother, rfl⟩ := lexemesBetween_getElem?.1 hat
      refine ⟨hfirst _ other (by omega) (by omega) hother, fun hmem => hfeed ?_⟩
      exact mem_textBetween.2 ⟨t + 1 + j, other, by omega, by omega, hother, hmem⟩
  · rintro ⟨k, hat, hbefore⟩
    obtain ⟨hlt, token, htoken, hl⟩ := lexemesBetween_getElem?.1 hat
    have hearlier : ∀ i other, t < i → i < t + 1 + k → stream[i]? = some other →
        other.kind ≠ .docText ∧ '\n' ∉ other.content := by
      intro i other hti hik hother
      refine hbefore (i - (t + 1)) other.lexeme (by omega) (lexemesBetween_getElem?.2 ?_)
      rw [show t + 1 + (i - (t + 1)) = i by omega]
      exact ⟨by omega, other, hother, rfl⟩
    refine ⟨t + 1 + k, ⟨by omega, hlt, ⟨token, htoken, congrArg Lexeme.kind hl, congrArg Lexeme.text hl⟩,
      fun i other hti hik hother => (hearlier i other hti hik hother).1⟩, fun hmem => ?_⟩
    obtain ⟨i, other, hti, hik, hother, hfeed⟩ := mem_textBetween.1 hmem
    rcases Nat.eq_or_lt_of_le hti with rfl | hlt
    · obtain rfl := Option.some.inj (ht.symm.trans hother)
      exact hname hfeed
    · exact (hearlier i other hlt hik hother).2 hfeed

/-- The text behind a tag on its line: from the end of the tag to the end of the line, or of the comment if that
comes first, without the blanks around it. -/
def behindTag (stream : Stream) (tag stop : Nat) : Text :=
  Text.trimBlanks (Text.firstLine (stream.textBetween (tag + 1 : Nat) stop))

/-- In the source, a tag is followed by the rest of its comment, and that by the end of the comment. -/
theorem source_at_tag (h : ofSource source = .ok stream) (hg : DocGroup stream.toList o c tags)
    (ht : (t : Int) ∈ tags) :
    source = stream.textBefore (t + 1) ++
      (stream.textBetween (t + 1 : Nat) c ++ ("*/".toList ++ stream.textFrom (c + 1))) := by
  obtain ⟨tag, hot, htc, -⟩ := exists_tag hg ht
  obtain ⟨_, -, -, hclose⟩ := docGroup_text h hg
  rw [← hclose, ← List.append_assoc, textBefore_append_textBetween stream htc, textBefore_append_textFrom h]

/-- What is read behind a tag is the text behind it on its line, if there is any. -/
theorem tagContent_eq_behindTag (h : ofSource source = .ok stream) (hp : Text.ReturnsPaired source)
    (hg : DocGroup stream.toList o c tags) (ht : (t : Int) ∈ tags) :
    stream.tagContent t c = Text.nonempty? (stream.behindTag t c) := by
  obtain ⟨tag, -, -, htag, hk⟩ := exists_tag hg ht
  have hbetween : Text.ReturnsPaired (stream.textBetween (t + 1 : Nat) c) := by
    rw [source_at_tag h hg ht] at hp
    exact hp.of_append.of_append_left (by simp)
  rw [tagContent_eq_lineText? h htag hk, lexemesBetween_behind_tag h hg ht, Lexeme.lineText?_docBody hbetween,
    behindTag]

end Stream

end DocLint
