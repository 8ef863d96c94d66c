import DocLint.Proofs.Lexing
import Mathlib.Data.List.TakeWhile

/-!
# The forms of tokens

What a token is written like depends on its kind, and for some kinds also on the text that follows: white
space and words go on as far as they can (`Kind.Form`). Every rule of the lexer cuts off a text of the form of
its kind (`Cut.Formed`), so in a run each lexeme has its form before the text of those behind it
(`Lexed.formed`).

The order of the rules matters in two places. A `#` starts a comment only where `#[` was tried before and did
not apply, and a block comment is no doc comment because that was tried before it.
-/

namespace DocLint

/-! ## Forms of text -/

/-- The text, which `rest` follows, is all the characters from its start on that satisfy `p`. -/
structure Text.RunOf (p : Char → Bool) (text rest : Text) : Prop where
  all : ∀ c ∈ text, p c = true
  stop : ∀ c, rest.head? = some c → p c = false

/-- A word, as far as it goes. -/
structure IsWord (text rest : Text) : Prop where
  start : ∃ c, text.head? = some c ∧ isWordStart c = true
  run : Text.RunOf isWordChar text rest

/-- A word that spells a keyword in any mix of cases. -/
def IsKeyword (keyword : String) (text rest : Text) : Prop :=
  IsWord text rest ∧ Text.lower text = keyword.toList

/-- A comment that ends with its line, or before the tag that leaves the code. -/
structure IsLineComment (text rest : Text) : Prop where
  start : "//".toList <+: text ∨ "#".toList <+: text ∧ ¬ "#[".toList <+: text
  newline : ∀ c ∈ text, Text.isNewline c = false
  closeTag : ¬ "?>".toList <:+: text
  stop : rest = [] ∨ (∃ c, rest.head? = some c ∧ Text.isNewline c = true) ∨ "?>".toList <+: rest

/-- A block comment: behind its opening, `*/` stands at its end and nowhere else. -/
structure IsBlockComment (text : Text) : Prop where
  delimited : ∃ body, text = "/*".toList ++ body ++ "*/".toList
  only : ∀ front back, text = front ++ "*/".toList ++ back → 2 ≤ front.length → back = []
  notDoc : "/**".toList <+: text → text = "/**/".toList

/-- Is the character behind the text escaped? A backslash escapes the next character, unless it is escaped
itself. -/
def Text.escapesNext (text : Text) : Bool := text.foldl (fun escaped c => !escaped && c == '\\') false

/-- A quoted string: the quote at its end is the first that is not escaped. -/
structure IsQuoted (quote : Char) (text : Text) : Prop where
  isQuote : Lexeme.isQuote quote = true
  delimited : ∃ body, text = quote :: (body ++ [quote]) ∧ Text.escapesNext body = false ∧
    ∀ front back, body = front ++ quote :: back → Text.escapesNext front = true

/-- White space in a doc comment: the end of a line, or blanks in it. -/
def IsDocGap (text : Text) : Prop :=
  text = ['\r', '\n'] ∨ (∃ c, text = [c] ∧ Text.isNewline c = true) ∨ ∀ c ∈ text, Text.isBlank c = true

/-- A tag of a doc comment. -/
structure IsDocTag (text : Text) : Prop where
  start : text.head? = some '@'
  noGap : ∀ c ∈ text, Text.isGap c = false

/-- A text in a line of a doc comment, without the blanks around it. -/
structure IsDocText (text : Text) : Prop where
  newline : ∀ c ∈ text, Text.isNewline c = false
  start : ∀ c, text.head? = some c → Text.isBlank c = false
  stop : ∀ c, text.getLast? = some c → Text.isBlank c = false

/-- What a text of a kind is written like, before `rest`. -/
def Kind.Form : Kind → (text rest : Text) → Prop
  | inlineHtml, text, _ => ¬ "<?".toList <:+: text
  | openTag, text, _ => Text.lower text = "<?php".toList ∨ text = "<?=".toList ∨ text = "<?".toList
  | closeTag, text, _ => text = "?>".toList
  | gap, text, rest => Text.RunOf Text.isGap text rest
  | comment, text, rest => IsLineComment text rest ∨ IsBlockComment text
  | docOpen, text, _ => text = "/**".toList
  | docClose, text, _ => text = "*/".toList
  | docGap, text, _ => IsDocGap text
  | docStar, text, _ => text = "*".toList
  | docTag, text, _ => IsDocTag text
  | docText, text, _ => IsDocText text
  | function, text, rest => IsKeyword "function" text rest
  | closure, text, rest => IsKeyword "function" text rest
  | arrow, text, rest => IsKeyword "fn" text rest
  | returnWord, text, rest => IsKeyword "return" text rest
  | useWord, text, rest => IsKeyword "use" text rest
  | classWord, text, rest => IsKeyword "class" text rest
  | interfaceWord, text, rest => IsKeyword "interface" text rest
  | traitWord, text, rest => IsKeyword "trait" text rest
  | enumWord, text, rest => IsKeyword "enum" text rest
  | publicWord, text, rest => IsKeyword "public" text rest
  | protectedWord, text, rest => IsKeyword "protected" text rest
  | privateWord, text, rest => IsKeyword "private" text rest
  | staticWord, text, rest => IsKeyword "static" text rest
  | abstractWord, text, rest => IsKeyword "abstract" text rest
  | finalWord, text, rest => IsKeyword "final" text rest
  | readonlyWord, text, rest => IsKeyword "readonly" text rest
  | nullWord, text, rest => IsKeyword "null" text rest
  | trueWord, text, rest => IsKeyword "true" text rest
  | falseWord, text, rest => IsKeyword "false" text rest
  | word, text, rest => IsWord text rest
  | variableName, text, rest => ∃ name, text = '$' :: name ∧ IsWord name rest
  | quoted, text, _ => (∃ quote, IsQuoted quote text) ∨ "<<<".toList <+: text
  | integer, text, rest => Lexeme.startsNumber (text ++ rest) = true ∧ Lexeme.isReal text = false
  | real, text, rest => Lexeme.startsNumber (text ++ rest) = true ∧ Lexeme.isReal text = true
  | openBrace, text, _ => text = ['{']
  | closeBrace, text, _ => text = ['}']
  | openParen, text, _ => text = ['(']
  | closeParen, text, _ => text = [')']
  | openSquare, text, _ => text = ['[']
  | closeSquare, text, _ => text = [']']
  | openAttribute, text, _ => text = ['#', '[']
  | semicolon, text, _ => text = [';']
  | comma, text, _ => text = [',']
  | equal, text, _ => text = ['=']
  | ampersand, text, _ => text = ['&']
  | ellipsis, text, _ => text = ['.', '.', '.']
  | question, text, _ => text = ['?']
  | colon, text, _ => text = [':']
  | operator, text, _ => (text ∈ operators ∨ text.length = 1) ∧ operatorKind text = .operator

/-! ## Parts of a source -/

/-- What a token is to the source as a whole. -/
inductive Part where
  /-- Text outside code. -/
  | html
  /-- The tag that enters the code. -/
  | enter
  /-- All that stands in code. -/
  | code
  /-- The tag that leaves the code. -/
  | leave
  deriving DecidableEq

/-- The part that a token of a kind is. -/
def Kind.part : Kind → Part
  | inlineHtml => .html
  | openTag => .enter
  | closeTag => .leave
  | _ => .code

/-- Where lexing stands before a part. -/
def Part.before : Part → Mode
  | html | enter => .html
  | code | leave => .code

/-- Where lexing stands behind a part. -/
def Part.after : Part → Mode
  | html | leave => .html
  | enter | code => .code

/-! ## Cutting text -/

namespace Text

variable {p : Char → Bool} {mark text before after : Text}

theorem head?_dropWhile {c : Char} (h : (text.dropWhile p).head? = some c) : p c = false := by
  have hnot := List.head?_dropWhile_not p text
  rw [h] at hnot
  exact hnot

theorem runOf_takeWhile (p : Char → Bool) (text : Text) :
    RunOf p (text.takeWhile p) (text.dropWhile p) :=
  ⟨fun _ hc => List.mem_takeWhile_imp hc, fun _ hc => head?_dropWhile hc⟩

/-- The mark occurs nowhere before the place where the text is cut. -/
theorem cut?_first (h : cut? mark text = some (before, after)) {front back : Text}
    (hmark : text = front ++ mark ++ back) : before.length ≤ front.length := by
  induction text generalizing before after front with
  | nil => simp [cut?] at h
  | cons c rest ih =>
    rw [cut?] at h
    split at h
    · obtain ⟨rfl, -⟩ := Prod.mk.inj (Option.some.inj h)
      exact Nat.zero_le _
    · next hno =>
      obtain ⟨⟨b, a⟩, hcut, heq⟩ := Option.map_eq_some_iff.1 h
      obtain ⟨rfl, -⟩ := Prod.mk.inj heq
      cases front with
      | nil =>
        have hstart : mark <+: c :: rest := ⟨back, by rw [hmark]; rfl⟩
        exact absurd (List.isPrefixOf_iff_prefix.2 hstart) hno
      | cons d front =>
        have hrest : rest = front ++ mark ++ back := (List.cons.inj hmark).2
        exact Nat.succ_le_succ (ih hcut hrest)

theorem not_infix_of_cut?_none (h : cut? mark text = none) (hne : mark ≠ []) : ¬ mark <:+: text := by
  induction text with
  | nil =>
    intro hin
    exact hne (List.eq_nil_of_infix_nil hin)
  | cons c rest ih =>
    rw [cut?] at h
    split at h
    · cases h
    · next hno =>
      intro hin
      rcases List.infix_cons_iff.1 hin with hstart | hin
      · exact hno (List.isPrefixOf_iff_prefix.2 hstart)
      · exact ih (Option.map_eq_none_iff.1 h) hin

theorem not_infix_of_cut? (h : cut? mark text = some (before, after)) (hne : mark ≠ []) :
    ¬ mark <:+: before := by
  rintro ⟨front, back, hin⟩
  have htext : text = front ++ mark ++ (back ++ after) := by
    rw [← (cut?_eq_some h).1, ← hin, List.append_assoc _ back]
  have hle := cut?_first h htext
  have hlen := congrArg List.length hin
  have hpos := List.length_pos_iff.2 hne
  simp only [List.length_append] at hlen
  omega

/-- A text through the mark at which it is cut has the mark at its end only. -/
theorem eq_nil_of_cut? (h : cut? mark text = some (before, after)) {front back : Text}
    (hmark : before ++ mark = front ++ mark ++ back) : back = [] := by
  obtain ⟨happ, hpre⟩ := cut?_eq_some h
  have htext : text = front ++ mark ++ (back ++ after.drop mark.length) := by
    calc text = before ++ (mark ++ after.drop mark.length) := by
          rw [← happ, List.prefix_iff_eq_append.1 hpre]
      _ = front ++ mark ++ (back ++ after.drop mark.length) := by
          rw [← List.append_assoc, hmark, List.append_assoc _ back]
  have hle := cut?_first h htext
  have hlen := congrArg List.length hmark
  simp only [List.length_append] at hlen
  exact List.length_eq_zero_iff.1 (by omega)

theorem getLast?_dropEndWhile {c : Char} (h : (dropEndWhile p text).getLast? = some c) : p c = false := by
  rw [dropEndWhile, List.getLast?_reverse] at h
  exact head?_dropWhile h

end Text

theorem isWordChar_of_isWordStart {c : Char} (h : isWordStart c = true) : isWordChar c = true := by
  unfold isWordStart at h
  unfold isWordChar Char.isAlphanum
  simp only [Bool.or_eq_true] at h ⊢
  rcases h with ((h | h) | h) | h
  · exact Or.inl (Or.inl (Or.inl (Or.inl h)))
  · exact Or.inl (Or.inl (Or.inr h))
  · exact Or.inl (Or.inr h)
  · exact Or.inr h

namespace Lexeme

/-! ## Comments -/

theorem lineComment_newline (text : Text) : ∀ c ∈ (lineComment text).1, Text.isNewline c = false := by
  induction text with
  | nil => simp [lineComment]
  | cons c rest ih =>
    rw [lineComment]
    split
    · simp
    · next hgo =>
      rw [Bool.or_eq_true, not_or] at hgo
      intro d hd
      rcases List.mem_cons.1 hd with rfl | hd
      · simpa using hgo.1
      · exact ih d hd

theorem lineComment_isPrefix (text : Text) : (lineComment text).1 <+: text :=
  ⟨(lineComment text).2, lineComment_append text⟩

theorem lineComment_closeTag (text : Text) : ¬ "?>".toList <:+: (lineComment text).1 := by
  induction text with
  | nil => simp [lineComment]
  | cons c rest ih =>
    rw [lineComment]
    split
    · simp
    · next hgo =>
      rw [Bool.or_eq_true, not_or] at hgo
      intro hin
      rcases List.infix_cons_iff.1 hin with hstart | hin
      · have hpre : c :: (lineComment rest).1 <+: c :: rest :=
          (List.prefix_cons_inj c).2 (lineComment_isPrefix rest)
        exact hgo.2 (List.isPrefixOf_iff_prefix.2 (hstart.trans hpre))
      · exact ih hin

theorem lineComment_stop (text : Text) :
    (lineComment text).2 = [] ∨
      (∃ c, (lineComment text).2.head? = some c ∧ Text.isNewline c = true) ∨
      "?>".toList <+: (lineComment text).2 := by
  induction text with
  | nil => exact Or.inl rfl
  | cons c rest ih =>
    rw [lineComment]
    split
    · next hstop =>
      rcases Bool.or_eq_true _ _ ▸ hstop with hnewline | htag
      · exact Or.inr (Or.inl ⟨c, rfl, hnewline⟩)
      · exact Or.inr (Or.inr (List.isPrefixOf_iff_prefix.1 htag))
    · exact ih

/-- What the comment starts with, it starts with already in the text. -/
theorem lineComment_start {text : Text} (h : "#".toList <+: text ∨ "//".toList <+: text)
    (hattribute : ¬ "#[".toList <+: text) :
    "//".toList <+: (lineComment text).1 ∨
      "#".toList <+: (lineComment text).1 ∧ ¬ "#[".toList <+: (lineComment text).1 := by
  have hno : ¬ "#[".toList <+: (lineComment text).1 := fun hpre =>
    hattribute (hpre.trans (lineComment_isPrefix text))
  rcases h with ⟨rest, rfl⟩ | ⟨rest, rfl⟩
  · exact Or.inr ⟨by simp [lineComment, Text.isNewline], hno⟩
  · exact Or.inl (by simp [lineComment, Text.isNewline])

/-! ## Quoted strings -/

/-- From behind the opening quote on, the string ends with the first quote that is not escaped. -/
theorem quotedFrom?_delimited {quote : Char} {text taken rest : Text} (hq : quote ≠ '\\')
    (h : quotedFrom? quote text = some (taken, rest)) :
    ∃ body, taken = body ++ [quote] ∧ Text.escapesNext body = false ∧
      ∀ front back, body = front ++ quote :: back → Text.escapesNext front = true := by
  fun_induction quotedFrom? quote text generalizing taken rest with
  | case1 => cases h
  | case2 c hc =>
    obtain ⟨rfl, -⟩ := Prod.mk.inj (Option.some.inj h)
    rw [eq_of_beq hc]
    exact ⟨[], rfl, rfl, fun front back hbody => by simp at hbody⟩
  | case3 => cases h
  | case4 c d after hc ih =>
    -- a backslash takes the next character with it, so the count starts anew behind the two
    obtain ⟨⟨t, r⟩, hr, heq⟩ := Option.map_eq_some_iff.1 h
    obtain ⟨rfl, -⟩ := Prod.mk.inj heq
    obtain rfl := eq_of_beq hc
    obtain ⟨body, rfl, hend, hinner⟩ := ih hr
    refine ⟨'\\' :: d :: body, rfl, hend, fun front back hbody => ?_⟩
    cases front with
    | nil => exact absurd (List.cons.inj hbody).1.symm hq
    | cons first front =>
      obtain ⟨hfirst, hrest⟩ := List.cons.inj hbody
      rw [← hfirst]
      cases front with
      | nil => rfl
      | cons second front => exact hinner front back (List.cons.inj hrest).2
  | case5 c d after hc hquote =>
    obtain ⟨rfl, -⟩ := Prod.mk.inj (Option.some.inj h)
    rw [eq_of_beq hquote]
    exact ⟨[], rfl, rfl, fun front back hbody => by simp at hbody⟩
  | case6 c d after hc hquote ih =>
    obtain ⟨⟨t, r⟩, hr, heq⟩ := Option.map_eq_some_iff.1 h
    obtain ⟨rfl, -⟩ := Prod.mk.inj heq
    obtain ⟨body, rfl, hend, hinner⟩ := ih hr
    have hpass : ∀ later, Text.escapesNext (c :: later) = Text.escapesNext later := by
      intro later
      simp [Text.escapesNext, hc]
    refine ⟨c :: body, rfl, (hpass body).trans hend, fun front back hbody => ?_⟩
    cases front with
    | nil =>
      rw [(List.cons.inj hbody).1] at hquote
      exact absurd BEq.rfl hquote
    | cons first front =>
      obtain ⟨hfirst, hrest⟩ := List.cons.inj hbody
      rw [← hfirst]
      exact (hpass front).trans (hinner front back hrest)

/-! ## Doc comments -/

theorem docLine_form {c : Char} {rest : Text} (hnewline : Text.isNewline c = false)
    (hblank : Text.isBlank c = false) : IsDocText (docLine c rest) := by
  refine ⟨fun d hd => ?_, fun d hd => ?_, fun d hd => ?_⟩
  · rcases List.mem_cons.1 hd with rfl | hd
    · exact hnewline
    · have hline := (Text.dropEndWhile_isPrefix _ _).subset hd
      simpa using List.mem_takeWhile_imp hline
  · rw [← Option.some.inj hd]
    exact hblank
  · rw [docLine, List.getLast?_cons] at hd
    cases hlast : (Text.dropEndWhile Text.isBlank (rest.takeWhile (!Text.isNewline ·))).getLast? with
    | none =>
      rw [hlast] at hd
      rw [← Option.some.inj hd]
      exact hblank
    | some e =>
      rw [hlast] at hd
      rw [← Option.some.inj hd]
      exact Text.getLast?_dropEndWhile hlast

/-- A step of a doc comment takes a lexeme of its form. -/
theorem docStep_form (lineStart : Bool) (c : Char) (rest later : Text) :
    (docStep lineStart c rest).lexeme.kind.Form (docStep lineStart c rest).lexeme.text later := by
  unfold docStep
  split
  · next hnewline =>
    unfold docNewline
    split
    · show IsDocGap _
      exact Or.inl rfl
    · show IsDocGap _
      exact Or.inr (Or.inl ⟨c, rfl, hnewline⟩)
  · next hnewline =>
    split
    · next hblank =>
      show IsDocGap _
      refine Or.inr (Or.inr fun d hd => ?_)
      rcases List.mem_cons.1 hd with rfl | hd
      · exact hblank
      · exact List.mem_takeWhile_imp hd
    · next hblank =>
      split
      · next hstar =>
        rw [Bool.and_eq_true, beq_iff_eq] at hstar
        rw [hstar.1]
        rfl
      · split
        · next htag =>
          rw [Bool.and_eq_true, beq_iff_eq] at htag
          show IsDocTag _
          refine ⟨congrArg some htag.1, fun d hd => ?_⟩
          rcases List.mem_cons.1 hd with rfl | hd
          · rw [htag.1]
            rfl
          · simpa using List.mem_takeWhile_imp hd
        · exact docLine_form (by simpa using hnewline) (by simpa using hblank)

theorem docBody_form (lineStart : Bool) (text : Text) :
    ∀ lexeme ∈ docBody lineStart text, ∀ later, lexeme.kind.Form lexeme.text later := by
  fun_induction docBody lineStart text with
  | case1 => simp
  | case2 lineStart c rest step ih =>
    intro lexeme hl later
    rcases List.mem_cons.1 hl with rfl | hl
    · exact docStep_form lineStart c rest later
    · exact ih lexeme hl later

end Lexeme

/-! ## Every rule keeps to the form -/

/-- The lexemes of a piece, which `rest` follows, have their forms. What follows has no say inside a doc
comment, and no `*/` stands in it. -/
def Piece.Formed (rest : Text) : Piece → Prop
  | single lexeme => lexeme.kind.Form lexeme.text rest
  | docComment body => (∀ lexeme ∈ body, ∀ later, lexeme.kind.Form lexeme.text later) ∧
    ¬ "*/".toList <:+: body.flatMap (·.text)

/-- The forms in a doc comment hold before any text. -/
theorem Piece.Formed.docComment_forms {body : List Lexeme} {rest : Text}
    (h : (docComment body).Formed rest) :
    ∀ lexeme ∈ (docComment body).lexemes, ∀ later, lexeme.kind.Form lexeme.text later := by
  intro lexeme hm later
  simp only [Piece.lexemes, List.mem_cons, List.mem_append, List.not_mem_nil, or_false] at hm
  rcases hm with rfl | hm | rfl
  · rfl
  · exact h.1 lexeme hm later
  · rfl

/-- In the given mode, a cut takes lexemes of their forms, and leads to the mode that they lead to. -/
def Cut.Formed (mode : Mode) : Cut → Prop
  | taken piece after rest => piece.Formed rest ∧
    ∀ lexeme ∈ piece.lexemes, lexeme.kind.part.before = mode ∧ lexeme.kind.part.after = after
  | refused _ => True

theorem Cut.formed_single {mode after : Mode} {kind : Kind} {text rest : Text} (h : kind.Form text rest)
    (hbefore : kind.part.before = mode) (hafter : kind.part.after = after) :
    Cut.Formed mode (.taken (.single ⟨kind, text⟩) after rest) := by
  refine ⟨h, fun lexeme hl => ?_⟩
  obtain rfl := List.mem_singleton.1 hl
  exact ⟨hbefore, hafter⟩

/-- One lexeme of code. -/
theorem Cut.formed_code {kind : Kind} {text rest : Text} (h : kind.Form text rest)
    (hpart : kind.part = .code) : Cut.Formed .code (.single kind text rest) :=
  formed_single h (by rw [hpart]; rfl) (by rw [hpart]; rfl)

theorem Kind.part_of_isDoc {kind : Kind} (h : kind.isDoc = true) : kind.part = .code := by
  cases kind <;> first | rfl | cases h

theorem operatorKind_part (operator : Text) : (operatorKind operator).part = .code := by
  unfold operatorKind
  split <;> rfl

theorem operatorKind_form {text : Text} (h : text ∈ operators ∨ text.length = 1) (rest : Text) :
    (operatorKind text).Form text rest := by
  cases hk : operatorKind text with
  | operator => exact ⟨h, hk⟩
  | _ =>
    unfold operatorKind at hk
    split at hk <;> first | rfl | cases hk

theorem Lexeme.wordKind_part (before : Option Lexeme) (word : Text) :
    (wordKind before word).part = .code := by
  have hkeys : ∀ entry ∈ Kind.keywords, entry.2.part = .code := by decide
  unfold wordKind
  split
  · rfl
  · next keyword hk =>
    obtain ⟨entry, he, rfl⟩ := Option.map_eq_some_iff.1 hk
    split
    · rfl
    · exact hkeys entry (List.mem_of_find?_eq_some he)

/-- A keyword has the form of the kind that the table of keywords has for it. -/
theorem Kind.form_of_mem_keywords {entry : String × Kind} (he : entry ∈ Kind.keywords) {text rest : Text}
    (h : IsKeyword entry.1 text rest) : entry.2.Form text rest := by
  simp only [Kind.keywords, List.mem_cons, List.not_mem_nil, or_false] at he
  rcases he with rfl | rfl | rfl | rfl | rfl | rfl | rfl | rfl | rfl | rfl | rfl | rfl | rfl | rfl | rfl |
    rfl | rfl | rfl <;> exact h

theorem Lexeme.wordKind_form (before : Option Lexeme) {word rest : Text} (h : IsWord word rest) :
    (wordKind before word).Form word rest := by
  unfold wordKind
  split
  · exact h
  · next keyword hk =>
    obtain ⟨entry, he, rfl⟩ := Option.map_eq_some_iff.1 hk
    split
    · exact h
    · have hlower := List.find?_some he
      exact Kind.form_of_mem_keywords (List.mem_of_find?_eq_some he) ⟨h, (eq_of_beq hlower).symm⟩

section Rules

variable {text : Text} {cut : Cut}

theorem openTagRule_formed (h : openTagRule text = some cut) : cut.Formed .html := by
  unfold openTagRule at h
  split at h
  · next hopen =>
    obtain rfl := Option.some.inj h
    refine Cut.formed_single ?_ rfl rfl
    show Text.lower _ = _ ∨ _ = _ ∨ _ = _
    split
    · next hphp => exact Or.inl (eq_of_beq hphp)
    · split
      · next hecho =>
        have htake := List.prefix_iff_eq_take.1 (List.isPrefixOf_iff_prefix.1 hecho)
        exact Or.inr (Or.inl htake.symm)
      · have htake := List.prefix_iff_eq_take.1 (List.isPrefixOf_iff_prefix.1 hopen)
        exact Or.inr (Or.inr htake.symm)
  · cases h

theorem inlineHtmlRule_formed (h : inlineHtmlRule text = some cut) : cut.Formed .html := by
  unfold inlineHtmlRule at h
  split at h
  · cases h
  · obtain rfl := Option.some.inj h
    refine Cut.formed_single ?_ rfl rfl
    cases hcut : Text.cut? "<?".toList text with
    | none => exact Text.not_infix_of_cut?_none hcut (by decide)
    | some found => exact Text.not_infix_of_cut? hcut (by decide)

theorem gapRule_formed (h : gapRule text = some cut) : cut.Formed .code := by
  unfold gapRule at h
  split at h
  · obtain rfl := Option.some.inj h
    exact Cut.formed_code (Text.runOf_takeWhile Text.isGap text) rfl
  · cases h

theorem closeTagRule_formed (h : closeTagRule text = some cut) : cut.Formed .code := by
  obtain ⟨rest, -, rfl⟩ := Option.map_eq_some_iff.1 h
  exact Cut.formed_single rfl rfl rfl

theorem attributeRule_formed (h : attributeRule text = some cut) : cut.Formed .code := by
  obtain ⟨rest, -, rfl⟩ := Option.map_eq_some_iff.1 h
  exact Cut.formed_code rfl rfl

theorem lineCommentRule_formed (hno : attributeRule text = none) (h : lineCommentRule text = some cut) :
    cut.Formed .code := by
  unfold lineCommentRule at h
  split at h
  · next hstart =>
    obtain rfl := Option.some.inj h
    simp only [Bool.or_eq_true, List.isPrefixOf_iff_prefix] at hstart
    have hattribute : ¬ "#[".toList <+: text := by
      rintro ⟨rest, hrest⟩
      rw [attributeRule, Text.after?_eq_some.2 hrest] at hno
      cases hno
    refine Cut.formed_code (Or.inl ⟨?_, ?_, ?_, ?_⟩) rfl
    · exact Lexeme.lineComment_start hstart hattribute
    · exact Lexeme.lineComment_newline text
    · exact Lexeme.lineComment_closeTag text
    · exact Lexeme.lineComment_stop text
  · cases h

theorem docCommentRule_formed (h : docCommentRule text = some cut) : cut.Formed .code := by
  have hgrouped := docCommentRule_grouped h
  unfold docCommentRule at h
  split at h
  · cases h
  · split at h
    · cases h
    · split at h
      · obtain rfl := Option.some.inj h
        trivial
      · next body rest hcut =>
        obtain rfl := Option.some.inj h
        have hend : ¬ "*/".toList <:+: (Lexeme.docBody true body).flatMap (·.text) := by
          rw [Lexeme.docBody_text]
          exact Text.not_infix_of_cut? hcut (by decide)
        refine ⟨⟨Lexeme.docBody_form true body, hend⟩, fun lexeme hl => ?_⟩
        rw [Kind.part_of_isDoc (Piece.Grouped.isDoc hgrouped lexeme hl)]
        exact ⟨rfl, rfl⟩

/-- Where `/**` starts no doc comment, it starts the shortest block comment. -/
theorem docCommentRule_eq_none {inner : Text} (h : docCommentRule ("/**".toList ++ inner) = none) :
    "/".toList <+: inner := by
  rw [docCommentRule, Text.after?_eq_some.2 rfl] at h
  dsimp only at h
  split at h
  · next hshort => exact List.isPrefixOf_iff_prefix.1 hshort
  · split at h <;> cases h

theorem blockCommentRule_formed (hno : docCommentRule text = none) (h : blockCommentRule text = some cut) :
    cut.Formed .code := by
  obtain ⟨inner, hinner, rfl⟩ := Option.map_eq_some_iff.1 h
  split
  · trivial
  · next body rest hcut =>
    refine Cut.formed_code (Or.inr ⟨⟨body, rfl⟩, ?_, ?_⟩) rfl
    · intro front back heq hlen
      -- behind the opening, the first end of the comment is its end
      obtain ⟨more, rfl⟩ : ∃ more, front = "/*".toList ++ more := by
        have hopening : "/*".toList <+: "/*".toList ++ body ++ "*/".toList :=
          ⟨body ++ "*/".toList, by rw [List.append_assoc]⟩
        have hfront : front <+: "/*".toList ++ body ++ "*/".toList :=
          ⟨"*/".toList ++ back, by rw [heq, List.append_assoc]⟩
        obtain ⟨more, hmore⟩ := List.prefix_of_prefix_length_le hopening hfront hlen
        exact ⟨more, hmore.symm⟩
      simp only [List.append_assoc, List.append_cancel_left_eq] at heq
      exact Text.eq_nil_of_cut? hcut (by simpa using heq)
    · intro hdoc
      cases body with
      | nil => rfl
      | cons c more =>
        obtain rfl : '*' = c := by simpa using hdoc
        obtain ⟨happ, -⟩ := Text.cut?_eq_some hcut
        obtain rfl := Text.after?_eq_some.1 hinner
        obtain rfl := happ
        have hdoc : docCommentRule ("/**".toList ++ (more ++ rest)) = none := hno
        obtain ⟨later, hlater⟩ := docCommentRule_eq_none hdoc
        have hmark : '*' :: more ++ rest = [] ++ "*/".toList ++ later := by
          rw [List.cons_append, ← hlater]
          rfl
        have hfirst := Text.cut?_first hcut hmark
        cases hfirst

theorem variableRule_formed (h : variableRule text = some cut) : cut.Formed .code := by
  unfold variableRule at h
  split at h
  · next rest =>
    split at h
    · next hstart =>
      obtain rfl := Option.some.inj h
      obtain ⟨c, hc, hword⟩ := (Option.any_eq_true _ _).1 hstart
      refine Cut.formed_code ⟨rest.takeWhile isWordChar, rfl, ⟨c, ?_, hword⟩, ?_⟩ rfl
      · rw [List.head?_takeWhile, hc]
        simp [isWordChar_of_isWordStart hword]
      · exact Text.runOf_takeWhile isWordChar rest
    · cases h
  · cases h

theorem quotedRule_formed (h : quotedRule text = some cut) : cut.Formed .code := by
  unfold quotedRule at h
  split at h
  · cases h
  · next quote rest =>
    split at h
    · next hquote =>
      split at h
      · obtain rfl := Option.some.inj h
        trivial
      · next taken after hq =>
        obtain rfl := Option.some.inj h
        have hplain : quote ≠ '\\' := by
          rintro rfl
          cases hquote
        obtain ⟨body, rfl, hend, hinner⟩ := Lexeme.quotedFrom?_delimited hplain hq
        exact Cut.formed_code (Or.inl ⟨quote, hquote, body, rfl, hend, hinner⟩) rfl
    · cases h

theorem numberRule_formed (h : numberRule text = some cut) : cut.Formed .code := by
  unfold numberRule at h
  split at h
  · cases h
  · next c rest =>
    split at h
    · next hstart =>
      obtain rfl := Option.some.inj h
      have happ := Lexeme.numberFrom_append [c] rest
      rw [List.singleton_append] at happ
      rw [← happ] at hstart
      split
      · next hreal => exact Cut.formed_code ⟨hstart, hreal⟩ rfl
      · next hreal => exact Cut.formed_code ⟨hstart, by simpa using hreal⟩ rfl
    · cases h

theorem wordRule_formed {before : Option Lexeme} (h : wordRule before text = some cut) :
    cut.Formed .code := by
  unfold wordRule at h
  split at h
  · cases h
  · next c rest =>
    split at h
    · next hstart =>
      obtain rfl := Option.some.inj h
      have hchar := isWordChar_of_isWordStart hstart
      have hrun := Text.runOf_takeWhile isWordChar (c :: rest)
      rw [List.takeWhile_cons_of_pos hchar, List.dropWhile_cons_of_pos hchar] at hrun
      exact Cut.formed_code (Lexeme.wordKind_form before ⟨⟨c, rfl, hstart⟩, hrun⟩)
        (Lexeme.wordKind_part before _)
    · cases h

theorem heredocRule_formed (h : heredocRule text = some cut) : cut.Formed .code := by
  unfold heredocRule at h
  split at h
  · cases h
  · obtain ⟨opening, -, rfl⟩ := Option.map_eq_some_iff.1 h
    split
    · trivial
    · exact Cut.formed_code (Or.inr ⟨_, (List.append_assoc ..).symm⟩) rfl

theorem operatorRule_formed (h : operatorRule text = some cut) : cut.Formed .code := by
  obtain ⟨operator, ho, rfl⟩ := Option.map_eq_some_iff.1 h
  exact Cut.formed_code (operatorKind_form (Or.inl (List.mem_of_find?_eq_some ho)) _)
    (operatorKind_part operator)

theorem characterRule_formed (h : characterRule text = some cut) : cut.Formed .code := by
  unfold characterRule at h
  split at h
  · cases h
  · obtain rfl := Option.some.inj h
    exact Cut.formed_code (operatorKind_form (Or.inr rfl) _) (operatorKind_part _)

end Rules

/-- The first rule applies, or it does not and a later one does. -/
theorem findSome?_cons_cases {α β : Type} {f : α → Option β} {first : α} {later : List α} {found : β}
    (h : (first :: later).findSome? f = some found) :
    f first = some found ∨ f first = none ∧ later.findSome? f = some found := by
  rw [List.findSome?_cons] at h
  split at h
  · next hf => exact Or.inl (hf.trans h)
  · next hf => exact Or.inr ⟨hf, h⟩

/-- Whatever is cut off next has the form of its kind. -/
theorem nextCut_formed {mode : Mode} {before : Option Lexeme} {text : Text} {cut : Cut}
    (h : nextCut mode before text = some cut) : cut.Formed mode := by
  cases mode with
  | html =>
    rcases findSome?_cons_cases h with h | ⟨-, h⟩
    · exact openTagRule_formed h
    rcases findSome?_cons_cases h with h | ⟨-, h⟩
    · exact inlineHtmlRule_formed h
    cases h
  | code =>
    rcases findSome?_cons_cases h with h | ⟨-, h⟩
    · exact gapRule_formed h
    rcases findSome?_cons_cases h with h | ⟨-, h⟩
    · exact closeTagRule_formed h
    rcases findSome?_cons_cases h with h | ⟨hattribute, h⟩
    · exact attributeRule_formed h
    rcases findSome?_cons_cases h with h | ⟨-, h⟩
    · exact lineCommentRule_formed hattribute h
    rcases findSome?_cons_cases h with h | ⟨hdoc, h⟩
    · exact docCommentRule_formed h
    rcases findSome?_cons_cases h with h | ⟨-, h⟩
    · exact blockCommentRule_formed hdoc h
    rcases findSome?_cons_cases h with h | ⟨-, h⟩
    · exact variableRule_formed h
    rcases findSome?_cons_cases h with h | ⟨-, h⟩
    · exact quotedRule_formed h
    rcases findSome?_cons_cases h with h | ⟨-, h⟩
    · exact numberRule_formed h
    rcases findSome?_cons_cases h with h | ⟨-, h⟩
    · exact wordRule_formed h
    rcases findSome?_cons_cases h with h | ⟨-, h⟩
    · exact heredocRule_formed h
    rcases findSome?_cons_cases h with h | ⟨-, h⟩
    · exact operatorRule_formed h
    rcases findSome?_cons_cases h with h | ⟨-, h⟩
    · exact characterRule_formed h
    cases h

theorem Lexed.exists_formed {mode : Mode} {before : Option Lexeme} {text : Text} {pieces : List Piece}
    (run : Lexed mode before text pieces) : ∀ piece ∈ pieces, ∃ rest, piece.Formed rest :=
  run.forall_pieces fun h => ⟨_, (nextCut_formed h).1⟩

end DocLint
