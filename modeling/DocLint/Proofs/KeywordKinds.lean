import DocLint.Proofs.LexicalSoundness
import DocLint.Proofs.LineEnds
import Mathlib.Data.List.Forall2

/-!
# Which words are keywords

A word that spells a keyword gets its kind in two steps. The lexer looks at the last lexeme before it that is not
silent, whose kind it has given before. When all tokens are there, a `function` and an `fn` are settled by what follows
them. The result is a law of the final stream alone: settling makes a closure of a `function` and a word of an `fn`, so
whether the token before a word is a declaration can be read off the stream (`Token.Settles`).

That a word is in question can be read off the stream, too. A token that spells a keyword is a word, if it is neither
text outside code nor in a comment (`isWord_of_spelling`).
-/

namespace DocLint

/-! ## The rule of words -/

/-- Words, keywords or not. -/
def Kind.isWord (kind : Kind) : Bool := kind == .word || kind == .closure || keywords.any (·.2 == kind)

theorem Kind.part_of_isWord {kind : Kind} (h : kind.isWord = true) : kind.part = .code := by
  cases kind <;> first | rfl | cases h

theorem Kind.isDoc_of_isWord {kind : Kind} (h : kind.isWord = true) : kind.isDoc = false := by
  cases kind <;> first | rfl | cases h

/-- A text of such a kind is a word. -/
theorem Kind.Form.word_of_isWord {kind : Kind} {text rest : Text} (h : kind.Form text rest)
    (hw : kind.isWord = true) : IsWord text rest := by
  cases kind <;> first | exact h | exact h.1 | cases hw

/-- A word starts as nothing does that is tried before numbers and words. -/
theorem rules_before_number {c : Char} (hc : isWordStart c = true) (before : Option Lexeme) (more : Text) :
    ((rules before .code).take 8).findSome? (· (c :: more)) = none := by
  have hne : ∀ d : Char, isWordStart d = false → d ≠ c := by
    intro d hd heq
    rw [heq, hc] at hd
    cases hd
  have hslash : '/' ≠ c := hne '/' rfl
  rw [List.findSome?_eq_none_iff]
  intro rule hm
  change rule ∈ [gapRule, closeTagRule, attributeRule, lineCommentRule, docCommentRule, blockCommentRule,
    variableRule, quotedRule] at hm
  simp only [List.mem_cons, List.not_mem_nil, or_false] at hm
  rcases hm with rfl | rfl | rfl | rfl | rfl | rfl | rfl | rfl
  · have hgap : Text.isGap c = false := by
      simp [Text.isGap, Text.isBlank, Text.isNewline, (hne ' ' rfl).symm, (hne '\t' rfl).symm, (hne '\r' rfl).symm,
        (hne '\n' rfl).symm]
    simp [gapRule, hgap]
  · exact Option.map_eq_none_iff.2 (Text.after?_of_ne (hne '?' rfl) _ _)
  · exact Option.map_eq_none_iff.2 (Text.after?_of_ne (hne '#' rfl) _ _)
  · simp [lineCommentRule, hne '#' rfl, hslash]
  · have hdoc : Text.after? "/**".toList (c :: more) = none := Text.after?_of_ne hslash _ _
    unfold docCommentRule
    rw [hdoc]
  · exact Option.map_eq_none_iff.2 (Text.after?_of_ne hslash _ _)
  · unfold variableRule
    split
    · next heq => exact absurd (List.cons.inj heq).1.symm (hne '$' rfl)
    · rfl
  · have hquote : Lexeme.isQuote c = false := by
      simp [Lexeme.isQuote, (hne '\x27' rfl).symm, (hne '\x22' rfl).symm, (hne '\x60' rfl).symm]
    simp [quotedRule, hquote]

/-- A word gets its kind from the rule of words, whatever is tried before. -/
theorem nextCut_word {mode after : Mode} {before : Option Lexeme} {text rest : Text} {lexeme : Lexeme}
    (h : nextCut mode before text = some (.taken (.single lexeme) after rest)) (hw : lexeme.kind.isWord = true) :
    lexeme.kind = Lexeme.wordKind before lexeme.text := by
  obtain ⟨hform, hparts⟩ := nextCut_formed h
  obtain rfl : Mode.code = mode := by
    obtain ⟨hmode, -⟩ := hparts lexeme List.mem_cons_self
    rw [Kind.part_of_isWord hw] at hmode
    exact hmode
  obtain ⟨c, hhead, hc⟩ := (hform.word_of_isWord hw).start
  obtain ⟨more, rfl⟩ : ∃ more, text = c :: more := by
    obtain ⟨later, htext⟩ := List.head?_eq_some_iff.1 hhead
    have hsource := (nextCut_lossless h).1
    rw [Piece.text_single, htext] at hsource
    exact ⟨later ++ rest, hsource.symm⟩
  rw [nextCut, ← List.take_append_drop 8 (rules before .code), List.findSome?_append, rules_before_number hc,
    Option.none_or] at h
  rcases findSome?_cons_cases h with hnumber | ⟨-, h⟩
  · -- what starts with a digit is a number, even if the digit could start a word
    unfold numberRule at hnumber
    split at hnumber
    · cases hnumber
    · split at hnumber
      · cases hnumber
        split at hw
        · cases hw
        · cases hw
      · cases hnumber
  · rcases findSome?_cons_cases h with hword | ⟨hno, -⟩
    · rw [wordRule, if_pos hc] at hword
      cases hword
      rfl
    · rw [wordRule, if_pos hc] at hno
      cases hno

/-- The kind of a word that spells a keyword. -/
theorem Lexeme.wordKind_of_spelling {keyword : String} {kind : Kind} (hk : (keyword, kind) ∈ Kind.keywords)
    {text : Text} (hs : Text.lower text = keyword.toList) (before : Option Lexeme) :
    wordKind before text = if before.any (·.unkeys kind) then .word else kind := by
  have hfind : ∀ entry ∈ Kind.keywords,
      (Kind.keywords.find? fun other => other.1.toList == entry.1.toList) = some entry := by decide
  have hkeyword : keyword? text = some kind := by
    unfold keyword?
    rw [hs]
    show (Kind.keywords.find? fun other => other.1.toList == keyword.toList).map (·.2) = some kind
    rw [hfind _ hk]
    rfl
  unfold wordKind
  rw [hkeyword]

/-- The lexeme before which all others are silent, or none of the given ones if all are. -/
def lastHeardIn (lexemes : List Lexeme) : Option Lexeme := (lexemes.filter (!·.kind.isSilent)).getLast?

theorem lastHeardIn_append (front back : List Lexeme) :
    lastHeardIn (front ++ back) = (lastHeardIn back).or (lastHeardIn front) := by
  rw [lastHeardIn, List.filter_append, List.getLast?_append]
  rfl

theorem Piece.Grouped.lastHeard_eq {piece : Piece} (h : piece.Grouped) (before : Option Lexeme) :
    piece.lastHeard before = (lastHeardIn piece.lexemes).or before := by
  cases piece with
  | single lexeme =>
    unfold lastHeard lastHeardIn lexemes
    by_cases hs : lexeme.kind.isSilent = true
    · simp [hs]
    · simp [hs]
  | docComment body =>
    have hsilent : (docComment body).lexemes.filter (!·.kind.isSilent) = [] := by
      rw [List.filter_eq_nil_iff]
      intro lexeme hm
      have hdoc := Piece.Grouped.isDoc h lexeme hm
      simp [Kind.isSilent, hdoc]
    rw [lastHeardIn, hsilent]
    rfl

/-- In a run, the kind of a word is decided by the last lexeme before it that is not silent. -/
theorem Lexed.wordKind_at {mode : Mode} {before : Option Lexeme} {text : Text} {pieces : List Piece}
    (run : Lexed mode before text pieces) {i : Nat} {lexeme : Lexeme}
    (hi : (pieces.flatMap (·.lexemes))[i]? = some lexeme) (hw : lexeme.kind.isWord = true) :
    lexeme.kind =
      Lexeme.wordKind ((lastHeardIn ((pieces.flatMap (·.lexemes)).take i)).or before) lexeme.text := by
  induction run generalizing i with
  | done => cases hi
  | @cut mode after before text rest piece pieces h run ih =>
    have hgrouped : piece.Grouped := nextCut_grouped h
    rw [List.flatMap_cons] at hi ⊢
    by_cases hlt : i < piece.lexemes.length
    · rw [List.getElem?_append_left hlt] at hi
      cases piece with
      | single only =>
        obtain rfl : i = 0 := Nat.lt_one_iff.1 hlt
        obtain rfl : only = lexeme := Option.some.inj hi
        exact nextCut_word h hw
      | docComment body =>
        have hdoc := Piece.Grouped.isDoc hgrouped lexeme (List.mem_of_getElem? hi)
        rw [Kind.isDoc_of_isWord hw] at hdoc
        cases hdoc
    · have hle : piece.lexemes.length ≤ i := Nat.le_of_not_lt hlt
      rw [List.getElem?_append_right hle] at hi
      rw [List.take_append, List.take_of_length_le hle, lastHeardIn_append, Option.or_assoc, ← hgrouped.lastHeard_eq]
      exact ih hi

/-! ## What spells a keyword -/

/-- Only the k among the letters of ASCII is the lower case of something above ASCII as well. -/
theorem Text.lowerRuns_ascii : ∀ run ∈ lowerRuns, 0 < run.first ∧ (0x80 ≤ (run.first : Int) + run.shift ∨
    run.first = run.last ∧ (run.first : Int) + run.shift = 'k'.toNat) := by
  decide +kernel

/-- A small letter that keywords are spelled with. -/
def Text.isKeyLetter (c : Char) : Bool := c.isLower && c != 'k'

theorem Text.toNat_of_isAlpha {c : Char} (h : c.isAlpha = true) : 65 ≤ c.toNat ∧ c.toNat < 0x80 := by
  rcases Bool.or_eq_true_iff.1 h with hupper | hlower
  · obtain ⟨hlow, hhigh⟩ : 'A'.val ≤ c.val ∧ c.val ≤ 'Z'.val := of_decide_eq_true hupper
    exact ⟨UInt32.le_iff_toNat_le.1 hlow, Nat.lt_of_le_of_lt (UInt32.le_iff_toNat_le.1 hhigh) (by decide)⟩
  · obtain ⟨hlow, hhigh⟩ := Bool.and_eq_true_iff.1 hlower
    have hlow : 'a'.val ≤ c.val := of_decide_eq_true hlow
    have hhigh : c.val ≤ 'z'.val := of_decide_eq_true hhigh
    exact ⟨Nat.le_trans (by decide) (UInt32.le_iff_toNat_le.1 hlow),
      Nat.lt_of_le_of_lt (UInt32.le_iff_toNat_le.1 hhigh) (by decide)⟩

theorem Text.isAlpha_of_lowerChar {letter c : Char} (hl : isKeyLetter letter = true) (h : lowerChar c = letter) :
    c.isAlpha = true := by
  rw [isKeyLetter, Bool.and_eq_true, bne_iff_ne] at hl
  obtain ⟨hsmall, hk⟩ := hl
  have halpha : letter.isAlpha = true := Bool.or_eq_true_iff.2 (Or.inr hsmall)
  obtain ⟨hlow, hhigh⟩ := toNat_of_isAlpha halpha
  have hfree : ∀ run ∈ lowerRuns, run.has ((letter.toNat : Int) - run.shift).toNat = false := by
    intro run hm
    by_contra hhas
    simp only [LowerRun.has, Bool.not_eq_false, Bool.and_eq_true, decide_eq_true_eq] at hhas
    obtain ⟨hpos, hfar | ⟨honly, hsum⟩⟩ := lowerRuns_ascii run hm
    · omega
    · have hcode : letter.toNat = 'k'.toNat := by omega
      exact hk (Char.toNat_inj.1 hcode)
  have hne : letter ≠ '\x00' := by
    rintro rfl
    cases hsmall
  have hlower := toLower_of_lowerChar hne hfree h
  by_cases hupper : c.isUpper = true
  · exact Bool.or_eq_true_iff.2 (Or.inl hupper)
  · have hsame : c.toLower = c := dif_neg fun hrange => hupper (decide_eq_true hrange)
    rw [← hsame, hlower]
    exact halpha

/-- A text whose lower case is a keyword has two characters at least, and starts with a letter. -/
theorem Text.starts_of_lower {entry : String × Kind} (he : entry ∈ Kind.keywords) {text : Text}
    (h : lower text = entry.1.toList) : ∃ c d more, text = c :: d :: more ∧ c.isAlpha = true := by
  have htable : ∀ entry ∈ Kind.keywords, 2 ≤ entry.1.toList.length ∧ entry.1.toList.all isKeyLetter = true := by
    decide
  obtain ⟨hlong, hletters⟩ := htable entry he
  cases text with
  | nil =>
    rw [← h] at hlong
    cases hlong
  | cons c rest =>
    have hlower : lowered [] c rest ++ lowerAfter [c] rest = entry.1.toList := h
    have hfirst : ∀ letter ∈ lowered [] c rest, isKeyLetter letter = true := by
      intro letter hm
      apply List.all_eq_true.1 hletters
      rw [← hlower]
      exact List.mem_append_left _ hm
    unfold lowered at hfirst hlower
    split at hfirst
    · -- a capital sigma becomes a sigma of one of two forms
      have hsigma := hfirst _ List.mem_cons_self
      split at hsigma
      · cases hsigma
      · cases hsigma
    · split at hfirst
      · -- a dotted capital I leaves its dot
        have hdot := hfirst (Char.ofNat 0x307) (List.mem_cons_of_mem _ List.mem_cons_self)
        cases hdot
      · next hsigma hdotted =>
        rw [if_neg hsigma, if_neg hdotted] at hlower
        have halpha := isAlpha_of_lowerChar (hfirst _ List.mem_cons_self) rfl
        cases rest with
        | nil =>
          rw [← hlower] at hlong
          exact absurd hlong (Nat.lt_irrefl 1)
        | cons d more => exact ⟨c, d, more, rfl, halpha⟩

/-- A letter of ASCII is no digit of any script. -/
theorem Text.isDigit_of_isAlpha {c : Char} (h : c.isAlpha = true) : isDigit c = false := by
  have hranges : ∀ range ∈ digitRanges, 0x80 ≤ range.1 := by decide
  obtain ⟨hlow, hhigh⟩ := toNat_of_isAlpha h
  have hplain : c.isDigit = false := by
    rw [Char.isDigit, Bool.and_eq_false_iff, decide_eq_false_iff_not, decide_eq_false_iff_not]
    refine Or.inr fun hle => ?_
    have hnine : c.toNat ≤ 57 := UInt32.le_iff_toNat_le.1 hle
    omega
  have hother : digitRanges.has c = false := by
    unfold Ranges.has
    rw [List.any_eq_false]
    intro range hm
    have hfar := hranges range hm
    simp only [Bool.and_eq_true, decide_eq_true_eq, not_and]
    omega
  rw [isDigit, hplain, hother]
  rfl

/-- A text that spells a keyword is of the kind of a word, if it is neither text outside code nor in a comment. -/
theorem Kind.Form.isWord_of_spelling {kind : Kind} {text rest : Text} (h : kind.Form text rest)
    (hcode : kind ≠ .inlineHtml) (hheard : kind.isSilent = false) {entry : String × Kind}
    (he : entry ∈ Kind.keywords) (hs : Text.lower text = entry.1.toList) : kind.isWord = true := by
  obtain ⟨c, d, more, rfl, hc⟩ := Text.starts_of_lower he hs
  have hne : ∀ e : Char, e.isAlpha = false → e ≠ c := by
    intro e hno heq
    rw [heq, hc] at hno
    cases hno
  have hnumber : Lexeme.startsNumber (c :: (d :: more ++ rest)) = false := by
    simp [Lexeme.startsNumber, Text.isDigit_of_isAlpha hc, (hne '.' rfl).symm]
  cases kind with
  | inlineHtml => exact absurd rfl hcode
  | openTag =>
    rcases h with htag | htag | htag
    · have htable : ∀ entry ∈ Kind.keywords, entry.1.toList ≠ "<?php".toList := by decide
      exact absurd (hs.symm.trans htag) (htable entry he)
    · exact absurd (List.cons.inj htag).1.symm (hne '<' rfl)
    · exact absurd (List.cons.inj htag).1.symm (hne '<' rfl)
  | variableName =>
    obtain ⟨name, htext, -⟩ := h
    exact absurd (List.cons.inj htext).1.symm (hne '$' rfl)
  | quoted =>
    rcases h with ⟨quote, hquote⟩ | ⟨later, hheredoc⟩
    · obtain ⟨body, htext, -⟩ := hquote.delimited
      have hmark := hquote.isQuote
      rw [← (List.cons.inj htext).1] at hmark
      simp [Lexeme.isQuote, (hne '\x27' rfl).symm, (hne '\x22' rfl).symm, (hne '\x60' rfl).symm] at hmark
    · exact absurd (List.cons.inj hheredoc).1 (hne '<' rfl)
  | integer =>
    have hstart := h.1
    rw [List.cons_append, hnumber] at hstart
    cases hstart
  | real =>
    have hstart := h.1
    rw [List.cons_append, hnumber] at hstart
    cases hstart
  | operator =>
    rcases h.1 with hop | hlength
    · have htable : ∀ operator ∈ operators, operator.head?.all (!·.isAlpha) = true := by decide
      have hno : (!c.isAlpha) = true := htable _ hop
      rw [hc] at hno
      cases hno
    · cases hlength
  | _ => first | rfl | exact absurd (List.cons.inj h).1.symm (hne _ rfl) | cases hheard

/-! ## Settled tokens -/

/-- What pairing may make of a token, as far as its text and its kind go. -/
structure Token.Settles (before after : Token) : Prop where
  content : after.content = before.content
  kind : after.kind = before.kind ∨ before.kind = .function ∧ after.kind = .closure ∨
    before.kind = .arrow ∧ after.kind = .word

/-- What does not tell a closure from a `function` nor a word from an `fn` stays as it was. -/
theorem Token.Settles.keeps {before after : Token} (h : before.Settles after) (f : Kind → Bool)
    (hclosure : f .closure = f .function) (hword : f .word = f .arrow) : f after.kind = f before.kind := by
  rcases h.kind with heq | ⟨hbefore, hafter⟩ | ⟨hbefore, hafter⟩
  · rw [heq]
  · rw [hbefore, hafter, hclosure]
  · rw [hbefore, hafter, hword]

theorem Token.Kept.settles {before after : Token} {rest : List Token} (kept : before.Kept after)
    (hkind : after.kind = settledKind before.kind rest) : before.Settles after := by
  refine ⟨kept.content, ?_⟩
  rw [hkind]
  rcases settledKind_cases before.kind rest with heq | hclosure | hword
  · exact Or.inl heq
  · exact Or.inr (Or.inl hclosure)
  · exact Or.inr (Or.inr hword)

theorem pair_settles {tokens paired : List Token} (h : pair tokens = .ok paired) :
    List.Forall₂ Token.Settles tokens paired := by
  rw [List.forall₂_iff_get]
  refine ⟨(pair_length h).symm, fun i hbefore hafter => ?_⟩
  obtain ⟨before, hb, kept, hkind⟩ := pair_getElem? h (List.getElem?_eq_getElem hafter)
  rw [List.getElem?_eq_getElem hbefore] at hb
  obtain rfl := Option.some.inj hb
  exact kept.settles hkind

/-- The tokens that are not silent. -/
def heardOnly (tokens : List Token) : List Token := tokens.filter (!·.kind.isSilent)

section Heard

variable {tokens paired : List Token}

theorem heardOnly_settles (h : List.Forall₂ Token.Settles tokens paired) :
    List.Forall₂ Token.Settles (heardOnly tokens) (heardOnly paired) := by
  refine List.rel_filter (fun before after hs => ?_) h
  show (!before.kind.isSilent) = true ↔ (!after.kind.isSilent) = true
  rw [hs.keeps Kind.isSilent rfl rfl]

theorem getLast?_settles (h : List.Forall₂ Token.Settles tokens paired) :
    Option.Rel Token.Settles tokens.getLast? paired.getLast? := by
  rw [← List.head?_reverse, ← List.head?_reverse]
  have hreverse := List.forall₂_reverse_iff.2 h
  generalize tokens.reverse = before at hreverse
  generalize paired.reverse = after at hreverse
  cases hreverse with
  | nil => exact .none
  | cons hfirst _ => exact .some hfirst

theorem any_getElem?_settles (h : List.Forall₂ Token.Settles tokens paired) (f : Kind → Bool)
    (hclosure : f .closure = f .function) (hword : f .word = f .arrow) (n : Nat) :
    paired[n]?.any (f ·.kind) = tokens[n]?.any (f ·.kind) := by
  induction h generalizing n with
  | nil => rfl
  | cons hs _ ih =>
    cases n with
    | zero => exact hs.keeps f hclosure hword
    | succ n => exact ih n

/-- The first token that is not silent, and what is heard behind it. -/
theorem heardOnly_eq (tokens : List Token) :
    heard tokens = [] ∧ heardOnly tokens = [] ∨
      ∃ token rest, heard tokens = token :: rest ∧ heardOnly tokens = token :: heardOnly rest := by
  induction tokens with
  | nil => exact Or.inl ⟨rfl, rfl⟩
  | cons token rest ih =>
    by_cases hs : token.kind.isSilent = true
    · have hheard : heard (token :: rest) = heard rest := List.dropWhile_cons_of_pos hs
      have honly : heardOnly (token :: rest) = heardOnly rest := List.filter_cons_of_neg (by simp [hs])
      rw [hheard, honly]
      exact ih
    · refine Or.inr ⟨token, rest, List.dropWhile_cons_of_neg hs, ?_⟩
      exact List.filter_cons_of_pos (by simp [hs])

theorem heard_head? (tokens : List Token) : (heard tokens).head? = (heardOnly tokens)[0]? := by
  rcases heardOnly_eq tokens with ⟨hheard, honly⟩ | ⟨token, rest, hheard, honly⟩
  · rw [hheard, honly]
    rfl
  · rw [hheard, honly]
    rfl

/-- A parameter list follows if the first token that is heard opens it, or the second behind an ampersand. -/
theorem opensParameters_eq (tokens : List Token) :
    opensParameters tokens = ((heardOnly tokens)[0]?.any (fun token : Token => token.kind == .openParen) ||
      (heardOnly tokens)[0]?.any (fun token : Token => token.kind == .ampersand) &&
        (heardOnly tokens)[1]?.any (fun token : Token => token.kind == .openParen)) := by
  unfold opensParameters
  rcases heardOnly_eq tokens with ⟨hheard, honly⟩ | ⟨token, rest, hheard, honly⟩
  · rw [hheard, honly]
    rfl
  · rw [hheard, honly]
    simp only [List.getElem?_cons_zero, List.getElem?_cons_succ, Option.any_some]
    rw [heard_head?]
    by_cases hmark : token.kind = .ampersand
    · simp [hmark]
    · simp [hmark]

end Heard

namespace Stream

variable {source : Text} {stream : Stream} {i : Nat} {token : Token}

/-- The last token before an index that is not silent. -/
def heardBefore? (stream : Stream) (i : Nat) : Option Token := (heardOnly (stream.toList.take i)).getLast?

/-- The tokens behind an index that are not silent. -/
def heardAfter (stream : Stream) (i : Nat) : List Token := heardOnly (stream.toList.drop (i + 1))

/-- Behind the token at the index stands a parenthesis, where silent tokens do not count, nor does one ampersand. -/
def OpensParameters (stream : Stream) (i : Nat) : Prop :=
  ∃ (n : Nat) (token : Token), (stream.heardAfter i)[n]? = some token ∧
    token.kind = .openParen ∧ token.content = "(".toList ∧
    (n = 0 ∨ n = 1 ∧ ∃ mark, (stream.heardAfter i)[0]? = some mark ∧ mark.kind = .ampersand)

/-- The token before the one at the index makes a plain name of a keyword: it accesses a member, it is a declaration,
or it imports functions. -/
def NamedBefore (stream : Stream) (i : Nat) (keyword : String) : Prop :=
  ∃ before, stream.heardBefore? i = some before ∧
    (before.content ∈ ["->".toList, "?->".toList, "::".toList] ∨ before.kind.ownsScope = true ∨
      before.kind = .useWord ∧ keyword = "function")

/-- The final kind of a parenthesis is its kind before, and its text is known. -/
theorem any_openParen_iff (h : ofSource source = .ok stream) (n : Nat) :
    (stream.heardAfter i)[n]?.any (·.kind == .openParen) = true ↔
      ∃ token, (stream.heardAfter i)[n]? = some token ∧ token.kind = .openParen ∧ token.content = "(".toList := by
  rw [Option.any_eq_true]
  constructor
  · rintro ⟨token, hn, hkind⟩
    have hkind := eq_of_beq hkind
    obtain ⟨j, hj⟩ := List.mem_iff_getElem?.1
      (List.mem_of_mem_drop (List.mem_filter.1 (List.mem_of_getElem? hn)).1)
    rw [Array.getElem?_toList] at hj
    have hform := form_at h hj
    rw [hkind] at hform
    exact ⟨token, hn, hkind, hform⟩
  · rintro ⟨token, hn, hkind, -⟩
    exact ⟨token, hn, beq_iff_eq.2 hkind⟩

/-- Before the kinds are settled, parameters follow just where they do in the stream. -/
theorem opensParameters_iff (h : ofSource source = .ok stream) (i : Nat) :
    opensParameters ((layout (scan source).pieces).drop (i + 1)) = true ↔ stream.OpensParameters i := by
  have hsettles := heardOnly_settles (List.forall₂_drop (i + 1) (pair_settles (ofSource_eq_ok.1 h).2))
  have hparen := any_getElem?_settles hsettles (· == .openParen) rfl rfl
  have hmark := any_getElem?_settles hsettles (· == .ampersand) rfl rfl
  rw [opensParameters_eq, ← hparen, ← hparen, ← hmark, Bool.or_eq_true, Bool.and_eq_true]
  change (stream.heardAfter i)[0]?.any _ = true ∨ (stream.heardAfter i)[0]?.any _ = true ∧
    (stream.heardAfter i)[1]?.any _ = true ↔ _
  rw [any_openParen_iff h, any_openParen_iff h, Option.any_eq_true]
  constructor
  · rintro (⟨token, hn, hkind, htext⟩ | ⟨⟨mark, hmark, hkind⟩, token, hn, hparen, htext⟩)
    · exact ⟨0, token, hn, hkind, htext, Or.inl rfl⟩
    · exact ⟨1, token, hn, hparen, htext, Or.inr ⟨rfl, mark, hmark, eq_of_beq hkind⟩⟩
  · rintro ⟨n, token, hn, hkind, htext, rfl | ⟨rfl, mark, hmark, hand⟩⟩
    · exact Or.inl ⟨token, hn, hkind, htext⟩
    · exact Or.inr ⟨⟨mark, hmark, beq_iff_eq.2 hand⟩, token, hn, hkind, htext⟩

/-- What the lexer knows before a word is what the stream shows before it. -/
theorem lastHeardIn_layout (source : Text) (i : Nat) :
    lastHeardIn (((scan source).pieces.flatMap (·.lexemes)).take i) =
      ((heardOnly ((layout (scan source).pieces).take i)).getLast?).map Token.lexeme := by
  rw [← layout_lexeme, ← List.map_take, lastHeardIn, List.filter_map, List.getLast?_map]
  rfl

theorem unkeys_iff (h : ofSource source = .ok stream) (i : Nat) {keyword : String} {kind : Kind}
    (hk : (keyword, kind) ∈ Kind.keywords) :
    (lastHeardIn (((scan source).pieces.flatMap (·.lexemes)).take i)).any (·.unkeys kind) = true ↔
      stream.NamedBefore i keyword := by
  have hfunction : kind = .function ↔ keyword = "function" := by
    have hall : ∀ entry ∈ Kind.keywords, entry.2 = .function ↔ entry.1 = "function" := by decide
    exact hall _ hk
  have hsettles := getLast?_settles
    (heardOnly_settles (List.forall₂_take i (pair_settles (ofSource_eq_ok.1 h).2)))
  rw [lastHeardIn_layout]
  unfold NamedBefore heardBefore?
  generalize (heardOnly ((layout (scan source).pieces).take i)).getLast? = laid at hsettles
  generalize (heardOnly (stream.toList.take i)).getLast? = final at hsettles
  cases hsettles with
  | none => simp
  | @some before after hs =>
    have howns := hs.keeps Kind.ownsScope rfl rfl
    have huse : after.kind = .useWord ↔ before.kind = .useWord := by
      have hsame := hs.keeps (· == .useWord) rfl rfl
      rw [← beq_iff_eq, hsame, beq_iff_eq]
    simp only [Option.map_some, Option.any_some, Option.some.injEq, exists_eq_left', Lexeme.unkeys, Token.lexeme,
      Lexeme.memberOperators, Bool.or_eq_true, Bool.and_eq_true, List.contains_iff_mem, beq_iff_eq, ← hs.content,
      ← howns, ← huse, hfunction, or_assoc]

/-- The kind of a word that spells a keyword is a plain word's after a token that names it, and is settled by what
follows it otherwise. -/
theorem kind_of_spelling (h : ofSource source = .ok stream) (hi : stream[i]? = some token)
    (hw : token.kind.isWord = true) {keyword : String} {kind : Kind} (hk : (keyword, kind) ∈ Kind.keywords)
    (hs : Text.lower token.content = keyword.toList) :
    (stream.NamedBefore i keyword → token.kind = .word) ∧
      (¬ stream.NamedBefore i keyword →
        token.kind = settledKind kind ((layout (scan source).pieces).drop (i + 1))) := by
  rw [← Array.getElem?_toList] at hi
  obtain ⟨laid, hlaid, kept, hkind⟩ := pair_getElem? (ofSource_eq_ok.1 h).2 hi
  have hlexeme : ((scan source).pieces.flatMap (·.lexemes))[i]? = some laid.lexeme := by
    rw [← layout_lexeme, List.getElem?_map, hlaid]
    rfl
  have hlaidWord : laid.kind.isWord = true := by
    rw [← (kept.settles hkind).keeps Kind.isWord rfl rfl]
    exact hw
  have hword : laid.kind = Lexeme.wordKind _ laid.content := (lexed_of_ofSource h).wordKind_at hlexeme hlaidWord
  rw [Option.or_none, ← kept.content, Lexeme.wordKind_of_spelling hk hs] at hword
  have hnamed := unkeys_iff h i hk
  constructor
  · intro hname
    rw [if_pos (hnamed.2 hname)] at hword
    rw [hkind, hword]
    rfl
  · intro hname
    rw [if_neg (mt hnamed.1 hname)] at hword
    rw [hkind, hword]

/-- The word at the index, which spells a keyword, is a plain word: after a token that names it, or as an `fn` without
parameters. -/
def PlainWord (stream : Stream) (i : Nat) (keyword : String) : Prop :=
  stream.NamedBefore i keyword ∨ keyword = "fn" ∧ ¬ stream.OpensParameters i

/-- What a word that spells a keyword is. -/
structure Classified (stream : Stream) (i : Nat) (keyword : String) (kind found : Kind) : Prop where
  plain : found = .word ↔ stream.PlainWord i keyword
  closure : ¬ stream.PlainWord i keyword → keyword = "function" → stream.OpensParameters i → found = .closure
  keyword : ¬ stream.PlainWord i keyword → ¬ (keyword = "function" ∧ stream.OpensParameters i) → found = kind

theorem classified (h : ofSource source = .ok stream) (hi : stream[i]? = some token) (hw : token.kind.isWord = true)
    {keyword : String} {kind : Kind} (hk : (keyword, kind) ∈ Kind.keywords)
    (hs : Text.lower token.content = keyword.toList) : stream.Classified i keyword kind token.kind := by
  have htable : ∀ entry ∈ Kind.keywords, entry.2 ≠ .word ∧
      (entry.2 = .function ↔ entry.1 = "function") ∧ (entry.2 = .arrow ↔ entry.1 = "fn") := by decide
  obtain ⟨hnotWord, hfunction, harrow⟩ := htable _ hk
  obtain ⟨hnamed, hsettled⟩ := kind_of_spelling h hi hw hk hs
  by_cases hname : stream.NamedBefore i keyword
  · exact ⟨iff_of_true (hnamed hname) (Or.inl hname), fun hplain => absurd (Or.inl hname) hplain,
      fun hplain => absurd (Or.inl hname) hplain⟩
  · have hkind := hsettled hname
    have hopens := opensParameters_iff h i
    have hplain : stream.PlainWord i keyword ↔ keyword = "fn" ∧ ¬ stream.OpensParameters i := or_iff_right hname
    by_cases hisFunction : keyword = "function"
    · obtain rfl := hfunction.2 hisFunction
      have hno : ¬ stream.PlainWord i keyword := by
        rw [hplain, hisFunction]
        rintro ⟨heq, -⟩
        exact absurd heq (by decide)
      by_cases hopen : stream.OpensParameters i
      · have hclosure : token.kind = .closure := by rw [hkind, settledKind, if_pos (hopens.2 hopen)]
        exact ⟨iff_of_false (by rw [hclosure]; decide) hno, fun _ _ _ => hclosure,
          fun _ hneither => absurd ⟨hisFunction, hopen⟩ hneither⟩
      · have hdeclares : token.kind = .function := by rw [hkind, settledKind, if_neg (mt hopens.1 hopen)]
        exact ⟨iff_of_false (by rw [hdeclares]; decide) hno, fun _ _ hyes => absurd hyes hopen,
          fun _ _ => hdeclares⟩
    · by_cases hisArrow : keyword = "fn"
      · obtain rfl := harrow.2 hisArrow
        by_cases hopen : stream.OpensParameters i
        · have hkept : token.kind = .arrow := by rw [hkind, settledKind, if_pos (hopens.2 hopen)]
          have hno : ¬ stream.PlainWord i keyword := fun hyes => (hplain.1 hyes).2 hopen
          exact ⟨iff_of_false (by rw [hkept]; decide) hno, fun _ hf => absurd hf hisFunction, fun _ _ => hkept⟩
        · have hword : token.kind = .word := by rw [hkind, settledKind, if_neg (mt hopens.1 hopen)]
          have hyes : stream.PlainWord i keyword := hplain.2 ⟨hisArrow, hopen⟩
          exact ⟨iff_of_true hword hyes, fun hno => absurd hyes hno, fun hno => absurd hyes hno⟩
      · have hkept : token.kind = kind := by
          rw [hkind, settledKind_eq (mt hfunction.1 hisFunction) (mt harrow.1 hisArrow)]
        have hno : ¬ stream.PlainWord i keyword := fun hyes => hisArrow (hplain.1 hyes).1
        exact ⟨iff_of_false (by rw [hkept]; exact hnotWord) hno, fun _ hf => absurd hf hisFunction,
          fun _ _ => hkept⟩

/-- Words that spell a keyword, in the stream of a source, are what the tokens around them make them: a token that is
neither text outside code nor in a comment is such a word if its lower case is a keyword.

* It is a plain word exactly after a member access or a declaration, as a `function` after `use`, and as an `fn` that
  no parameters follow.
* Otherwise it is a closure, if it is a `function` that parameters follow, and else the keyword that it spells.
* A `function` that declares a name is such a word, and one that is neither plain nor a closure. -/
theorem keywords_classified (h : ofSource source = .ok stream) :
    (∀ (i : Nat) (token : Token), stream[i]? = some token →
      token.kind ≠ .inlineHtml → token.kind.isSilent = false →
      ∀ keyword kind, (keyword, kind) ∈ Kind.keywords → Text.lower token.content = keyword.toList →
        stream.Classified i keyword kind token.kind) ∧
    ∀ (i : Nat) (token : Token), stream[i]? = some token →
      (token.kind = .function ↔ token.kind ≠ .inlineHtml ∧ token.kind.isSilent = false ∧
        Text.lower token.content = "function".toList ∧ ¬ stream.PlainWord i "function" ∧
        ¬ stream.OpensParameters i) := by
  have hall : ∀ (i : Nat) (token : Token), stream[i]? = some token →
      token.kind ≠ .inlineHtml → token.kind.isSilent = false →
      ∀ keyword kind, (keyword, kind) ∈ Kind.keywords → Text.lower token.content = keyword.toList →
        stream.Classified i keyword kind token.kind := by
    intro i token hi hcode hheard keyword kind hk hs
    exact classified h hi ((form_at h hi).isWord_of_spelling hcode hheard hk hs) hk hs
  refine ⟨hall, fun i token hi => ⟨fun hkind => ?_, ?_⟩⟩
  · have hform := form_at h hi
    rw [hkind] at hform ⊢
    have hclass := hall i token hi (by rw [hkind]; decide) (by rw [hkind]; rfl) "function" .function
      List.mem_cons_self hform.2
    rw [hkind] at hclass
    have hplain : ¬ stream.PlainWord i "function" := mt hclass.plain.2 (by decide)
    refine ⟨by decide, rfl, hform.2, hplain, fun hopens => ?_⟩
    exact absurd (hclass.closure hplain rfl hopens) (by decide)
  · rintro ⟨hcode, hheard, hs, hplain, hopens⟩
    have hclass := hall i token hi hcode hheard "function" .function List.mem_cons_self hs
    exact hclass.keyword hplain fun hboth => hopens hboth.2

/-- An import of a function, a function that returns a reference, and a closure that does, with comments between. -/
def functionWords : Text := "<?= use/* a */Function;FUNCTION&g();function/** b */&();".toList

theorem keywords_classified_references :
    ∃ stream, ofSource functionWords = .ok stream ∧ stream.PlainWord 4 "function" ∧
      (∃ token : Token, stream[6]? = some token ∧ token.kind = .function ∧ ¬ stream.PlainWord 6 "function" ∧
        ¬ stream.OpensParameters 6) ∧
      ∃ token : Token, stream[12]? = some token ∧ token.content = "function".toList ∧ stream.OpensParameters 12 ∧
        token.kind = .closure := by
  have hrun : (ofSource functionWords).toOption.any (fun stream : Stream =>
      stream[4]?.any (fun token : Token => token.kind = .word ∧ Text.lower token.content = "function".toList) &&
      stream[6]?.any (fun token : Token => token.kind = .function) &&
      stream[12]?.any (fun token : Token => token.kind = .closure ∧ token.content = "function".toList) &&
      (stream.heardAfter 12)[0]?.any (fun token : Token => token.kind = .ampersand) &&
      (stream.heardAfter 12)[1]?.any (fun token : Token => token.kind = .openParen ∧ token.content = "(".toList)) =
        true := by
    decide +kernel
  obtain ⟨stream, h, hat⟩ := exists_eq_ok_of_any hrun
  simp only [Bool.and_eq_true, Option.any_eq_true, decide_eq_true_eq] at hat
  obtain ⟨⟨⟨⟨⟨imported, hi, hword, hspelled⟩, declared, hj, hfunction⟩, closure, hk, hclosure, hcontent⟩,
    mark, hmark, hand⟩, paren, hparen, hopen, htext⟩ := hat
  obtain ⟨hall, hfunctions⟩ := keywords_classified h
  have himported := hall 4 imported hi (by rw [hword]; decide) (by rw [hword]; rfl) "function" .function
    List.mem_cons_self hspelled
  obtain ⟨-, -, -, hdeclared⟩ := (hfunctions 6 declared hj).1 hfunction
  have hlower : Text.lower closure.content = "function".toList := by
    rw [hcontent]
    decide +kernel
  have hclass := hall 12 closure hk (by rw [hclosure]; decide) (by rw [hclosure]; rfl) "function" .function
    List.mem_cons_self hlower
  have hopens : stream.OpensParameters 12 := ⟨1, paren, hparen, hopen, htext, Or.inr ⟨rfl, mark, hmark, hand⟩⟩
  have hplain : ¬ stream.PlainWord 12 "function" := mt hclass.plain.2 (by rw [hclosure]; decide)
  exact ⟨stream, h, himported.plain.1 hword, ⟨declared, hj, hfunction, hdeclared⟩, closure, hk, hcontent, hopens,
    hclass.closure hplain rfl hopens⟩

end Stream

end DocLint
