import DocLint.Proofs.Positions
import DocLint.Proofs.TokenForms
import Mathlib.Computability.Language
import Mathlib.Order.CompletePartialOrder

/-!
# Streams are lexically sound

The tokens of a source stand in sections: text outside code, then code between its two tags, again and again,
where the last code may be left open. This is a regular language over the parts that tokens are (`sectioned`).
A run of the lexer is in it because the mode before and behind each cut fits the part that was cut off.

The forms of the lexemes in a run are those of the tokens of the stream: laying out keeps the lexemes, and
settling only makes a closure of a `function` and a word of an `fn`.
-/

namespace DocLint

open scoped Computability

/-! ## Sections -/

/-- One token of the given part. -/
def one (part : Part) : Language Part := {[part]}

/-- At most one piece of text outside code. -/
def someHtml : Language Part := 1 + one .html

/-- Code between its tags, and the text behind it. -/
def codeBlock : Language Part := one .enter * (one .code)∗ * one .leave * someHtml

/-- Code that goes on to the end, or none. -/
def openBlock : Language Part := 1 + one .enter * (one .code)∗

/-- A whole source. -/
def sectioned : Language Part := someHtml * codeBlock∗ * openBlock

/-- What may follow the tag that enters the code. -/
def inCode : Language Part := (one .code)∗ * (1 + one .leave * sectioned)

theorem cons_mem {part : Part} {parts : List Part} {language : Language Part} (h : parts ∈ language) :
    part :: parts ∈ one part * language :=
  Language.append_mem_mul (Set.mem_singleton [part]) h

theorem blocks_le_sectioned : codeBlock∗ * openBlock ≤ sectioned := by
  have hnone : (1 : Language Part) ≤ someHtml := le_sup_left
  calc codeBlock∗ * openBlock = 1 * (codeBlock∗ * openBlock) := (one_mul _).symm
    _ ≤ someHtml * (codeBlock∗ * openBlock) := mul_le_mul' hnone le_rfl
    _ = sectioned := (mul_assoc ..).symm

theorem html_mul_blocks_le : one .html * (codeBlock∗ * openBlock) ≤ sectioned := by
  have hsome : one .html ≤ someHtml := le_sup_right
  calc one .html * (codeBlock∗ * openBlock)
      ≤ someHtml * (codeBlock∗ * openBlock) := mul_le_mul' hsome le_rfl
    _ = sectioned := (mul_assoc ..).symm

/-- The tag and what follows it make up a whole block and the sections behind it, or a block that is left
open. -/
theorem enter_mul_inCode_le : one .enter * inCode ≤ codeBlock∗ * openBlock := by
  have hopen : one .enter * (one .code)∗ ≤ codeBlock∗ * openBlock := by
    calc one .enter * (one .code)∗ ≤ openBlock := le_sup_right
      _ = 1 * openBlock := (one_mul _).symm
      _ ≤ codeBlock∗ * openBlock := mul_le_mul' one_le_kstar le_rfl
  have hblock : one .enter * (one .code)∗ * (one .leave * sectioned) ≤ codeBlock∗ * openBlock := by
    calc one .enter * (one .code)∗ * (one .leave * sectioned)
        = codeBlock * codeBlock∗ * openBlock := by simp only [sectioned, codeBlock, mul_assoc]
      _ ≤ codeBlock∗ * openBlock := mul_le_mul' mul_kstar_le_kstar le_rfl
  calc one .enter * inCode
      = one .enter * (one .code)∗ + one .enter * (one .code)∗ * (one .leave * sectioned) := by
        rw [inCode, mul_add, mul_one, mul_add, mul_assoc]
    _ ≤ codeBlock∗ * openBlock := add_le hopen hblock

theorem code_mul_inCode_le : one .code * inCode ≤ inCode := by
  calc one .code * inCode = one .code * (one .code)∗ * (1 + one .leave * sectioned) := (mul_assoc ..).symm
    _ ≤ inCode := mul_le_mul' mul_kstar_le_kstar le_rfl

theorem leave_mul_sectioned_le : one .leave * sectioned ≤ inCode := by
  calc one .leave * sectioned ≤ 1 + one .leave * sectioned := le_sup_right
    _ = 1 * (1 + one .leave * sectioned) := (one_mul _).symm
    _ ≤ inCode := mul_le_mul' one_le_kstar le_rfl

theorem nil_mem_blocks : [] ∈ codeBlock∗ * openBlock :=
  Language.append_mem_mul (Language.nil_mem_kstar _) (Or.inl rfl)

theorem nil_mem_inCode : [] ∈ inCode :=
  Language.append_mem_mul (Language.nil_mem_kstar _) (Or.inl rfl)

theorem code_append_mem_inCode {codes parts : List Part} (hc : ∀ part ∈ codes, part = .code)
    (h : parts ∈ inCode) : codes ++ parts ∈ inCode := by
  induction codes with
  | nil => exact h
  | cons part codes ih =>
    obtain rfl := hc part List.mem_cons_self
    exact code_mul_inCode_le (cons_mem (ih fun later hl => hc later (List.mem_cons_of_mem _ hl)))

/-! ## Runs stand in sections -/

/-- Outside code, a tag is cut off if there is one, and otherwise the text up to the next. -/
theorem nextCut_html {before : Option Lexeme} {text rest : Text} {piece : Piece} {after : Mode}
    (h : nextCut .html before text = some (.taken piece after rest)) :
    "<?".toList <+: text ∧ after = .code ∨
      (¬ "<?".toList <+: text ∧ text ≠ []) ∧ after = .html ∧ (rest = [] ∨ "<?".toList <+: rest) := by
  rcases findSome?_cons_cases h with htag | ⟨hno, h⟩
  · unfold openTagRule at htag
    split at htag
    · next hopen =>
      have hcut := Option.some.inj htag
      simp only [Cut.single, Cut.taken.injEq] at hcut
      exact Or.inl ⟨List.isPrefixOf_iff_prefix.1 hopen, hcut.2.1.symm⟩
    · cases htag
  · have hclosed : ¬ "<?".toList <+: text := by
      intro hpre
      rw [openTagRule, if_pos (List.isPrefixOf_iff_prefix.2 hpre)] at hno
      cases hno
    rcases findSome?_cons_cases h with hhtml | ⟨-, h⟩
    · unfold inlineHtmlRule at hhtml
      split at hhtml
      · cases hhtml
      · next hne =>
        have hcut := Option.some.inj hhtml
        simp only [Cut.taken.injEq] at hcut
        refine Or.inr ⟨⟨hclosed, by simpa using hne⟩, hcut.2.1.symm, ?_⟩
        rw [← hcut.2.2]
        cases hfound : Text.cut? "<?".toList text with
        | none => exact Or.inl rfl
        | some found => exact Or.inr (Text.cut?_eq_some hfound).2
    · cases h

/-- The parts that the lexemes of pieces are. -/
def partsOf (pieces : List Piece) : List Part := (pieces.flatMap (·.lexemes)).map (·.kind.part)

theorem partsOf_cons (piece : Piece) (pieces : List Piece) :
    partsOf (piece :: pieces) = piece.lexemes.map (·.kind.part) ++ partsOf pieces := by
  simp [partsOf]

/-- A piece without code in it is one lexeme. -/
theorem Piece.eq_single {piece : Piece} (h : ∀ lexeme ∈ piece.lexemes, lexeme.kind.part ≠ .code) :
    ∃ lexeme, piece = single lexeme := by
  cases piece with
  | single lexeme => exact ⟨lexeme, rfl⟩
  | docComment body => exact absurd rfl (h docOpening List.mem_cons_self)

/-- What the parts of a run are, by the mode in which it starts. Outside code, text comes first only if there
is no tag. -/
theorem Lexed.partsOf_mem {mode : Mode} {before : Option Lexeme} {text : Text} {pieces : List Piece}
    (run : Lexed mode before text pieces) :
    match mode with
    | .html => partsOf pieces ∈ sectioned ∧
      (text = [] ∨ "<?".toList <+: text → partsOf pieces ∈ codeBlock∗ * openBlock)
    | .code => partsOf pieces ∈ inCode := by
  induction run with
  | done mode before =>
    cases mode with
    | html => exact ⟨blocks_le_sectioned nil_mem_blocks, fun _ => nil_mem_blocks⟩
    | code => exact nil_mem_inCode
  | @cut mode after before text rest piece pieces h _ ih =>
    have hparts := (nextCut_formed h).2
    rw [partsOf_cons]
    cases mode with
    | html =>
      have hnoCode : ∀ lexeme ∈ piece.lexemes, lexeme.kind.part ≠ .code := by
        intro lexeme hl hcode
        have hmode := (hparts lexeme hl).1
        rw [hcode] at hmode
        cases hmode
      obtain ⟨lexeme, rfl⟩ := Piece.eq_single hnoCode
      obtain ⟨hbefore, hafter⟩ := hparts lexeme List.mem_cons_self
      simp only [Piece.lexemes, List.map_cons, List.map_nil, List.singleton_append]
      rcases nextCut_html h with ⟨-, rfl⟩ | ⟨⟨hclosed, hne⟩, rfl, hrest⟩
      · have henter : lexeme.kind.part = .enter := by
          revert hbefore hafter
          cases lexeme.kind.part <;> decide
        have hinner : partsOf pieces ∈ inCode := ih
        have hmem := enter_mul_inCode_le (cons_mem hinner)
        rw [henter]
        exact ⟨blocks_le_sectioned hmem, fun _ => hmem⟩
      · have hhtml : lexeme.kind.part = .html := by
          revert hbefore hafter
          cases lexeme.kind.part <;> decide
        have hblocks : partsOf pieces ∈ codeBlock∗ * openBlock := ih.2 hrest
        rw [hhtml]
        refine ⟨html_mul_blocks_le (cons_mem hblocks), fun htag => ?_⟩
        rcases htag with hnil | htag
        · exact absurd hnil hne
        · exact absurd htag hclosed
    | code =>
      cases after with
      | code =>
        have hcodes : ∀ part ∈ piece.lexemes.map (·.kind.part), part = .code := by
          intro part hp
          obtain ⟨lexeme, hl, rfl⟩ := List.mem_map.1 hp
          obtain ⟨hbefore, hafter⟩ := hparts lexeme hl
          revert hbefore hafter
          cases lexeme.kind.part <;> decide
        exact code_append_mem_inCode hcodes ih
      | html =>
        have hleaves : ∀ lexeme ∈ piece.lexemes, lexeme.kind.part = .leave := by
          intro lexeme hl
          obtain ⟨hbefore, hafter⟩ := hparts lexeme hl
          revert hbefore hafter
          cases lexeme.kind.part <;> decide
        obtain ⟨lexeme, rfl⟩ := Piece.eq_single fun lexeme hl => by rw [hleaves lexeme hl]; decide
        simp only [Piece.lexemes, List.map_cons, List.map_nil, List.singleton_append]
        rw [hleaves lexeme List.mem_cons_self]
        exact leave_mul_sectioned_le (cons_mem ih.1)

/-! ## Runs keep to the forms -/

/-- Each lexeme has the form of its kind, before the text of those that follow it. -/
def AllFormed : List Lexeme → Prop
  | [] => True
  | lexeme :: rest => lexeme.kind.Form lexeme.text (rest.flatMap (·.text)) ∧ AllFormed rest

theorem AllFormed.getElem? {lexemes : List Lexeme} (h : AllFormed lexemes) {i : Nat} {lexeme : Lexeme}
    (hi : lexemes[i]? = some lexeme) :
    lexeme.kind.Form lexeme.text ((lexemes.drop (i + 1)).flatMap (·.text)) := by
  induction lexemes generalizing i with
  | nil => cases hi
  | cons first rest ih =>
    cases i with
    | zero =>
      obtain rfl := Option.some.inj hi
      exact h.1
    | succ i => exact ih h.2 hi

theorem AllFormed.append {body later : List Lexeme}
    (hb : ∀ lexeme ∈ body, ∀ rest, lexeme.kind.Form lexeme.text rest) (h : AllFormed later) :
    AllFormed (body ++ later) := by
  induction body with
  | nil => exact h
  | cons lexeme body ih =>
    exact ⟨hb lexeme List.mem_cons_self _, ih fun other ho => hb other (List.mem_cons_of_mem _ ho)⟩

theorem Piece.Formed.lexemes {piece : Piece} {later : List Lexeme}
    (h : piece.Formed (later.flatMap (·.text))) (hl : AllFormed later) :
    AllFormed (piece.lexemes ++ later) := by
  cases piece with
  | single lexeme => exact ⟨h, hl⟩
  | docComment body => exact AllFormed.append h.docComment_forms hl

theorem Lexed.formed {mode : Mode} {before : Option Lexeme} {text : Text} {pieces : List Piece}
    (run : Lexed mode before text pieces) : AllFormed (pieces.flatMap (·.lexemes)) := by
  induction run with
  | done => trivial
  | @cut mode after before text rest piece pieces h run ih =>
    have htext : (pieces.flatMap (·.lexemes)).flatMap (·.text) = rest := by
      rw [List.flatMap_assoc]
      exact run.text_eq
    have hpiece := (nextCut_formed h).1
    rw [← htext] at hpiece
    exact hpiece.lexemes ih

/-! ## Streams -/

/-- Settling keeps to the forms. -/
theorem settledKind_form {kind : Kind} {text rest : Text} (h : kind.Form text rest) (later : List Token) :
    (settledKind kind later).Form text rest := by
  rcases settledKind_cases kind later with heq | ⟨rfl, heq⟩ | ⟨rfl, heq⟩
  · rw [heq]
    exact h
  · rw [heq]
    exact h
  · rw [heq]
    exact h.1

theorem settledKind_part (kind : Kind) (later : List Token) : (settledKind kind later).part = kind.part := by
  rcases settledKind_cases kind later with heq | ⟨rfl, heq⟩ | ⟨rfl, heq⟩
  · rw [heq]
  · rw [heq]
    rfl
  · rw [heq]
    rfl

namespace Stream

variable {source : Text} {stream : Stream} {i : Nat} {token : Token}

theorem layout_lexeme (source : Text) :
    (layout (scan source).pieces).map Token.lexeme = (scan source).pieces.flatMap (·.lexemes) :=
  layoutFrom_lexeme .start 0 _

theorem textBefore_eq_lexemes (h : ofSource source = .ok stream) (i : Nat) :
    stream.textBefore i = (((scan source).pieces.flatMap (·.lexemes)).take i).flatMap (·.text) := by
  rw [textBefore_eq_layout h, flatMap_content, List.map_take, layout_lexeme]

theorem textFrom_eq_lexemes (h : ofSource source = .ok stream) (i : Nat) :
    stream.textFrom i = (((scan source).pieces.flatMap (·.lexemes)).drop i).flatMap (·.text) := by
  have hspan : (stream.toList.drop i).map Token.span =
      ((layout (scan source).pieces).drop i).map Token.span := by
    rw [List.map_drop, List.map_drop, span_eq_layout h]
  rw [textFrom, flatMap_content_of_span hspan, flatMap_content, List.map_drop, layout_lexeme]

/-- A token has the form of its kind, before the text that follows it. -/
theorem form_at (h : ofSource source = .ok stream) (hi : stream[i]? = some token) :
    token.kind.Form token.content (stream.textFrom (i + 1)) := by
  rw [← Array.getElem?_toList] at hi
  obtain ⟨before, hb, kept, hkind⟩ := pair_getElem? (ofSource_eq_ok.1 h).2 hi
  have hl : ((scan source).pieces.flatMap (·.lexemes))[i]? = some before.lexeme := by
    rw [← layout_lexeme, List.getElem?_map, hb]
    rfl
  rw [kept.content, hkind, textFrom_eq_lexemes h]
  exact settledKind_form ((lexed_of_ofSource h).formed.getElem? hl) _

theorem parts_mem_sectioned (h : ofSource source = .ok stream) :
    stream.toList.map (·.kind.part) ∈ sectioned := by
  have hpair := (ofSource_eq_ok.1 h).2
  have hparts : stream.toList.map (·.kind.part) =
      ((layout (scan source).pieces).map Token.lexeme).map (·.kind.part) := by
    refine List.ext_getElem? fun i => ?_
    rw [List.getElem?_map, List.getElem?_map, List.getElem?_map]
    cases hi : stream.toList[i]? with
    | none =>
      rw [List.getElem?_eq_none_iff, pair_length hpair, ← List.getElem?_eq_none_iff] at hi
      rw [hi]
      rfl
    | some token =>
      obtain ⟨before, hb, -, hkind⟩ := pair_getElem? hpair hi
      rw [hb]
      exact congrArg some ((congrArg Kind.part hkind).trans (settledKind_part _ _))
  rw [hparts, layout_lexeme]
  exact (lexed_of_ofSource h).partsOf_mem.1

/-- White space goes on as far as it can, so none follows it. -/
theorem gap_not_gap (h : ofSource source = .ok stream) {next : Token} (hi : stream[i]? = some token)
    (hnext : stream[i + 1]? = some next) (hk : token.kind = .gap) : next.kind ≠ .gap := by
  intro hgap
  have hfirst := form_at h hi
  have hsecond := form_at h hnext
  rw [hk, textFrom_eq hnext] at hfirst
  rw [hgap] at hsecond
  cases hcontent : next.content with
  | nil => exact content_ne_nil h hnext hcontent
  | cons c rest =>
    have hno := hfirst.stop c (by rw [hcontent]; rfl)
    rw [hsecond.all c (by rw [hcontent]; exact List.mem_cons_self)] at hno
    cases hno

/-- The tokens of a source stand in sections, and each is some text, written as its kind is, before the text
that follows it in the source. White space is never followed by white space. -/
theorem lexically_sound (h : ofSource source = .ok stream) :
    stream.toList.map (·.kind.part) ∈ sectioned ∧
    (∀ (i : Nat) (token : Token), stream[i]? = some token →
      ∃ rest, source = stream.textBefore i ++ token.content ++ rest ∧ token.content ≠ [] ∧
        token.kind.Form token.content rest) ∧
    ∀ (i : Nat) (token next : Token), stream[i]? = some token → stream[i + 1]? = some next →
      token.kind = .gap → next.kind ≠ .gap := by
  refine ⟨parts_mem_sectioned h, fun i token hi => ?_, fun i token next => gap_not_gap h⟩
  refine ⟨stream.textFrom (i + 1), ?_, content_ne_nil h hi, form_at h hi⟩
  rw [List.append_assoc, ← textFrom_eq hi, textBefore_append_textFrom h]

/-- A comment that ends before a tag, and a string with an escaped quote in it. -/
theorem lexically_sound_escaped :
    ∃ stream, ofSource "a<?php # b?>\nc<?= 'd\\'e';".toList = .ok stream ∧
      stream.toList.map (·.kind.part) =
        [.html, .enter, .code, .code, .leave, .html, .enter, .code, .code, .code] ∧
      stream.toList.map (·.kind.part) ∈ sectioned ∧
      IsLineComment "# b".toList "?>\nc<?= 'd\\'e';".toList ∧
      ∃ quote, IsQuoted quote "'d\\'e'".toList := by
  have hrun : (ofSource "a<?php # b?>\nc<?= 'd\\'e';".toList).toOption.any
      (fun stream =>
        (stream.toList.map (·.kind.part) ==
          [.html, .enter, .code, .code, .leave, .html, .enter, .code, .code, .code]) &&
        stream[3]?.any (fun token => token.kind = .comment ∧ token.content = "# b".toList ∧
          stream.textBefore 3 = "a<?php ".toList) &&
        stream[8]?.any (fun token => token.kind = .quoted ∧ token.content = "'d\\'e'".toList)) = true := by
    decide +kernel
  obtain ⟨stream, h, hat⟩ := exists_eq_ok_of_any hrun
  obtain ⟨hat, hquoted⟩ := Bool.and_eq_true_iff.1 hat
  obtain ⟨hparts, hcomment⟩ := Bool.and_eq_true_iff.1 hat
  obtain ⟨remark, hr, hremark⟩ := (Option.any_eq_true _ _).1 hcomment
  obtain ⟨string, hs, hstring⟩ := (Option.any_eq_true _ _).1 hquoted
  obtain ⟨hrkind, hrtext, hbefore⟩ := of_decide_eq_true hremark
  obtain ⟨hskind, hstext⟩ := of_decide_eq_true hstring
  obtain ⟨hsections, hforms, -⟩ := lexically_sound h
  obtain ⟨rest, hrest, -, hrform⟩ := hforms 3 remark hr
  obtain ⟨_, -, -, hsform⟩ := hforms 8 string hs
  rw [hrkind, hrtext] at hrform
  rw [hskind, hstext] at hsform
  rw [hrtext, hbefore] at hrest
  have htext : "a<?php # b".toList ++ "?>\nc<?= 'd\\'e';".toList = "a<?php # b".toList ++ rest := hrest
  rw [← List.append_cancel_left htext] at hrform
  refine ⟨stream, h, eq_of_beq hparts, hsections, hrform.resolve_right fun hblock => ?_,
    hsform.resolve_right (by decide)⟩
  obtain ⟨body, hbody⟩ := hblock.delimited
  simp at hbody

end Stream

end DocLint
