import DocLint.Proofs.FramedText

/-!
# Rules in a frame

In a frame a rule finds what it finds without, put into the frame, as long as it does not come to the end of
the text that more text follows (`Frame.Keeps`). So does the first rule that applies (`Frame.nextCut_put`).
-/

namespace DocLint

/-- A piece with the ends of lines in it written another way. -/
def Piece.spell (e : LineEnd) : Piece → Piece
  | single lexeme => single (lexeme.spell e)
  | docComment body => docComment (body.map (·.spell e))

namespace Frame

/-- A cut of a text that is put into a frame. -/
def putCut (frame : Frame) : Cut → Cut
  | .taken piece mode rest => .taken (piece.spell frame.lineEnd) mode (frame.put rest)
  | .refused fault => .refused fault

/-- The cut leaves some text, or no more text follows. -/
def Settled (frame : Frame) : Cut → Prop
  | .taken _ _ rest => frame.more = [] ∨ rest ≠ []
  | .refused _ => frame.more = []

/-- What the rule finds in a text, `framed` finds in the frame. -/
def Keeps (frame : Frame) (rule framed : Text → Option Cut) (text : Text) : Prop :=
  (∀ cut, rule text = some cut → frame.Settled cut) →
    framed (frame.put text) = (rule text).map frame.putCut

variable {frame : Frame} {c : Char} {text rest : Text}

theorem putCut_single {kind : Kind} (h : '\n' ∉ text) :
    frame.putCut (.single kind text rest) = .single kind text (frame.put rest) := by
  simp [putCut, Cut.single, Piece.spell, Lexeme.spell, Text.spell_of_not_mem h]

/-- Behind the mark that it starts with, the text goes on in the frame. -/
theorem drop_put {mark : Text} (hm : '\n' ∉ mark) (h : mark <+: text) :
    (frame.put text).drop mark.length = frame.put (text.drop mark.length) := by
  obtain ⟨after, rfl⟩ := h
  rw [put_append hm, List.drop_left, List.drop_left]

/-! ## White space, tags and comments -/

theorem gapRule_put (h : frame.Fits text) : frame.Keeps gapRule gapRule text := by
  intro _
  have hgap : Blind Text.isGap := by decide
  rw [gapRule, gapRule, head?_put_any hgap.1 h, takeWhile_put h hgap, dropWhile_put h hgap]
  split
  · rfl
  · rfl

theorem closeTagRule_put (h : frame.Fits text) : frame.Keeps closeTagRule closeTagRule text := by
  intro _
  have hmark : Foreign "?>".toList := by decide
  rw [closeTagRule, closeTagRule, after?_put h hmark, Option.map_map, Option.map_map]
  rfl

theorem attributeRule_put (h : frame.Fits text) : frame.Keeps attributeRule attributeRule text := by
  intro _
  have hmark : Foreign "#[".toList := by decide
  rw [attributeRule, attributeRule, after?_put h hmark, Option.map_map, Option.map_map]
  rfl

theorem lineCommentRule_put (h : frame.Fits text) :
    frame.Keeps lineCommentRule lineCommentRule text := by
  intro hsettled
  have hhash : Foreign "#".toList := by decide
  have hslashes : Foreign "//".toList := by decide
  rw [lineCommentRule] at hsettled ⊢
  rw [isPrefixOf_put h hhash, isPrefixOf_put h hslashes, lineCommentRule]
  split
  · next hstart =>
    rw [if_pos hstart] at hsettled
    rw [lineComment_put h (hsettled _ rfl)]
    rfl
  · rfl

/-- Behind the end of a block comment the text goes on in the frame. -/
theorem drop_closing_put {inner body after : Text}
    (hcut : Text.cut? "*/".toList inner = some (body, after)) :
    (frame.put after).drop 2 = frame.put (after.drop 2) :=
  drop_put (show '\n' ∉ "*/".toList by decide) (Text.cut?_eq_some hcut).2

theorem docCommentRule_put (h : frame.Fits text) :
    frame.Keeps docCommentRule docCommentRule text := by
  intro hsettled
  have hopen : Foreign "/**".toList := by decide
  have hslash : Foreign "/".toList := by decide
  have hclose : Foreign "*/".toList := by decide
  rw [docCommentRule] at hsettled ⊢
  rw [after?_put h hopen, docCommentRule]
  cases hinner : Text.after? "/**".toList text with
  | none => rfl
  | some inner =>
    have hfits : frame.Fits inner := by
      refine Fits.after ?_ hopen
      rwa [Text.after?_eq_some.1 hinner]
    rw [hinner] at hsettled
    dsimp only [Option.map_some] at hsettled ⊢
    rw [isPrefixOf_put hfits hslash]
    by_cases hshort : "/".toList.isPrefixOf inner = true
    · rw [if_pos hshort, if_pos hshort]
      rfl
    · rw [if_neg hshort] at hsettled
      rw [if_neg hshort, if_neg hshort]
      cases hcut : Text.cut? "*/".toList inner with
      | none =>
        rw [hcut] at hsettled
        rw [cut?_put hfits hclose (by decide) (Or.inl (hsettled _ rfl)), hcut]
        rfl
      | some found =>
        obtain ⟨body, after⟩ := found
        have hplain : frame.lineEnd = .crlf → '\r' ∉ body := by
          intro hcrlf hm
          refine hfits.plain hcrlf ?_
          rw [← (Text.cut?_eq_some hcut).1]
          exact List.mem_append_left _ hm
        rw [cut?_put hfits hclose (by decide) (Or.inr (by rw [hcut]; exact Option.some_ne_none _)), hcut]
        simp only [Option.map_some, putCut, Piece.spell]
        rw [Lexeme.docBody_spell true hplain, drop_closing_put hcut]

theorem blockCommentRule_put (h : frame.Fits text) :
    frame.Keeps blockCommentRule blockCommentRule text := by
  intro hsettled
  have hopen : Foreign "/*".toList := by decide
  have hclose : Foreign "*/".toList := by decide
  rw [blockCommentRule] at hsettled ⊢
  rw [after?_put h hopen, blockCommentRule]
  cases hinner : Text.after? "/*".toList text with
  | none => rfl
  | some inner =>
    have hfits : frame.Fits inner := by
      refine Fits.after ?_ hopen
      rwa [Text.after?_eq_some.1 hinner]
    rw [hinner] at hsettled
    dsimp only [Option.map_some] at hsettled ⊢
    cases hcut : Text.cut? "*/".toList inner with
    | none =>
      rw [hcut] at hsettled
      rw [cut?_put hfits hclose (by decide) (Or.inl (hsettled _ rfl)), hcut]
      rfl
    | some found =>
      obtain ⟨body, after⟩ := found
      rw [cut?_put hfits hclose (by decide) (Or.inr (by rw [hcut]; exact Option.some_ne_none _)), hcut]
      simp only [Option.map_some, putCut, Cut.single, Piece.spell, Lexeme.spell, Text.spell_append]
      rw [drop_closing_put hcut, Text.spell_of_not_mem hopen.newline,
        Text.spell_of_not_mem hclose.newline]

/-! ## Words, strings and numbers -/

theorem isWordChar_blind : Blind isWordChar := by decide

theorem variableRule_put (h : frame.Fits (c :: rest)) :
    frame.Keeps variableRule variableRule (c :: rest) := by
  intro _
  by_cases hdollar : c = '$'
  · subst hdollar
    have hstart : isWordStart '\r' = isWordStart '\n' := by decide
    have hrest : frame.Fits rest := h.tail (by decide)
    rw [put_cons (by decide), variableRule, variableRule, head?_put_any hstart hrest,
      takeWhile_put hrest isWordChar_blind, dropWhile_put hrest isWordChar_blind]
    split
    · rfl
    · rfl
  · have hnone : ∀ after, variableRule (c :: after) = none := by
      intro after
      unfold variableRule
      split
      · next heq => exact absurd (List.cons.inj heq).1 hdollar
      · rfl
    rw [hnone]
    by_cases hc : c = '\n'
    · subst hc
      rw [put_newline]
      cases frame.lineEnd with
      | lf => rfl
      | crlf => rfl
    · rw [put_cons hc, hnone]
      rfl

theorem quotedRule_put (hc : c ≠ '\n') (h : frame.Fits (c :: rest)) :
    frame.Keeps quotedRule quotedRule (c :: rest) := by
  intro hsettled
  rw [put_cons hc, quotedRule]
  rw [quotedRule] at hsettled ⊢
  by_cases hquote : Lexeme.isQuote c = true
  · rw [if_pos hquote] at hsettled ⊢
    rw [if_pos hquote]
    have hrest : frame.Fits rest := h.tail (isQuote_plain hquote).2.2.2
    cases hfound : Lexeme.quotedFrom? c rest with
    | none =>
      rw [hfound] at hsettled
      rw [quotedFrom?_put hquote hrest (Or.inl (hsettled _ rfl)), hfound]
      rfl
    | some found =>
      rw [quotedFrom?_put hquote hrest (Or.inr (by rw [hfound]; exact Option.some_ne_none _)), hfound]
      simp only [Option.map_some, putCut, Cut.single, Piece.spell, Lexeme.spell, Text.spell_cons hc]
  · rw [if_neg hquote, if_neg hquote]
    rfl

theorem numberRule_put (hc : c ≠ '\n') (h : frame.Fits (c :: rest)) :
    frame.Keeps numberRule numberRule (c :: rest) := by
  intro _
  rw [put_cons hc, numberRule, numberRule, startsNumber_put h]
  by_cases hstarts : Lexeme.startsNumber (c :: rest) = true
  · rw [if_pos hstarts, if_pos hstarts]
    have hend : endsStatement c = false := by
      have hnone : ∀ d ∈ [';', '}'], Text.isDigit d = false ∧ d ≠ '.' := by decide +kernel
      cases hend : endsStatement c with
      | false => rfl
      | true =>
        obtain ⟨hdigit, hpoint⟩ := hnone c (by simpa using endsStatement_iff.1 hend)
        simp [Lexeme.startsNumber, hdigit, hpoint] at hstarts
    have hplain : '\n' ∉ (Lexeme.numberFrom [c] rest).1 :=
      newline_not_mem_numberFrom (by simpa using Ne.symm hc) rest
    dsimp only
    rw [numberFrom_put [c] (h.tail hend), Option.map_some, putCut_single hplain]
  · rw [if_neg hstarts, if_neg hstarts]
    rfl

theorem unkeys_spell (e : LineEnd) (before : Lexeme) (keyword : Kind) :
    (before.spell e).unkeys keyword = before.unkeys keyword := by
  have hplain : ∀ operator ∈ Lexeme.memberOperators, '\n' ∉ operator := by decide
  have hsame : Lexeme.memberOperators.contains (before.spell e).text =
      Lexeme.memberOperators.contains before.text := by
    rw [Bool.eq_iff_iff, List.contains_iff_mem, List.contains_iff_mem]
    constructor
    · intro hm
      have htext := (Text.spell_eq_iff (hplain _ hm)).1 (rfl : Text.spell e before.text = _)
      rwa [htext]
    · intro hm
      have htext : (before.spell e).text = before.text := Text.spell_of_not_mem (hplain _ hm)
      rwa [htext]
  rw [Lexeme.unkeys, Lexeme.unkeys, hsame]
  rfl

theorem wordKind_spell (e : LineEnd) (before : Option Lexeme) (word : Text) :
    Lexeme.wordKind (before.map (·.spell e)) word = Lexeme.wordKind before word := by
  rw [Lexeme.wordKind, Lexeme.wordKind]
  cases before with
  | none => rfl
  | some before => simp only [Option.map_some, Option.any_some, unkeys_spell]

theorem wordRule_put (before : Option Lexeme) (hc : c ≠ '\n') (h : frame.Fits (c :: rest)) :
    frame.Keeps (wordRule before) (wordRule (before.map (·.spell frame.lineEnd))) (c :: rest) := by
  intro _
  rw [put_cons hc, wordRule, wordRule]
  by_cases hstart : isWordStart c = true
  · have hend : endsStatement c = false := by
      cases hend : endsStatement c with
      | false => rfl
      | true =>
        rcases endsStatement_iff.1 hend with rfl | rfl
        · cases hstart
        · cases hstart
    have hrest := h.tail hend
    have hword : '\n' ∉ c :: rest.takeWhile isWordChar := by
      rw [List.mem_cons, not_or]
      exact ⟨Ne.symm hc, newline_not_mem_takeWhile (by decide) rest⟩
    have hspell := Text.spell_of_not_mem (e := frame.lineEnd)
      (newline_not_mem_takeWhile (show isWordChar '\n' = false by decide) rest)
    rw [if_pos hstart, if_pos hstart]
    dsimp only
    rw [takeWhile_put hrest isWordChar_blind, dropWhile_put hrest isWordChar_blind, hspell,
      wordKind_spell, Option.map_some, putCut_single hword]
  · rw [if_neg hstart, if_neg hstart]
    rfl

theorem heredocRule_put (h : frame.Fits text) : frame.Keeps heredocRule heredocRule text := by
  intro hsettled
  have hopen : Foreign "<<<".toList := by decide
  rw [heredocRule] at hsettled ⊢
  rw [after?_put h hopen, heredocRule]
  cases hinner : Text.after? "<<<".toList text with
  | none => rfl
  | some inner =>
    have hfits : frame.Fits inner := by
      refine Fits.after ?_ hopen
      rwa [Text.after?_eq_some.1 hinner]
    rw [hinner] at hsettled
    dsimp only [Option.map_some] at hsettled ⊢
    rw [heredocOpening?_put hfits]
    cases hopening : Lexeme.heredocOpening? inner with
    | none => rfl
    | some opening =>
      have hlabel := isLabel_of_opening hopening
      have hwhole : frame.Fits (opening.text ++ opening.rest) := by
        rwa [Lexeme.heredocOpening?_append hopening]
      rw [hopening] at hsettled
      dsimp only [Option.map_some] at hsettled ⊢
      cases hfound : Lexeme.heredocFrom? opening.label true opening.rest with
      | none =>
        rw [hfound] at hsettled
        have hmore : frame.more = [] := hsettled _ rfl
        rw [heredocFrom?_put hlabel (hwhole.suffix (Or.inl hmore)) (Or.inl hmore), hfound]
        rfl
      | some found =>
        have hsome : Lexeme.heredocFrom? opening.label true opening.rest ≠ none := by
          rw [hfound]
          exact Option.some_ne_none _
        have hne : opening.rest ≠ [] := by
          intro hnil
          rw [hnil] at hsome
          exact hsome rfl
        rw [heredocFrom?_put hlabel (hwhole.suffix (Or.inr hne)) (Or.inr hsome), hfound]
        simp only [Option.map_some, putCut, Cut.single, Piece.spell, Lexeme.spell, Text.spell_append,
          Text.spell_of_not_mem hopen.newline]

/-! ## Operators -/

theorem operatorRule_put (h : frame.Fits text) : frame.Keeps operatorRule operatorRule text := by
  intro _
  have hforeign : ∀ operator ∈ operators, Foreign operator := by decide
  have hfind : operators.find? (·.isPrefixOf (frame.put text)) =
      operators.find? (·.isPrefixOf text) :=
    List.find?_congr fun operator hm => isPrefixOf_put h (hforeign operator hm)
  rw [operatorRule, operatorRule, hfind]
  cases hop : operators.find? (·.isPrefixOf text) with
  | none => rfl
  | some operator =>
    have hplain := (hforeign operator (List.mem_of_find?_eq_some hop)).newline
    have hfound := List.find?_some hop
    have hprefix : operator <+: text := List.isPrefixOf_iff_prefix.1 hfound
    rw [Option.map_some, Option.map_some, Option.map_some, putCut_single hplain, drop_put hplain hprefix]

theorem characterRule_put (hc : c ≠ '\n') : frame.Keeps characterRule characterRule (c :: rest) := by
  intro _
  have hplain : '\n' ∉ [c] := by simpa using Ne.symm hc
  rw [put_cons hc, characterRule, characterRule, Option.map_some, putCut_single hplain]

/-! ## Text outside code -/

theorem openTag_iff (text : Text) :
    (Text.lower (text.take 5) == "<?php".toList) =
      "<?php".toList.isPrefixOf (text.map Text.lowerChar) := by
  rw [Bool.eq_iff_iff, beq_iff_eq, List.isPrefixOf_iff_prefix, Text.lower,
    Text.lowerAfter_eq_iff (by decide), List.prefix_iff_eq_take, List.map_take, eq_comm]
  rfl

theorem openTag_put (h : frame.Fits text) :
    (Text.lower ((frame.put text).take 5) == "<?php".toList) =
      (Text.lower (text.take 5) == "<?php".toList) := by
  have hlower : ∀ c ∈ ['\r', '\n', ';', '}'], Text.lowerChar c ∉ "<?php".toList := by decide +kernel
  rw [openTag_iff, openTag_iff]
  refine Text.isPrefixOf_map_spell Text.lowerChar (hlower _ (by decide)) (hlower _ (by decide)) ?_
  rcases h.exists_mem with hmore | ⟨c, hc, hend⟩
  · exact Or.inl hmore
  · refine Or.inr ⟨c, hc, hlower c ?_⟩
    rcases endsStatement_iff.1 hend with rfl | rfl
    · decide
    · decide

/-- A tag of a given size without line ends. -/
theorem openTag_single_put {size : Nat} (hsize : (text.take size).length = size)
    (hplain : '\n' ∉ text.take size) :
    (Cut.single .openTag ((frame.put text).take size) ((frame.put text).drop size)) =
      frame.putCut (.single .openTag (text.take size) (text.drop size)) := by
  have hput : frame.put text = text.take size ++ frame.put (text.drop size) := by
    rw [← put_append hplain, List.take_append_drop]
  rw [putCut_single hplain, hput, List.take_left' hsize, List.drop_left' hsize]

theorem openTag_long (h : (Text.lower (text.take 5) == "<?php".toList) = true) :
    (text.take 5).length = 5 ∧ '\n' ∉ text.take 5 := by
  rw [beq_iff_eq, Text.lower, Text.lowerAfter_eq_iff (by decide)] at h
  have hlower : Text.lowerChar '\n' ∉ "<?php".toList := by decide
  refine ⟨?_, fun hm => hlower ?_⟩
  · rw [← List.length_map Text.lowerChar, h]
    rfl
  · rw [← h]
    exact List.mem_map_of_mem hm

theorem take_of_isPrefixOf {mark : Text} (h : mark.isPrefixOf text = true) :
    text.take mark.length = mark :=
  (List.prefix_iff_eq_take.1 (List.isPrefixOf_iff_prefix.1 h)).symm

theorem openTagRule_put (h : frame.Fits text) : frame.Keeps openTagRule openTagRule text := by
  intro _
  have hopen : Foreign "<?".toList := by decide
  have hecho : Foreign "<?=".toList := by decide
  rw [openTagRule, openTagRule, isPrefixOf_put h hopen, openTag_put h, isPrefixOf_put h hecho]
  by_cases hstart : "<?".toList.isPrefixOf text = true
  · rw [if_pos hstart, if_pos hstart, Option.map_some]
    dsimp only
    congr 1
    split
    · next hlong =>
      obtain ⟨hsize, hplain⟩ := openTag_long hlong
      exact openTag_single_put hsize hplain
    · split
      · next hequal =>
        have htake : text.take 3 = "<?=".toList := take_of_isPrefixOf hequal
        exact openTag_single_put (by rw [htake]; rfl) (by rw [htake]; decide)
      · have htake : text.take 2 = "<?".toList := take_of_isPrefixOf hstart
        exact openTag_single_put (by rw [htake]; rfl) (by rw [htake]; decide)
  · rw [if_neg hstart, if_neg hstart]
    rfl

theorem put_isEmpty (h : frame.Fits text) : (frame.put text).isEmpty = text.isEmpty := by
  cases text with
  | nil => rw [put_nil h.more_of_nil]
  | cons c rest =>
    have hne : frame.put (c :: rest) ≠ [] := by
      simp [put]
    rw [List.isEmpty_cons, List.isEmpty_eq_false_iff]
    exact hne

theorem inlineHtmlRule_put (h : frame.Fits text) : frame.Keeps inlineHtmlRule inlineHtmlRule text := by
  intro hsettled
  have hmark : Foreign "<?".toList := by decide
  rw [inlineHtmlRule] at hsettled ⊢
  rw [inlineHtmlRule, put_isEmpty h]
  by_cases hempty : text.isEmpty = true
  · rw [if_pos hempty, if_pos hempty]
    rfl
  · rw [if_neg hempty] at hsettled
    rw [if_neg hempty, if_neg hempty]
    cases hcut : Text.cut? "<?".toList text with
    | none =>
      rw [hcut] at hsettled
      have hmore : frame.more = [] := (hsettled _ rfl).resolve_right fun hne => hne rfl
      have hall : frame.put text = Text.spell frame.lineEnd text := by rw [put, hmore, List.append_nil]
      rw [cut?_put h hmark (by decide) (Or.inl hmore), hcut, hall]
      simp [putCut, Piece.spell, Lexeme.spell, put_nil hmore]
    | some found =>
      rw [cut?_put h hmark (by decide) (Or.inr (by rw [hcut]; exact Option.some_ne_none _)), hcut]
      rfl

/-! ## The next cut -/

/-- A list of rules keeps what each of them keeps. -/
theorem findSome?_put {pairs : List ((Text → Option Cut) × (Text → Option Cut))}
    (h : ∀ pair ∈ pairs, frame.Keeps pair.1 pair.2 text)
    (hsettled : ∀ cut, (pairs.map (·.1)).findSome? (· text) = some cut → frame.Settled cut) :
    (pairs.map (·.2)).findSome? (· (frame.put text)) =
      ((pairs.map (·.1)).findSome? (· text)).map frame.putCut := by
  induction pairs with
  | nil => rfl
  | cons pair pairs ih =>
    rw [List.map_cons, List.map_cons, List.findSome?_cons, List.findSome?_cons]
    rw [List.map_cons, List.findSome?_cons] at hsettled
    have hfirst := h pair List.mem_cons_self
    cases hpair : pair.1 text with
    | none =>
      rw [hpair] at hsettled
      rw [hfirst (fun cut hcut => by rw [hpair] at hcut; cases hcut), hpair]
      exact ih (fun later hm => h later (List.mem_cons_of_mem _ hm)) hsettled
    | some cut =>
      rw [hpair] at hsettled
      rw [hfirst (fun cut' hcut => by rw [hpair] at hcut; exact hsettled cut' hcut), hpair]
      rfl

/-- The rules for code, each with itself in a frame. -/
def codeRules (frame : Frame) (before : Option Lexeme) :
    List ((Text → Option Cut) × (Text → Option Cut)) :=
  (rules before .code).zip (rules (before.map (·.spell frame.lineEnd)) .code)

theorem codeRules_put {before : Option Lexeme} (hc : c ≠ '\n') (h : frame.Fits (c :: rest)) :
    ∀ pair ∈ codeRules frame before, frame.Keeps pair.1 pair.2 (c :: rest) := by
  intro pair hm
  simp only [codeRules, rules, List.zip_cons_cons, List.zip_nil_right, List.mem_cons, List.not_mem_nil,
    or_false] at hm
  rcases hm with rfl | rfl | rfl | rfl | rfl | rfl | rfl | rfl | rfl | rfl | rfl | rfl | rfl
  · exact gapRule_put h
  · exact closeTagRule_put h
  · exact attributeRule_put h
  · exact lineCommentRule_put h
  · exact docCommentRule_put h
  · exact blockCommentRule_put h
  · exact variableRule_put h
  · exact quotedRule_put hc h
  · exact numberRule_put hc h
  · exact wordRule_put before hc h
  · exact heredocRule_put h
  · exact operatorRule_put h
  · exact characterRule_put hc

/-- White space is looked for first. -/
theorem nextCut_gap {before : Option Lexeme} {cut : Cut} (h : gapRule text = some cut) :
    nextCut .code before text = some cut := by
  rw [nextCut, rules, List.findSome?_cons, h]

/-- What is cut off next is the same in a frame. -/
theorem nextCut_put {mode : Mode} {before : Option Lexeme} (h : frame.Fits text)
    (hsettled : ∀ cut, nextCut mode before text = some cut → frame.Settled cut) :
    nextCut mode (before.map (·.spell frame.lineEnd)) (frame.put text) =
      (nextCut mode before text).map frame.putCut := by
  cases mode with
  | html =>
    have hkeeps : ∀ pair ∈ [(openTagRule, openTagRule), (inlineHtmlRule, inlineHtmlRule)],
        frame.Keeps pair.1 pair.2 text := by
      intro pair hm
      simp only [List.mem_cons, List.not_mem_nil, or_false] at hm
      rcases hm with rfl | rfl
      · exact openTagRule_put h
      · exact inlineHtmlRule_put h
    exact findSome?_put hkeeps hsettled
  | code =>
    cases text with
    | nil =>
      rw [put_nil h.more_of_nil]
      rfl
    | cons c rest =>
      by_cases hc : c = '\n'
      · -- only white space starts with a line feed, in a frame too
        subst hc
        obtain ⟨cut, hcut⟩ : ∃ cut, gapRule ('\n' :: rest) = some cut := ⟨_, rfl⟩
        have hput := gapRule_put h fun cut' hcut' => hsettled cut' (nextCut_gap hcut')
        rw [hcut] at hput
        rw [nextCut_gap hcut, nextCut_gap hput]
        rfl
      · exact findSome?_put (codeRules_put hc h) hsettled

end Frame

end DocLint
