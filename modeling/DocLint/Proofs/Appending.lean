import DocLint.Proofs.AppendedTokens
import DocLint.Proofs.Events
import DocLint.Proofs.FileRecords
import DocLint.Proofs.FramedRules
import DocLint.Proofs.MirroredChecks
import DocLint.Proofs.Spelling

/-!
# Code behind a complete statement

If the last token of a source ends a statement, text that follows the source changes nothing of what was read
and found in it. The source is cut into the same pieces (`Lexed.scanFrom_append`), which become the same tokens
(`Stream.prefix_of_append`), and the checks of its functions report the same (`appended_text_keeps_reports`).
-/

namespace DocLint

/-! ## Lexing -/

theorem Lexeme.spell_lf (lexeme : Lexeme) : lexeme.spell .lf = lexeme := by
  rw [spell, Text.spell_lf]

theorem Piece.spell_lf (piece : Piece) : piece.spell .lf = piece := by
  cases piece with
  | single lexeme => rw [spell, Lexeme.spell_lf]
  | docComment body => simp [spell, Lexeme.spell_lf]

theorem Lexeme.Spelled.endsStatement {lexeme : Lexeme} (h : lexeme.Spelled)
    (hk : lexeme.kind.endsStatement = true) : lexeme = ⟨.semicolon, [';']⟩ ∨ lexeme = ⟨.closeBrace, ['}']⟩ := by
  obtain ⟨kind, text⟩ := lexeme
  rcases (by simpa [Kind.endsStatement] using hk : kind = .semicolon ∨ kind = .closeBrace) with rfl | rfl
  · have htext : text = [';'] := h [';'] rfl
    exact Or.inl (by rw [htext])
  · have htext : text = ['}'] := h ['}'] rfl
    exact Or.inr (by rw [htext])

/-- The text of pieces of which the last ends a statement. -/
theorem flatMap_text_concat (front : List Piece) (last : Lexeme) :
    (front ++ [Piece.single last]).flatMap (·.text) = front.flatMap (·.text) ++ last.text := by
  simp

/-- A cut that leaves some text is the same if more text follows the end of a statement. -/
theorem nextCut_append {mode after : Mode} {before : Option Lexeme} {text rest more : Text} {piece : Piece}
    {c : Char} (hlast : text.getLast? = some c) (hc : endsStatement c = true) (hrest : rest ≠ [])
    (h : nextCut mode before text = some (.taken piece after rest)) :
    nextCut mode before (text ++ more) = some (.taken piece after (rest ++ more)) := by
  have hfits : Frame.Fits ⟨.lf, more⟩ text := ⟨Or.inr ⟨c, hlast, hc⟩, fun he => by cases he⟩
  have hput : nextCut mode (before.map (·.spell .lf)) (Frame.put ⟨.lf, more⟩ text) =
      (nextCut mode before text).map (Frame.putCut ⟨.lf, more⟩) := by
    refine Frame.nextCut_put hfits fun cut hcut => ?_
    obtain rfl := Option.some.inj (h.symm.trans hcut)
    exact Or.inr hrest
  have hbefore : before.map (·.spell .lf) = before := by
    cases before with
    | none => rfl
    | some lexeme => exact congrArg some lexeme.spell_lf
  rw [h] at hput
  simpa [Frame.put, Frame.putCut, hbefore, Piece.spell_lf] using hput

/-- The end of a statement is cut off, whatever follows. -/
theorem nextCut_end {mode after : Mode} {before : Option Lexeme} {last : Lexeme} (hs : last.Spelled)
    (hk : last.kind.endsStatement = true)
    (h : nextCut mode before last.text = some (.taken (.single last) after [])) (more : Text) :
    nextCut mode before (last.text ++ more) = some (.taken (.single last) .code more) := by
  cases mode with
  | html =>
    rcases hs.endsStatement hk with rfl | rfl
    · cases h
    · cases h
  | code =>
    rcases hs.endsStatement hk with rfl | rfl
    · rfl
    · rfl

theorem Lexed.eq_nil {mode : Mode} {before : Option Lexeme} {text : Text} (run : Lexed mode before text []) :
    text = [] := run.text_eq.symm

/-- A run up to the end of a statement goes on with what follows. -/
theorem Lexed.scanFrom_append {mode : Mode} {before : Option Lexeme} {text : Text} {pieces front : List Piece}
    {last : Lexeme} (run : Lexed mode before text pieces) (hpieces : pieces = front ++ [.single last])
    (hk : last.kind.endsStatement = true) (more : Text) :
    scanFrom mode before (text ++ more) =
      ⟨pieces ++ (scanFrom .code (some last) more).pieces, (scanFrom .code (some last) more).fault⟩ := by
  induction run generalizing front with
  | done => exact absurd hpieces.symm (by simp)
  | @cut mode after before text rest piece pieces h run ih =>
    have whole := Lexed.cut h run
    have hmem : Piece.single last ∈ piece :: pieces := by
      rw [hpieces]
      exact List.mem_append_right _ List.mem_cons_self
    have hs : last.Spelled := whole.spelled _ hmem last List.mem_cons_self
    obtain ⟨c, hc, hlast⟩ : ∃ c, endsStatement c = true ∧ last.text = [c] := by
      rcases hs.endsStatement hk with rfl | rfl
      · exact ⟨';', rfl, rfl⟩
      · exact ⟨'}', rfl, rfl⟩
    have htext : front.flatMap (·.text) ++ last.text = text := by
      rw [← whole.text_eq, hpieces, flatMap_text_concat]
    cases front with
    | nil =>
      obtain ⟨rfl, rfl⟩ := List.cons.inj hpieces
      obtain rfl := run.eq_nil
      obtain rfl : last.text = text := htext
      have hheard : Piece.lastHeard before (.single last) = some last := by
        rcases hs.endsStatement hk with rfl | rfl
        · rfl
        · rfl
      rw [scanFrom_of_taken (nextCut_end hs hk h more), hheard]
      rfl
    | cons first front =>
      rw [List.cons_append] at hpieces
      obtain ⟨rfl, hlater⟩ := List.cons.inj hpieces
      have hrest : rest ≠ [] := by
        rw [← run.text_eq, hlater, flatMap_text_concat, hlast]
        exact List.concat_ne_nil _ _
      have hend : text.getLast? = some c := by
        rw [← htext, hlast]
        exact List.getLast?_concat
      rw [scanFrom_of_taken (nextCut_append hend hc hrest h), ih hlater]
      rfl

/-! ## Tokens -/

theorem layoutFrom_append (pos : Pos) (index : Nat) (front back : List Piece) :
    ∃ later, layoutFrom pos index (front ++ back) = layoutFrom pos index front ++ later := by
  induction front generalizing pos index with
  | nil => exact ⟨_, rfl⟩
  | cons piece rest ih =>
    obtain ⟨later, hlater⟩ := ih (pos.advance piece.text) (index + piece.lexemes.length)
    refine ⟨later, ?_⟩
    rw [List.cons_append, layoutFrom, layoutFrom, hlater, List.append_assoc]

/-- Pieces whose last token ends a statement end with one lexeme. -/
theorem Ended.exists_last {pieces : List Piece} (h : Ended (layout pieces)) :
    ∃ front last, pieces = front ++ [.single last] ∧ last.kind.endsStatement = true := by
  obtain ⟨token, htoken, hk⟩ := h
  have hlexeme : (pieces.flatMap (·.lexemes)).getLast? = some token.lexeme := by
    rw [← layoutFrom_lexeme .start 0, List.getLast?_map, ← layout, htoken]
    rfl
  rcases List.eq_nil_or_concat pieces with rfl | ⟨front, piece, rfl⟩
  · cases hlexeme
  · rw [List.concat_eq_append, List.flatMap_append] at hlexeme
    rw [List.concat_eq_append]
    cases piece with
    | single last =>
      refine ⟨front, last, rfl, ?_⟩
      obtain rfl : last = token.lexeme := by simpa [Piece.lexemes] using hlexeme
      exact hk
    | docComment body =>
      have hclosing : (Piece.docComment body).lexemes.getLast? = some Piece.docClosing := by
        rw [Piece.lexemes, ← List.cons_append, List.getLast?_concat]
      have hclose : Piece.docClosing = token.lexeme := by simpa [hclosing] using hlexeme
      have hkind : token.kind = .docClose := (congrArg Lexeme.kind hclose).symm
      rw [hkind] at hk
      cases hk

/-- Pairing keeps the token that ends a statement. -/
theorem ended_of_pair {tokens paired : List Token} {last : Token} (h : pair tokens = .ok paired)
    (hlast : paired.getLast? = some last) (hk : last.kind.endsStatement = true) : Ended tokens := by
  rw [List.getLast?_eq_getElem?, pair_length h] at hlast
  obtain ⟨before, hb, -, hkind⟩ := pair_getElem? h hlast
  refine ⟨before, by rw [List.getLast?_eq_getElem?, hb], ?_⟩
  rw [hkind] at hk
  rcases settledKind_cases before.kind (tokens.drop (tokens.length - 1 + 1)) with
    hsame | ⟨-, hclosure⟩ | ⟨-, hword⟩
  · rwa [hsame] at hk
  · rw [hclosure] at hk
    cases hk
  · rw [hword] at hk
    cases hk

namespace Stream

/-- The tokens of a source that ends a statement are the first tokens of a longer source. -/
theorem prefix_of_append {source more : Text} {stream whole : Stream} {last : Token}
    (h : ofSource source = .ok stream) (hlast : stream.back? = some last)
    (hk : last.kind.endsStatement = true) (hwhole : ofSource (source ++ more) = .ok whole) :
    stream.toList <+: whole.toList := by
  obtain ⟨hfault, hpair⟩ := ofSource_eq_ok.1 h
  obtain ⟨-, hpair'⟩ := ofSource_eq_ok.1 hwhole
  have hended : Ended (layout (scan source).pieces) :=
    ended_of_pair hpair (by rwa [Array.getLast?_toList]) hk
  obtain ⟨front, lexeme, hpieces, hend⟩ := hended.exists_last
  have hscan := (lexed_of_ofSource h).scanFrom_append hpieces hend more
  rw [scan, hscan] at hpair'
  obtain ⟨later, hlater⟩ := layoutFrom_append .start 0 (scan source).pieces
    (scanFrom .code (some lexeme) more).pieces
  rw [layout, hlater] at hpair'
  exact hended.pair_append hpair hpair'

theorem mirrors_of_isPrefix {stream whole : Stream} {last : Token} (h : stream.toList <+: whole.toList)
    (hlast : stream.back? = some last) (hk : last.kind.endsStatement = true) :
    Mirrors .lf stream whole := by
  refine ⟨fun {i token} ht => ?_, Or.inr ⟨last, hlast, hk⟩⟩
  have hspell : token.spell .lf = token := by rw [Token.spell, Text.spell_lf]
  rw [← Array.getElem?_toList] at ht ⊢
  obtain ⟨later, hlater⟩ := h
  rw [hspell, ← hlater, List.getElem?_append_left (List.getElem?_eq_some_iff.1 ht).1, ht]

end Stream

/-! ## Checks -/

theorem Check.spell_lf (check : Check Unit) : check.spell .lf id = check := by
  have hevent : ∀ event : Event, event.spell .lf = event := by
    intro event
    cases event with
    | found diagnostic =>
      have harguments : diagnostic.arguments.map (Text.spell .lf) = diagnostic.arguments := by
        rw [funext Text.spell_lf]
        exact List.map_id _
      rw [Event.spell, Diagnostic.spell, harguments]
    | measured => rfl
    | asked => rfl
  refine Check.ext ?_ ?_
  · exact (congrArg (check.events.map ·) (funext hevent)).trans (List.map_id _)
  · cases hr : check.result with
    | error fault => simp [spell, hr, Except.map]
    | ok value => simp [spell, hr, Except.map]

/-- The check of the longer stream is that of the stream, and then that of further functions. -/
theorem Mirrors.checkFunctions_append {stream whole : Stream} (h : Mirrors .lf stream whole)
    (hs : stream.Sound) (hm : whole.Sound) :
    ∃ later : List Nat, (∀ i ∈ later, stream.size ≤ i) ∧ whole.checkFunctions =
      (stream.checkFunctions >>= fun _ => whole.checkAll .standard later) := by
  have hlater : ∀ i ∈ (List.range' stream.size (whole.size - stream.size)).filter fun index =>
      whole[index]?.any (·.kind == .function), stream.size ≤ i :=
    fun i hi => (List.mem_range'_1.1 (List.mem_filter.1 hi).1).1
  refine ⟨_, hlater, ?_⟩
  rw [Stream.checkFunctions, h.functions, Stream.checkAll_append, h.checkAll hs hm fun _ hi => hi,
    Check.spell_lf, Stream.checkFunctions]

/-- Text behind the end of a statement changes nothing of what was read and found before it: the tokens of the
source are the first tokens of the longer text, with all their links, and if both are checked to the end, the
findings of the source are the first findings, its metrics stay, and its tokens get no others. -/
theorem appended_text_keeps_reports {source more : Text} {stream whole : Stream} {last : Token}
    (h : Stream.ofSource source = .ok stream) (hlast : stream.back? = some last)
    (hk : last.kind = .semicolon ∨ last.kind = .closeBrace)
    (hwhole : Stream.ofSource (source ++ more) = .ok whole) :
    stream.toList <+: whole.toList ∧
    ∀ (filename : Text) (file checked wholeFile wholeChecked : SourceFile),
      SourceFile.ofSource source filename = .ok file → file.checked = .ok checked →
      SourceFile.ofSource (source ++ more) filename = .ok wholeFile → wholeFile.checked = .ok wholeChecked →
      checked.diagnostics <+: wholeChecked.diagnostics ∧
      (∀ (name : String) (position : Int) (value : String), checked.metrics.value? name position = some value →
        wholeChecked.metrics.value? name position = some value) ∧
      ∀ (name : String) (i : Nat), i < stream.size →
        wholeChecked.metrics.value? name i = checked.metrics.value? name i := by
  have hend : last.kind.endsStatement = true := by
    rcases hk with hk | hk
    · rw [hk]
      rfl
    · rw [hk]
      rfl
  have htokens := Stream.prefix_of_append h hlast hend hwhole
  refine ⟨htokens, ?_⟩
  intro filename file checked wholeFile wholeChecked hfile hchecked hwholeFile hwholeChecked
  obtain ⟨_, hstream, rfl⟩ := SourceFile.ofSource_eq_ok.1 hfile
  obtain ⟨_, hstream', rfl⟩ := SourceFile.ofSource_eq_ok.1 hwholeFile
  obtain rfl := Except.ok.inj (h.symm.trans hstream)
  obtain rfl := Except.ok.inj (hwhole.symm.trans hstream')
  obtain ⟨hresult, rfl⟩ := SourceFile.checked_eq_ok.1 hchecked
  obtain ⟨-, rfl⟩ := SourceFile.checked_eq_ok.1 hwholeChecked
  obtain ⟨later, hlater, hcheck⟩ := (Stream.mirrors_of_isPrefix htokens hlast hend).checkFunctions_append
    (Stream.sound h) (Stream.sound hwhole)
  have hevents : whole.checkFunctions.events =
      stream.checkFunctions.events ++ (whole.checkAll .standard later).events := by
    rw [hcheck, Check.bind_of_ok hresult]
  have hstart : SourceFile.metrics { source := source ++ more, filename, stream := whole } =
      SourceFile.metrics { source, filename, stream } := rfl
  refine ⟨?_, fun name position value hvalue => ?_, fun name i hi => ?_⟩
  · simp only [SourceFile.foldl_after_diagnostics, hevents, List.filterMap_append, List.nil_append]
    exact List.prefix_append _ _
  · rw [← SourceFile.foldl_after_metrics hstart] at hvalue
    dsimp only
    rw [hevents, List.foldl_append]
    exact SourceFile.value?_foldl_after_of_some hvalue _
  · -- what is recorded later is recorded for later tokens
    have hapart : ∀ place key value,
        .measured place key value ∈ (whole.checkAll .standard later).events → place ≠ (i : Int) := by
      intro place key value hm
      rcases (whole.checkAll_each later).of_mem _ hm with ⟨_, heq⟩ | ⟨j, hj, _, heq⟩
      · cases heq
      · have hle := hlater j hj
        injection heq with hplace
        omega
    dsimp only
    rw [hevents, List.foldl_append, SourceFile.value?_foldl_after _ hapart,
      SourceFile.foldl_after_metrics hstart]

/-- A function with a comment. -/
def commentedFunction : Text := "<?php\n/** @param int $a */\nfunction f($b) \x7b return 1; \x7d".toList

/-- A remark about the brace before it, and a function. -/
def furtherCode : Text := " // c\nfunction &g() \x7b\x7d\n".toList

theorem appended_text_keeps_reports_function :
    ∃ file checked wholeFile wholeChecked : SourceFile,
      SourceFile.ofSource commentedFunction "a".toList = .ok file ∧ file.checked = .ok checked ∧
      SourceFile.ofSource (commentedFunction ++ furtherCode) "a".toList = .ok wholeFile ∧
      wholeFile.checked = .ok wholeChecked ∧
      (∃ last, file.stream.back? = some last ∧ last.kind = .closeBrace) ∧
      file.stream.toList <+: wholeFile.stream.toList ∧
      checked.diagnostics.map (·.code) =
        ["MissingReturn", "ParamNameNoMatch", "MissingParamComment", "MissingParamTag"] ∧
      wholeChecked.diagnostics.length = 5 ∧ checked.diagnostics <+: wholeChecked.diagnostics ∧
      wholeChecked.metrics.value? commentMetric 10 = some "yes" := by
  have hrun : (SourceFile.ofSource commentedFunction "a".toList).toOption.any (fun file =>
      file.stream.back?.any (·.kind == .closeBrace) && file.checked.toOption.any fun checked =>
        checked.diagnostics.map (·.code) ==
          ["MissingReturn", "ParamNameNoMatch", "MissingParamComment", "MissingParamTag"] &&
        decide (10 < file.stream.size) && checked.metrics.value? commentMetric 10 == some "yes") = true := by
    decide +kernel
  have hwhole : (SourceFile.ofSource (commentedFunction ++ furtherCode) "a".toList).toOption.any (fun file =>
      file.checked.toOption.any fun checked => checked.diagnostics.length == 5) = true := by
    decide +kernel
  obtain ⟨file, hfile, hrun⟩ := exists_eq_ok_of_any hrun
  obtain ⟨wholeFile, hwholeFile, hwhole⟩ := exists_eq_ok_of_any hwhole
  obtain ⟨hlast, hrun⟩ := Bool.and_eq_true_iff.1 hrun
  obtain ⟨last, hback, hk⟩ := (Option.any_eq_true _ _).1 hlast
  obtain ⟨checked, hchecked, hrun⟩ := exists_eq_ok_of_any hrun
  obtain ⟨wholeChecked, hwholeChecked, hlength⟩ := exists_eq_ok_of_any hwhole
  simp only [Bool.and_eq_true, beq_iff_eq, decide_eq_true_eq] at hrun hk hlength
  obtain ⟨⟨hcodes, hsize⟩, hvalue⟩ := hrun
  obtain ⟨stream, hstream, rfl⟩ := SourceFile.ofSource_eq_ok.1 hfile
  obtain ⟨whole, hstream', rfl⟩ := SourceFile.ofSource_eq_ok.1 hwholeFile
  obtain ⟨htokens, hreports⟩ := appended_text_keeps_reports hstream hback (Or.inr hk) hstream'
  obtain ⟨hfound, -, hmetrics⟩ := hreports _ _ checked _ wholeChecked hfile hchecked hwholeFile hwholeChecked
  exact ⟨_, checked, _, wholeChecked, hfile, hchecked, hwholeFile, hwholeChecked, ⟨last, hback, hk⟩, htokens,
    hcodes, hlength, hfound, (hmetrics commentMetric 10 hsize).trans hvalue⟩

end DocLint
