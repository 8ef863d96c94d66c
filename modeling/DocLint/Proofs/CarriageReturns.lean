import DocLint.Command.FileScan
import DocLint.Proofs.FileRecords
import DocLint.Proofs.FramedRules
import DocLint.Proofs.MirroredChecks
import DocLint.Proofs.Spelling

/-!
# Carriage returns before line feeds

A source in which each line feed gets a carriage return is cut, laid out, paired and checked as before: the
places, the links, the faults and the findings are the same, and only the texts have the carriage returns in
them (`crlf_reports_same`). A file that is read loses them, so it is checked as the source without them.
-/

namespace DocLint

variable {e : LineEnd}

/-! ## Lexing -/

theorem Piece.lastHeard_spell (before : Option Lexeme) (piece : Piece) :
    (piece.spell e).lastHeard (before.map (·.spell e)) = (piece.lastHeard before).map (·.spell e) := by
  cases piece with
  | docComment body => rfl
  | single lexeme =>
    change (if lexeme.kind.isSilent then _ else _) = Option.map _ (if lexeme.kind.isSilent then _ else _)
    split
    · rfl
    · rfl

/-- Lexing does not mind how line ends are written. -/
theorem scanFrom_spell (mode : Mode) (before : Option Lexeme) (text : Text)
    (h : e = .crlf → '\r' ∉ text) :
    scanFrom mode (before.map (·.spell e)) (text.spell e) =
      ⟨(scanFrom mode before text).pieces.map (·.spell e), (scanFrom mode before text).fault⟩ := by
  have hframe : Frame.Fits ⟨e, []⟩ text := ⟨Or.inl rfl, h⟩
  have hput : ∀ text : Text, Frame.put ⟨e, []⟩ text = text.spell e := fun text => List.append_nil _
  have hcut : nextCut mode (before.map (·.spell e)) (text.spell e) =
      (nextCut mode before text).map (Frame.putCut ⟨e, []⟩) := by
    rw [← hput]
    refine Frame.nextCut_put hframe fun cut _ => ?_
    cases cut with
    | taken piece mode rest => exact Or.inl rfl
    | refused fault => exact rfl
  cases hnext : nextCut mode before text with
  | none =>
    rw [hnext] at hcut
    rw [scanFrom_of_none hnext, scanFrom_of_none hcut]
    rfl
  | some cut =>
    rw [hnext] at hcut
    cases cut with
    | refused fault =>
      rw [scanFrom_of_refused hnext, scanFrom_of_refused hcut]
      rfl
    | taken piece after rest =>
      have hrest : piece.text ++ rest = text := (nextCut_lossless hnext).1
      have hshorter := nextCut_shorter hnext
      have ih := scanFrom_spell after (piece.lastHeard before) rest fun hcrlf hm =>
        h hcrlf (hrest ▸ List.mem_append_right _ hm)
      rw [scanFrom_of_taken hnext, scanFrom_of_taken hcut]
      dsimp only
      rw [hput, Piece.lastHeard_spell, ih]
      rfl
termination_by text.length

theorem Piece.lexemes_spell (piece : Piece) : (piece.spell e).lexemes = piece.lexemes.map (·.spell e) := by
  cases piece with
  | single lexeme => rfl
  | docComment body =>
    simp only [spell, lexemes, List.map_cons, List.map_append, List.map_nil]
    rfl

theorem flatMap_text_spell (lexemes : List Lexeme) :
    (lexemes.map (·.spell e)).flatMap (·.text) = Text.spell e (lexemes.flatMap (·.text)) := by
  induction lexemes with
  | nil => rfl
  | cons lexeme rest ih =>
    rw [List.map_cons, List.flatMap_cons, List.flatMap_cons, ih, Text.spell_append]
    rfl

theorem Piece.text_spell (piece : Piece) : (piece.spell e).text = Text.spell e piece.text := by
  rw [text, lexemes_spell, flatMap_text_spell]
  rfl

/-! ## Layout -/

/-- A carriage return before a line feed moves nothing. -/
theorem Pos.advance_spell (pos : Pos) (text : Text) : pos.advance (text.spell e) = pos.advance text := by
  induction text generalizing pos with
  | nil => rfl
  | cons c rest ih =>
    by_cases hc : c = '\n'
    · subst hc
      rw [Text.spell_newline, advance_append, ih]
      cases e with
      | lf => rfl
      | crlf => rfl
    · rw [Text.spell_cons hc]
      exact ih (pos.next c)

theorem placeAll_spell (pos : Pos) (lexemes : List Lexeme) :
    placeAll pos (lexemes.map (·.spell e)) = (placeAll pos lexemes).map (·.spell e) := by
  induction lexemes generalizing pos with
  | nil => rfl
  | cons lexeme rest ih =>
    have hpos : pos.advance (lexeme.spell e).text = pos.advance lexeme.text := Pos.advance_spell pos _
    rw [List.map_cons, placeAll, placeAll, List.map_cons, ih, hpos]
    rfl

theorem tagIndices_spell (index : Nat) (lexemes : List Lexeme) :
    tagIndices index (lexemes.map (·.spell e)) = tagIndices index lexemes := by
  induction lexemes generalizing index with
  | nil => rfl
  | cons lexeme rest ih =>
    rw [List.map_cons, tagIndices, tagIndices, ih]
    rfl

theorem Piece.tokens_spell (pos : Pos) (index : Nat) (piece : Piece) :
    (piece.spell e).tokens pos index = (piece.tokens pos index).map (·.spell e) := by
  cases piece with
  | single lexeme => rfl
  | docComment body =>
    simp only [spell, tokens, List.map_cons, List.map_append, List.map_nil, tagIndices_spell,
      placeAll_spell, List.length_map, flatMap_text_spell, Pos.advance_spell]
    rfl

theorem layoutFrom_spell (pos : Pos) (index : Nat) (pieces : List Piece) :
    layoutFrom pos index (pieces.map (·.spell e)) = (layoutFrom pos index pieces).map (·.spell e) := by
  induction pieces generalizing pos index with
  | nil => rfl
  | cons piece rest ih =>
    rw [List.map_cons, layoutFrom, layoutFrom, List.map_append, ih, Piece.tokens_spell, Piece.text_spell,
      Pos.advance_spell, Piece.lexemes_spell, List.length_map]

/-! ## Pairing -/

/-- The text of a bracket has no line end. -/
def Token.Plain (token : Token) : Prop := token.kind.isBracket = true → '\n' ∉ token.content

theorem Token.Plain.error_spell {token : Token} (h : token.Plain) (hk : token.kind.isBracket = true)
    (fault : Text → LexFault) :
    (token.spell e).error (fault (token.spell e).content) = token.error (fault token.content) := by
  rw [spell, Text.spell_of_not_mem (h hk)]

theorem opensParameters_spell (tokens : List Token) :
    opensParameters (tokens.map (·.spell e)) = opensParameters tokens := by
  have hheard : ∀ tokens : List Token, heard (tokens.map (·.spell e)) = (heard tokens).map (·.spell e) := by
    intro tokens
    rw [heard, heard, List.dropWhile_map]
    rfl
  rw [opensParameters, opensParameters, hheard]
  cases heard tokens with
  | nil => rfl
  | cons token rest =>
    simp only [List.map_cons, Token.spell_kind, hheard]
    cases heard rest with
    | nil => rfl
    | cons next rest => rfl

theorem settledKind_spell (kind : Kind) (rest : List Token) :
    settledKind kind (rest.map (·.spell e)) = settledKind kind rest := by
  unfold settledKind
  rw [opensParameters_spell]

theorem settle_spell (tokens : List Token) :
    settle (tokens.map (·.spell e)) = (settle tokens).map (·.spell e) := by
  induction tokens with
  | nil => rfl
  | cons token rest ih =>
    rw [List.map_cons, settle, settle, List.map_cons, ih, settledKind_spell]
    rfl

theorem settle_plain {tokens : List Token} (h : ∀ token ∈ tokens, token.Plain) :
    ∀ token ∈ settle tokens, token.Plain := by
  induction tokens with
  | nil => exact h
  | cons token rest ih =>
    intro settled hm
    rw [settle] at hm
    rcases List.mem_cons.1 hm with rfl | hm
    · intro hk
      refine h token List.mem_cons_self ?_
      rcases settledKind_cases token.kind rest with hsame | ⟨-, hclosure⟩ | ⟨-, hword⟩
      · rwa [hsame] at hk
      · rw [hclosure] at hk
        cases hk
      · rw [hword] at hk
        cases hk
    · exact ih (fun later hlater => h later (List.mem_cons_of_mem _ hlater)) settled hm

theorem matchFrom_spell {index : Nat} {stack : List (Nat × Token)} {tokens : List Token}
    (hs : ∀ entry ∈ stack, entry.2.kind.isBracket = true ∧ entry.2.Plain)
    (ht : ∀ token ∈ tokens, token.Plain) :
    matchFrom index (stack.map fun entry => (entry.1, entry.2.spell e)) (tokens.map (·.spell e)) =
      matchFrom index stack tokens := by
  induction tokens generalizing index stack with
  | nil =>
    cases stack with
    | nil => rfl
    | cons entry stack =>
      obtain ⟨hk, hplain⟩ := hs entry List.mem_cons_self
      exact congrArg Except.error (hplain.error_spell hk .unclosed)
  | cons token rest ih =>
    have hrest := fun later hlater => ht later (List.mem_cons_of_mem _ hlater)
    have hplain := ht token List.mem_cons_self
    rw [List.map_cons, matchFrom_cons, matchFrom_cons, Token.spell_kind]
    by_cases hopener : token.kind.closedBy.isSome = true
    · have hk : token.kind.isBracket = true := by rw [Kind.isBracket, hopener, Bool.true_or]
      rw [if_pos hopener, if_pos hopener]
      have hpushed : ∀ entry ∈ (index, token) :: stack, entry.2.kind.isBracket = true ∧ entry.2.Plain := by
        intro entry hm
        rcases List.mem_cons.1 hm with rfl | hm
        · exact ⟨hk, hplain⟩
        · exact hs entry hm
      exact ih hpushed hrest
    · rw [if_neg hopener, if_neg hopener]
      by_cases hcloser : token.kind.isCloser = true
      · have hk : token.kind.isBracket = true := by rw [Kind.isBracket, hcloser, Bool.or_true]
        rw [if_pos hcloser, if_pos hcloser]
        cases stack with
        | nil => exact congrArg Except.error (hplain.error_spell hk .unmatched)
        | cons entry stack =>
          rw [List.map_cons]
          dsimp only
          rw [Token.spell_kind, ih (fun entry hm => hs entry (List.mem_cons_of_mem _ hm)) hrest,
            hplain.error_spell hk .unmatched]
      · rw [if_neg hcloser, if_neg hcloser]
        exact ih hs hrest

theorem ownedFrom_spell (pairs : List Pair) (wanted : Bool) (resume index : Nat) (tokens : List Token) :
    ownedFrom pairs wanted resume index (tokens.map (·.spell e)) =
      ownedFrom pairs wanted resume index tokens := by
  induction tokens generalizing wanted resume index with
  | nil => rfl
  | cons token rest ih =>
    rw [List.map_cons, ownedFrom, ownedFrom]
    simp only [ih]
    rfl

theorem ownedAll_spell (pairs : List Pair) (index : Nat) (tokens : List Token) :
    ownedAll pairs index (tokens.map (·.spell e)) = ownedAll pairs index tokens := by
  induction tokens generalizing index with
  | nil => rfl
  | cons token rest ih =>
    rw [List.map_cons, ownedAll, ownedAll, ih, ownedFrom_spell]
    rfl

theorem tieFrom_spell (pairs bodies : List Pair) (index : Nat) (tokens : List Token) (owned : List Owned) :
    tieFrom pairs bodies index (tokens.map (·.spell e)) owned =
      (tieFrom pairs bodies index tokens owned).map (·.spell e) := by
  induction tokens generalizing index owned with
  | nil => rfl
  | cons token rest ih =>
    cases owned with
    | nil => rfl
    | cons own owned =>
      rw [List.map_cons, tieFrom, tieFrom, List.map_cons, ih]
      rfl

/-- Pairing looks at the kinds of tokens, and shows the text of a bracket without a partner. -/
theorem pair_spell {tokens : List Token} (h : ∀ token ∈ tokens, token.Plain) :
    pair (tokens.map (·.spell e)) = (pair tokens).map (List.map (·.spell e)) := by
  have hmatch : matchBrackets ((settle tokens).map (·.spell e)) = matchBrackets (settle tokens) :=
    matchFrom_spell (fun entry (hm : entry ∈ []) => absurd hm List.not_mem_nil) (settle_plain h)
  rw [pair_eq, pair_eq, settle_spell, hmatch]
  cases matchBrackets (settle tokens) with
  | error error => rfl
  | ok pairs =>
    refine congrArg Except.ok ?_
    simp only [tie, bodies, ownedAll_spell, tieFrom_spell]

/-! ## Streams -/

theorem Kind.newline_not_mem_spelling {kind : Kind} {text : Text} (h : kind.spelling? = some text) :
    '\n' ∉ text := by
  cases kind <;> simp_all [spelling?] <;> subst h <;> decide

/-- The brackets of a run are written without line ends. -/
theorem Lexed.plain {mode : Mode} {before : Option Lexeme} {text : Text} {pieces : List Piece}
    (run : Lexed mode before text pieces) : ∀ token ∈ layout pieces, token.Plain := by
  intro token hm hk
  have hlexeme : token.lexeme ∈ pieces.flatMap (·.lexemes) := by
    rw [← layoutFrom_lexeme .start 0]
    exact List.mem_map_of_mem hm
  obtain ⟨piece, hp, hl⟩ := List.mem_flatMap.1 hlexeme
  have hspelling : token.kind.spelling?.isSome = true := by
    refine Kind.spelling?_isSome ?_
    simpa [Kind.isBracket] using hk
  obtain ⟨spelling, hs⟩ := Option.isSome_iff_exists.1 hspelling
  have hcontent : token.content = spelling := run.spelled piece hp token.lexeme hl spelling hs
  rw [hcontent]
  exact Kind.newline_not_mem_spelling hs

theorem Scan.text_spell (pieces : List Piece) (fault : Option LexFault) :
    Scan.text ⟨pieces.map (·.spell e), fault⟩ = Text.spell e (Scan.text ⟨pieces, fault⟩) := by
  simp only [Scan.text]
  induction pieces with
  | nil => rfl
  | cons piece rest ih =>
    rw [List.map_cons, List.flatMap_cons, List.flatMap_cons, ih, Text.spell_append, Piece.text_spell]

namespace Stream

/-- A stream with the ends of lines in its tokens written another way. -/
def spell (e : LineEnd) (stream : Stream) : Stream := stream.map (·.spell e)

theorem ofSource_spell {source : Text} (h : e = .crlf → '\r' ∉ source) :
    ofSource (source.spell e) = (ofSource source).map (·.spell e) := by
  have hscan : scan (source.spell e) = ⟨(scan source).pieces.map (·.spell e), (scan source).fault⟩ :=
    scanFrom_spell .html none source h
  rw [ofSource, ofSource, hscan]
  dsimp only
  cases hfault : (scan source).fault with
  | some fault =>
    have htext : Scan.text ⟨(scan source).pieces.map (·.spell e), some fault⟩ =
        Text.spell e (scan source).text := Scan.text_spell _ _
    dsimp only
    rw [htext, Pos.advance_spell]
    rfl
  | none =>
    have hplain : ∀ token ∈ layout (scan source).pieces, token.Plain :=
      (lexed_scanFrom .html none source hfault).plain
    have hlayout : layout ((scan source).pieces.map (·.spell e)) =
        (layout (scan source).pieces).map (·.spell e) := layoutFrom_spell ..
    dsimp only
    rw [hlayout, pair_spell hplain]
    cases pair (layout (scan source).pieces) with
    | error error => rfl
    | ok paired => exact congrArg Except.ok (List.map_toArray ..).symm

theorem spell_mirrors (e : LineEnd) (stream : Stream) : Mirrors e stream (stream.spell e) := by
  refine ⟨fun {i token} ht => ?_, Or.inl (Array.size_map ..)⟩
  rw [spell, Array.getElem?_map, ht]
  rfl

end Stream

theorem Mirrors.checkFunctions {stream mirror : Stream} (h : Mirrors e stream mirror) (hs : stream.Sound)
    (hm : mirror.Sound) (hsize : mirror.size = stream.size) :
    mirror.checkFunctions = stream.checkFunctions.spell e id := by
  have hfunctions : mirror.functions = stream.functions := by
    rw [h.functions, hsize, Nat.sub_self]
    exact List.append_nil _
  rw [Stream.checkFunctions, Stream.checkFunctions, hfunctions]
  exact h.checkAll hs hm fun _ hi => hi

/-! ## Files -/

namespace SourceFile

/-- A file with the ends of lines written another way: in its text, in its tokens and in what was found. -/
def spell (e : LineEnd) (file : SourceFile) : SourceFile :=
  { file with
    source := file.source.spell e
    stream := file.stream.spell e
    diagnostics := file.diagnostics.map (·.spell e) }

theorem after_spell (file : SourceFile) (event : Event) :
    (file.spell e).after (event.spell e) = (file.after event).spell e := by
  cases event with
  | found diagnostic => simp [after, spell, Event.spell]
  | measured => rfl
  | asked => rfl

theorem run_spell {α β : Type} (g : α → β) (file : SourceFile) (check : Check α) :
    (file.spell e).run (check.spell e g) = (file.run check).spell e := by
  simp only [run, Check.spell]
  induction check.events generalizing file with
  | nil => rfl
  | cons event rest ih =>
    rw [List.map_cons, List.foldl_cons, List.foldl_cons, after_spell]
    exact ih _

theorem ofSource_spell {source : Text} (h : e = .crlf → '\r' ∉ source) (filename : Text) :
    ofSource (source.spell e) filename = (ofSource source filename).map (·.spell e) := by
  rw [ofSource, ofSource, Stream.ofSource_spell h]
  cases Stream.ofSource source with
  | error error => rfl
  | ok stream => rfl

theorem checked_spell (file : SourceFile) (hs : file.stream.Sound) (hm : (file.stream.spell e).Sound) :
    (file.spell e).checked = file.checked.map (·.spell e) := by
  have hcheck : (file.spell e).stream.checkFunctions = file.stream.checkFunctions.spell e id :=
    (Stream.spell_mirrors e file.stream).checkFunctions hs hm (Array.size_map ..)
  rw [checked, checked, hcheck, run_spell]
  cases hr : file.stream.checkFunctions.result with
  | error fault =>
    rw [Check.spell, hr]
    rfl
  | ok value =>
    rw [Check.spell, hr]
    rfl

end SourceFile

/-! ## Reading files -/

/-- Reading a file takes the carriage returns out again. -/
theorem Text.unifyNewlines_crlf {source : Text} (h : '\r' ∉ source) :
    unifyNewlines (source.spell .crlf) = source := by
  induction source with
  | nil => rfl
  | cons c rest ih =>
    have hrest : '\r' ∉ rest := fun hm => h (List.mem_cons_of_mem _ hm)
    have hc : c ≠ '\r' := fun heq => h (heq ▸ List.mem_cons_self)
    by_cases hn : c = '\n'
    · subst hn
      rw [spell_newline]
      exact congrArg _ (ih hrest)
    · rw [spell_cons hn, unifyNewlines, ih hrest, if_neg (by simpa using hc)]
      intro rest' heq
      exact absurd heq hc

/-- Carriage returns before line feeds change nothing in what is found. The source with them has the same
tokens at the same places with the same links, or the same fault; the check stops with the same fault, or has
the same findings at the same places and the same metrics. Only texts have the carriage returns in them. A file
that holds this text is checked as the source without them. -/
theorem crlf_reports_same {source : Text} (h : '\r' ∉ source) :
    Stream.ofSource (source.spell .crlf) = (Stream.ofSource source).map (·.spell .crlf) ∧
    (∀ filename : Text, SourceFile.ofSource (source.spell .crlf) filename =
      (SourceFile.ofSource source filename).map (·.spell .crlf)) ∧
    (∀ (filename : Text) (file : SourceFile), SourceFile.ofSource source filename = .ok file →
      (file.spell .crlf).checked = file.checked.map (·.spell .crlf)) ∧
    ∀ (disk : Disk) (path : Path) (bytes : List UInt8), disk.bytes path = .ok bytes →
      Utf8.decode bytes = .ok (source.spell .crlf) → disk.read path = .ok source := by
  have hstream := Stream.ofSource_spell fun _ : LineEnd.crlf = .crlf => h
  refine ⟨hstream, fun filename => SourceFile.ofSource_spell (fun _ => h) filename, ?_, ?_⟩
  · intro filename file hfile
    obtain ⟨stream, hsource, rfl⟩ := SourceFile.ofSource_eq_ok.1 hfile
    rw [hsource] at hstream
    exact SourceFile.checked_spell _ (Stream.sound hsource) (Stream.sound hstream)
  · intro disk path bytes hbytes hdecode
    rw [Disk.read, hbytes]
    dsimp only
    rw [hdecode]
    exact congrArg Except.ok (Text.unifyNewlines_crlf h)

/-- A doc comment, a parameter list and a heredoc, each of several lines. -/
def manyLines : Text :=
  ("<?php\n/**\n * Adds.\n * @param int\n *   $a\n * @throws\n */\nfunction f(\n  string\n  $a\n) " ++
    "\x7b\n  return <<<B\n    b\n    B;\n\x7d\n").toList

theorem crlf_reports_same_manyLines :
    '\r' ∉ manyLines ∧ ∃ file checked : SourceFile,
      SourceFile.ofSource manyLines "a".toList = .ok file ∧ file.checked = .ok checked ∧
      checked.diagnostics.map (fun found => (found.code, found.line)) =
        [("MissingReturn", 7), ("InvalidThrows", 6), ("MissingParamName", 4), ("MissingParamTag", 7)] ∧
      SourceFile.ofSource (manyLines.spell .crlf) "a".toList = .ok (file.spell .crlf) ∧
      (file.spell .crlf).checked = .ok (checked.spell .crlf) := by
  have hplain : '\r' ∉ manyLines := by decide +kernel
  have hrun : (SourceFile.ofSource manyLines "a".toList).toOption.any (fun file =>
      file.checked.toOption.any fun checked =>
        checked.diagnostics.map (fun found => (found.code, found.line)) ==
          [("MissingReturn", 7), ("InvalidThrows", 6), ("MissingParamName", 4),
            ("MissingParamTag", 7)]) = true := by
    decide +kernel
  obtain ⟨file, hfile, hrun⟩ := exists_eq_ok_of_any hrun
  obtain ⟨checked, hchecked, hfound⟩ := exists_eq_ok_of_any hrun
  obtain ⟨-, hsame, hcheck, -⟩ := crlf_reports_same hplain
  have hsource := hsame "a".toList
  have hresult := hcheck "a".toList file hfile
  rw [hfile] at hsource
  rw [hchecked] at hresult
  exact ⟨hplain, file, checked, hfile, hchecked, eq_of_beq hfound, hsource, hresult⟩

end DocLint
