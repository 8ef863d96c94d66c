import DocLint.Editor.Documents
import DocLint.Proofs.Attribution
import DocLint.Proofs.FaultPlaces
import DocLint.Proofs.LexicalSoundness
import DocLint.Proofs.Results

/-!
# Marks cover what they are about

A mark lies on one line of its document, and what stands there between its columns is the text it is about
(`Mark.Covers`). The mark of a finding covers the first line of a token: findings stand at functions, tags and
the ends of comments, and none of these starts with a line feed. The mark of a fault covers one character.

An editor is told the marks of the latest text of a document, which can be read off the events, the latest first
(`Workspace.latest?`). That a workspace gives this text is all that is asked of it (`Workspace.GivesLatest`); the
workspace in memory does so as long as every URI can name a document (`Documents.workspace_givesLatest`).
-/

namespace DocLint

/-! ## What a mark covers -/

/-- The mark lies on a line of the document, is not empty, and the text is what stands there. -/
structure Mark.Covers (mark : Mark) (document text : Text) : Prop where
  line_nonneg : 0 ≤ mark.line
  first_nonneg : 0 ≤ mark.first
  first_lt_last : mark.first < mark.last
  covered : ∃ line, (Text.feedLines document)[mark.line.toNat]? = some line ∧ mark.last ≤ line.length ∧
    (line.take mark.last.toNat).drop mark.first.toNat = text

theorem Mark.covers_between {mark : Mark} {document before text behind : Text} (hzero : 0 ≤ mark.line)
    (hline : (Text.feedLines document)[mark.line.toNat]? = some (before ++ (text ++ behind)))
    (hfirst : mark.first = before.length) (hlast : mark.last = mark.first + text.length) (htext : text ≠ []) :
    mark.Covers document text := by
  have hpos : 0 < text.length := List.length_pos_of_ne_nil htext
  have hcut : mark.last.toNat = (before ++ text).length := by
    rw [List.length_append]
    omega
  have hskip : mark.first.toNat = before.length := by omega
  refine ⟨hzero, by omega, by omega, _, hline, ?_, ?_⟩
  · simp only [List.length_append]
    omega
  · rw [hcut, hskip, ← List.append_assoc, List.take_left, List.drop_left]

namespace Stream

variable {source : Text} {stream : Stream} {i : Nat} {token : Token}

/-- What a finding may stand at does not start with a line feed. -/
theorem content_inked (h : ofSource source = .ok stream) (hi : stream[i]? = some token)
    (hk : token.kind = .function ∨ token.kind = .comment ∨ token.kind = .docClose ∨ token.kind = .docTag) :
    Text.Inked token.content := by
  have hform := form_at h hi
  rcases hk with hk | hk | hk | hk
  · rw [hk] at hform
    obtain ⟨⟨⟨c, hhead, hword⟩, -⟩, -⟩ := hform
    obtain ⟨rest, hcontent⟩ := List.head?_eq_some_iff.1 hhead
    refine ⟨c, rest, hcontent, ?_⟩
    rintro rfl
    cases hword
  · rw [hk] at hform
    rcases hform with hline | hblock
    · rcases hline.start with hslash | ⟨hhash, -⟩
      · exact Text.inked_of_start (by decide) hslash
      · exact Text.inked_of_start (by decide) hhash
    · obtain ⟨body, hbody⟩ := hblock.delimited
      rw [hbody]
      exact ⟨'/', _, rfl, by decide⟩
  · rw [hk] at hform
    rw [show token.content = "*/".toList from hform]
    exact ⟨'*', _, rfl, by decide⟩
  · rw [hk] at hform
    obtain ⟨rest, hcontent⟩ := List.head?_eq_some_iff.1 hform.start
    exact ⟨'@', rest, hcontent, by decide⟩

/-- A mark of the width of a token, from where the token starts, covers its first line. -/
theorem covers_token (h : ofSource source = .ok stream) (hi : stream[i]? = some token)
    (hinked : Text.Inked token.content) {mark : Mark} (hline : mark.line = token.line - 1)
    (hfirst : mark.first = token.column - 1) (hlast : mark.last = mark.first + Mark.width token) :
    mark.Covers source (token.content.takeWhile (· != '\n')) := by
  obtain ⟨hat, hcolumn⟩ := feedLine_at h hi
  obtain ⟨hplace, hplace'⟩ := place_eq h hi
  have hne := hinked.takeWhile_ne_nil
  have hwidth : Mark.width token = (token.content.takeWhile (· != '\n')).length :=
    Nat.max_eq_right (List.length_pos_of_ne_nil hne)
  -- the line goes on behind the token, or the token goes on behind the line
  obtain ⟨behind, hbehind⟩ : ∃ behind, (stream.textFrom i).takeWhile (· != '\n') =
      token.content.takeWhile (· != '\n') ++ behind := by
    rw [textFrom_eq hi, List.takeWhile_append]
    split
    · next hall =>
      rw [(List.takeWhile_prefix _).eq_of_length hall]
      exact ⟨_, rfl⟩
    · exact ⟨[], (List.append_nil _).symm⟩
  rw [hbehind, ← hline] at hat
  exact Mark.covers_between (by omega) hat (by omega) (by omega) hne

/-- The token of a finding, and that the finding has its place and a message. -/
theorem exists_finding_token (h : ofSource source = .ok stream) (hi : i ∈ stream.functions)
    {diagnostic : Diagnostic} (hd : diagnostic ∈ stream.findingsAbout i) :
    ∃ (k : Nat) (token : Token), diagnostic.position = k ∧ stream[k]? = some token ∧
      Text.Inked token.content ∧ diagnostic.line = token.line ∧ diagnostic.column = token.column ∧
      ∃ message, diagnostic.message = .ok message := by
  obtain ⟨hshows, hplace⟩ := (Stream.sound h).finding_shows hd
  obtain ⟨k, token, hk, ht, hinked⟩ : ∃ (k : Nat) (token : Token), diagnostic.position = k ∧
      stream[k]? = some token ∧ Text.Inked token.content := by
    rcases hplace with ⟨-, hp⟩ | ⟨o, c, comment, -, hreads, hmarks⟩
    · obtain ⟨function, ht, hkind⟩ := mem_functions.1 hi
      exact ⟨i, function, hp, ht, content_inked h ht (Or.inl hkind)⟩
    · obtain ⟨k, token, hk, -, -, ht, hkind⟩ := hreads.marked hmarks
      exact ⟨k, token, hk, ht, content_inked h ht (Or.inr hkind)⟩
  obtain ⟨⟨found, hfetch, hline, hcolumn⟩, hmessage⟩ := hshows
  rw [hk, fetch_at ht] at hfetch
  obtain rfl := Except.ok.inj hfetch
  exact ⟨k, token, hk, ht, hinked, hline, hcolumn, hmessage⟩

end Stream

/-! ## The marks of a text -/

namespace Mark

/-- The mark says what the finding says, and covers the first line of its token. -/
structure Shows (mark : Mark) (file : SourceFile) (diagnostic : Diagnostic) : Prop where
  message : diagnostic.message = .ok mark.message
  severity : mark.severity = diagnostic.severity
  code : mark.code = some diagnostic.fullCode
  token : ∃ (k : Nat) (token : Token), diagnostic.position = k ∧ file.stream[k]? = some token ∧
    mark.line = token.line - 1 ∧ mark.first = token.column - 1 ∧
    mark.Covers file.source (token.content.takeWhile (· != '\n'))

theorem exists_ofDiagnostic {file : SourceFile} (h : Stream.ofSource file.source = .ok file.stream) {i : Nat}
    (hi : i ∈ file.stream.functions) {diagnostic : Diagnostic} (hd : diagnostic ∈ file.stream.findingsAbout i) :
    ∃ mark, ofDiagnostic file.stream diagnostic = .ok mark ∧ mark.Shows file diagnostic := by
  obtain ⟨k, token, hk, ht, hinked, hline, hcolumn, message, hmessage⟩ := Stream.exists_finding_token h hi hd
  refine ⟨⟨diagnostic.line - 1, diagnostic.column - 1, diagnostic.column - 1 + width token, message,
    diagnostic.severity, some diagnostic.fullCode⟩, ?_, hmessage, rfl, rfl, k, token, hk, ht, ?_, ?_, ?_⟩
  · rw [ofDiagnostic, hk, Stream.fetch_at ht, hmessage]
    rfl
  · rw [hline]
  · rw [hcolumn]
  · exact Stream.covers_token h ht hinked (by rw [hline]) (by rw [hcolumn]) rfl

variable {source : Text}

theorem all_of_error {error : LexError} (h : Stream.ofSource source = .error error) (filename : Text) :
    all source filename = .ok [ofLexError error] := by
  unfold all SourceFile.ofSource
  rw [h]
  rfl

/-- The marks of a text that has a stream, from the check of the stream alone. -/
theorem all_of_ok {stream : Stream} (h : Stream.ofSource source = .ok stream) (filename : Text) :
    all source filename = (stream.checkFunctions.result.mapError MarkFault.check >>= fun _ =>
      (stream.checkFunctions.events.filterMap Event.diagnostic?).mapM (ofDiagnostic stream)) := by
  have hfile : SourceFile.ofSource source filename = .ok { source, filename, stream } :=
    SourceFile.ofSource_eq_ok.2 ⟨stream, h, rfl⟩
  have hchecked : SourceFile.checked { source, filename, stream } = stream.checkFunctions.result.map fun _ =>
      SourceFile.run { source, filename, stream } stream.checkFunctions := rfl
  unfold all
  rw [hfile]
  show (SourceFile.checked { source, filename, stream }).mapError MarkFault.check >>= _ = _
  rw [hchecked]
  cases stream.checkFunctions.result with
  | error fault => rfl
  | ok value =>
    show List.mapM (ofDiagnostic (SourceFile.run _ _).stream) (SourceFile.run _ _).diagnostics = _
    rw [SourceFile.run_stream, SourceFile.run, SourceFile.foldl_after_diagnostics]
    rfl

/-- The name of a document has no part in its marks. -/
theorem all_filename (source filename other : Text) : all source filename = all source other := by
  cases h : Stream.ofSource source with
  | error error => rw [all_of_error h, all_of_error h]
  | ok stream => rw [all_of_ok h, all_of_ok h]

/-- A text that can be checked has one mark for each finding. -/
theorem exists_all {filename : Text} {file checked : SourceFile}
    (h : SourceFile.ofSource source filename = .ok file) (hc : file.checked = .ok checked) :
    ∃ marks, all source filename = .ok marks ∧
      List.Forall₂ (fun diagnostic mark => mark.Shows checked diagnostic) checked.diagnostics marks := by
  have hfindings := SourceFile.checked_diagnostics h hc
  obtain ⟨stream, hstream, hfile⟩ := SourceFile.ofSource_eq_ok.1 h
  obtain ⟨-, hchecked⟩ := SourceFile.checked_eq_ok.1 hc
  have hkept : checked.stream = stream ∧ checked.source = source := by
    rw [hchecked, SourceFile.foldl_after_stream, (SourceFile.foldl_after_text _ _).1, hfile]
    exact ⟨rfl, rfl⟩
  have hmarks : ∀ diagnostic ∈ checked.diagnostics,
      ∃ mark, ofDiagnostic checked.stream diagnostic = .ok mark ∧ mark.Shows checked diagnostic := by
    intro diagnostic hd
    rw [hfindings, hfile] at hd
    obtain ⟨i, hi, hd⟩ := List.mem_flatMap.1 hd
    rw [← hkept.1, ← hkept.2] at hstream
    rw [← hkept.1] at hi hd
    exact exists_ofDiagnostic hstream hi hd
  obtain ⟨marks, hall, hshows⟩ := exists_mapM hmarks
  refine ⟨marks, ?_, hshows⟩
  unfold all
  rw [h]
  show file.checked.mapError MarkFault.check >>= _ = _
  rw [hc]
  exact hall

/-- The mark of an error covers one character. -/
theorem ofLexError_covers {error : LexError} (h : Stream.ofSource source = .error error) :
    ∃ c, (ofLexError error).Covers source [c] := by
  obtain ⟨p, hpoints⟩ := Stream.exists_pointsAt h
  obtain ⟨c, rest, hdrop, hc⟩ := hpoints.culprit.inked
  have hline := hpoints.line
  have hcolumn := hpoints.column
  have hat := Text.getElem?_feedLines (source.take p) (source.drop p)
  rw [List.take_append_drop, hdrop, List.takeWhile_cons, if_pos (by simpa using hc)] at hat
  have hnumber : (source.take p).count '\n' = (ofLexError error).line.toNat := by
    show _ = (error.line - 1).toNat
    omega
  rw [hnumber] at hat
  have hzero : 0 ≤ (ofLexError error).line := by
    show 0 ≤ error.line - 1
    omega
  have hfirst : (ofLexError error).first = (Text.lastLine (source.take p)).length := by
    show error.column - 1 = _
    omega
  have hlast : (ofLexError error).last = (ofLexError error).first + ([c] : Text).length := by
    show error.column = error.column - 1 + 1
    omega
  exact ⟨c, covers_between hzero hat hfirst hlast (List.cons_ne_nil _ _)⟩

end Mark

/-! ## The latest text of a document -/

/-- The text that an event brings. -/
def EditorEvent.text? : EditorEvent → Option Text
  | opened _ text | changed _ text => some text
  | saved _ => none

namespace Workspace

variable {workspace : Workspace} {events : List EditorEvent}

/-- The latest text that the events brought for the document. -/
def latest? (workspace : Workspace) (past : List EditorEvent) (uri : Text) : Option Text :=
  (past.reverse.filter fun event => workspace.document event.uri == workspace.document uri).findSome? (·.text?)

/-- After each of the events, the workspace gives the latest text of its document if there was any. -/
def GivesLatest (workspace : Workspace) (events : List EditorEvent) : Prop :=
  ∀ before event later text, events = before ++ event :: later →
    workspace.latest? (before ++ [event]) event.uri = some text →
      workspace.text? (before ++ [event]) event.uri = some text

theorem latest?_concat (workspace : Workspace) (past : List EditorEvent) (event : EditorEvent) (uri : Text) :
    workspace.latest? (past ++ [event]) uri =
      if workspace.document event.uri == workspace.document uri then event.text?.or (workspace.latest? past uri)
      else workspace.latest? past uri := by
  unfold latest?
  rw [List.reverse_append, List.reverse_singleton, List.singleton_append, List.filter_cons]
  split
  · rw [List.findSome?_cons]
    cases event.text? with
    | none => rfl
    | some text => rfl
  · rfl

/-- Each event is told about once, in order. -/
theorem runAfter_uris (workspace : Workspace) (past events : List EditorEvent) :
    (workspace.runAfter past events).map (·.1) = events.map (·.uri) := by
  induction events generalizing past with
  | nil => rfl
  | cons event rest ih => exact congrArg (event.uri :: ·) (ih _)

/-- What is told about an event depends on what was said up to it. -/
theorem runAfter_getElem? (workspace : Workspace) (past before : List EditorEvent) (event : EditorEvent)
    (later : List EditorEvent) : (workspace.runAfter past (before ++ event :: later))[before.length]? =
      some (event.uri, workspace.marks (past ++ (before ++ [event])) event.uri) := by
  induction before generalizing past with
  | nil => rfl
  | cons first rest ih =>
    rw [List.cons_append, runAfter]
    exact (ih (past ++ [first])).trans (by rw [List.append_assoc]; rfl)

/-- Each event is told about once, with the marks of the latest text of its document and of nothing else. If that
text can be checked, there is one mark for each finding, which says what the finding says and covers the first line
of its token. If it has no stream, one mark covers the character where that shows. -/
theorem marks_cover_latest (workspace : Workspace) (events : List EditorEvent)
    (hlatest : workspace.GivesLatest events) :
    (workspace.run events).map (·.1) = events.map (·.uri) ∧
    ∀ before event later text, events = before ++ event :: later →
      workspace.latest? (before ++ [event]) event.uri = some text →
      ∃ told, (workspace.run events)[before.length]? = some (event.uri, told) ∧
        (∀ filename, told = Mark.all text filename) ∧
        (∀ filename file checked, SourceFile.ofSource text filename = .ok file → file.checked = .ok checked →
          ∃ marks, told = .ok marks ∧
            List.Forall₂ (fun diagnostic mark => mark.Shows checked diagnostic) checked.diagnostics marks) ∧
        ∀ error, Stream.ofSource text = .error error →
          ∃ mark c, told = .ok [mark] ∧ mark.message = error.fault.message ∧ mark.severity = .error ∧
            mark.code = none ∧ mark.last = mark.first + 1 ∧ mark.Covers text [c] := by
  refine ⟨workspace.runAfter_uris [] events, ?_⟩
  intro before event later text hevents htext
  have hgiven := hlatest before event later text hevents htext
  have htold : workspace.marks (before ++ [event]) event.uri = Mark.all text (filename event.uri) := by
    unfold marks
    rw [hgiven]
  refine ⟨workspace.marks (before ++ [event]) event.uri, ?_, ?_, ?_, ?_⟩
  · rw [hevents]
    exact workspace.runAfter_getElem? [] before event later
  · intro filename
    exact htold.trans (Mark.all_filename ..)
  · intro filename file checked hfile hchecked
    obtain ⟨marks, hmarks, hshows⟩ := Mark.exists_all hfile hchecked
    exact ⟨marks, htold.trans ((Mark.all_filename ..).trans hmarks), hshows⟩
  · intro error herror
    obtain ⟨c, hcovers⟩ := Mark.ofLexError_covers herror
    refine ⟨Mark.ofLexError error, c, htold.trans (Mark.all_of_error herror _), rfl, rfl, rfl, ?_, hcovers⟩
    show error.column = error.column - 1 + 1
    omega

end Workspace

/-! ## The workspace in memory -/

namespace Documents

/-- The text of each document is the latest that the events brought, and nothing was refused. -/
structure Recalls (documents : Documents) (past : List EditorEvent) : Prop where
  get? : ∀ uri, documents.get? uri = workspace.latest? past uri
  accepted : documents.refused = false

variable {documents : Documents} {past : List EditorEvent} {event : EditorEvent}

theorem get?_put (documents : Documents) (uri text other : Text) :
    (documents.put uri text).get? other =
      if Uri.decode uri == Uri.decode other then some text else documents.get? other := by
  unfold put get?
  rw [Table.get?_adjust]

/-- One event: the documents recall it with the others. -/
theorem Recalls.after (h : documents.Recalls past) (husable : Uri.isUsable event.uri = true) :
    (documents.after event).Recalls (past ++ [event]) := by
  have hput : ∀ uri text, (documents.put uri text).Recalls (past ++ [.opened uri text]) := by
    intro uri text
    refine ⟨fun other => ?_, rfl⟩
    rw [get?_put, h.get?, Workspace.latest?_concat]
    rfl
  cases event with
  | opened uri text =>
    have huri : Uri.isUsable uri = true := husable
    rw [Documents.after, if_pos huri]
    exact hput uri text
  | changed uri text =>
    have huri : Uri.isUsable uri = true := husable
    rw [Documents.after, if_pos (Bool.or_eq_true_iff.2 (Or.inr huri))]
    refine ⟨fun other => ?_, rfl⟩
    rw [(hput uri text).get?, Workspace.latest?_concat, Workspace.latest?_concat]
    rfl
  | saved uri =>
    refine ⟨fun other => ?_, rfl⟩
    rw [Workspace.latest?_concat]
    exact (h.get? other).trans (ite_self _).symm

/-- All events: the documents recall the whole past. -/
theorem recalls_ofEvents (h : ∀ event ∈ past, Uri.isUsable event.uri = true) : (ofEvents past).Recalls past := by
  induction past using List.reverseRecOn with
  | nil => exact ⟨fun _ => rfl, rfl⟩
  | append_singleton past event ih =>
    unfold ofEvents
    rw [List.foldl_append]
    refine Recalls.after (ih fun other hm => h other (List.mem_append_left _ hm)) ?_
    exact h event (List.mem_append_right _ List.mem_cons_self)

theorem workspace_givesLatest {events : List EditorEvent} (h : ∀ event ∈ events, Uri.isUsable event.uri = true) :
    workspace.GivesLatest events := by
  intro before event later text hevents htext
  have hrecalls : (ofEvents (before ++ [event])).Recalls (before ++ [event]) := by
    refine recalls_ofEvents fun other hm => h other ?_
    rw [hevents, ← List.singleton_append, ← List.append_assoc]
    exact List.mem_append_left _ hm
  unfold workspace
  dsimp only
  rw [hrecalls.accepted, if_neg Bool.false_ne_true, hrecalls.get?]
  exact htext

end Documents

/-- A document that is opened with half a string in it, changed under another spelling of its URI, and saved. -/
def mendedString : List EditorEvent :=
  [.opened "file:///%41.php".toList "<?php 'b".toList,
    .changed "file:///A.php".toList "<?php /** @see\n */ function b() \x7b\x7d\nfunction c() \x7b\x7d".toList,
    .saved "file:///%41.php".toList]

/-- First the quote is marked, and in the end the tag and the second function. -/
theorem Workspace.marks_cover_latest_mended :
    Documents.workspace.GivesLatest mendedString ∧
    (∃ mark c, (Documents.workspace.run mendedString)[0]? = some ("file:///%41.php".toList, .ok [mark]) ∧
      mark.message = "unterminated string literal".toList ∧ mark.Covers "<?php 'b".toList [c]) ∧
    ∃ marks file checked,
      (Documents.workspace.run mendedString)[2]? = some ("file:///%41.php".toList, .ok marks) ∧
      SourceFile.ofSource "<?php /** @see\n */ function b() \x7b\x7d\nfunction c() \x7b\x7d".toList [] = .ok file ∧
      file.checked = .ok checked ∧ checked.diagnostics.map (·.code) = ["EmptySees", "Missing"] ∧
      List.Forall₂ (fun diagnostic mark => mark.Shows checked diagnostic) checked.diagnostics marks := by
  have hlatest : Documents.workspace.GivesLatest mendedString :=
    Documents.workspace_givesLatest (List.all_eq_true.1 (by decide +kernel))
  obtain ⟨-, hall⟩ := marks_cover_latest Documents.workspace mendedString hlatest
  refine ⟨hlatest, ?_, ?_⟩
  · obtain ⟨told, htold, -, -, herror⟩ := hall [] (.opened "file:///%41.php".toList "<?php 'b".toList)
      mendedString.tail "<?php 'b".toList rfl (by decide +kernel)
    obtain ⟨mark, c, rfl, hmessage, -, -, -, hcovers⟩ := herror ⟨.openString, 1, 7⟩ (by decide +kernel)
    exact ⟨mark, c, htold, hmessage, hcovers⟩
  · obtain ⟨told, htold, -, hshown, -⟩ := hall (mendedString.take 2) (.saved "file:///%41.php".toList) []
      "<?php /** @see\n */ function b() \x7b\x7d\nfunction c() \x7b\x7d".toList rfl (by decide +kernel)
    have hrun : (SourceFile.ofSource
        "<?php /** @see\n */ function b() \x7b\x7d\nfunction c() \x7b\x7d".toList []).toOption.any (fun file =>
          file.checked.toOption.any fun checked =>
            checked.diagnostics.map (·.code) == ["EmptySees", "Missing"]) = true := by
      decide +kernel
    obtain ⟨file, hfile, hrun⟩ := exists_eq_ok_of_any hrun
    obtain ⟨checked, hchecked, hcodes⟩ := exists_eq_ok_of_any hrun
    obtain ⟨marks, rfl, hmarks⟩ := hshown [] file checked hfile hchecked
    exact ⟨marks, file, checked, htold, hfile, hchecked, eq_of_beq hcodes, hmarks⟩

end DocLint
