import DocLint.Command.Run
import DocLint.Proofs.CollectedFiles
import DocLint.Proofs.CommentCounts
import DocLint.Proofs.JsonText
import Mathlib.Data.List.Nodup

/-!
# Reports and exit codes agree

Each path that is collected is scanned by itself. If it leads to a text that has a stream, a file comes of it, which
depends on this path and this text only (`Options.Scans`); else the run fails, and that is all. All reports are
about these files, in the order of their paths, and show the same totals (`Report.Shows`): in words these are the lines
themselves, and as JSON it is what can be read from the text.

Files are told apart by the texts of their paths, so as JSON no entry takes the place of another.
-/

namespace DocLint

/-! ## Totals -/

theorem SourceFile.length_findings (file : SourceFile) :
    (file.findings .error).length + (file.findings .warning).length = file.diagnostics.length := by
  unfold findings
  induction file.diagnostics with
  | nil => rfl
  | cons diagnostic rest ih =>
    rw [List.filter_cons, List.filter_cons, List.length_cons, ← ih]
    cases diagnostic.severity with
    | error =>
      rw [if_pos (by rfl), if_neg (by decide), List.length_cons]
      omega
    | warning => rfl

namespace Report

variable {files : List SourceFile}

theorem count_eq (files : List SourceFile) (severity : Severity) :
    count files severity = (files.map fun file => (file.findings severity).length).sum :=
  List.length_flatMap

/-- Every finding that is kept is counted once. -/
theorem count_add_count (files : List SourceFile) :
    count files .error + count files .warning = (files.map fun file => file.diagnostics.length).sum := by
  rw [count_eq, count_eq]
  induction files with
  | nil => rfl
  | cons file rest ih =>
    simp only [List.map_cons, List.sum_cons]
    have hfile := file.length_findings
    omega

/-- There is a finding if and only if the totals are not both zero. -/
theorem any_diagnostics_iff :
    files.any (!·.diagnostics.isEmpty) = true ↔ ¬ (count files .error = 0 ∧ count files .warning = 0) := by
  have hsum := count_add_count files
  have hany : files.any (!·.diagnostics.isEmpty) = true ↔
      (files.map fun file => file.diagnostics.length).sum ≠ 0 := by
    clear hsum
    induction files with
    | nil => decide
    | cons file rest ih =>
      rw [List.any_cons, Bool.or_eq_true, ih, List.map_cons, List.sum_cons]
      cases file.diagnostics with
      | nil => simp
      | cons diagnostic more => simp
  rw [hany]
  omega

/-! ## Reports -/

/-- The line about one file. -/
def countsLine (file : SourceFile) : Text :=
  file.filename ++ ": ".toList ++ Nat.toDigits 10 (file.findings .error).length ++ " error(s), ".toList ++
    Nat.toDigits 10 (file.findings .warning).length ++ " warning(s)\n".toList

/-- The last line of a report in words. -/
def foundLine (errors warnings number : Nat) : Text :=
  "Found ".toList ++ Nat.toDigits 10 errors ++ " error(s) and ".toList ++ Nat.toDigits 10 warnings ++
    " warning(s) in ".toList ++ Nat.toDigits 10 number ++ " file(s)\n".toList

/-- A finding as JSON. -/
def IsMessage (diagnostic : Diagnostic) (json : Json) : Prop :=
  ∃ message, diagnostic.message = .ok message ∧ json = .object [
    ("message".toList, .text message),
    ("source".toList, .text diagnostic.fullCode.toList),
    ("severity".toList, .text diagnostic.severity.label.toList),
    ("line".toList, .number diagnostic.line),
    ("column".toList, .number diagnostic.column)]

/-- The entry of a file as JSON: its name, its counts, and a message for each finding that is counted. -/
structure IsEntry (file : SourceFile) (entry : Text × Json) : Prop where
  name : entry.1 = file.filename
  fields : ∃ messages, entry.2 = .object [
      ("errors".toList, .number (file.findings .error).length),
      ("warnings".toList, .number (file.findings .warning).length),
      ("messages".toList, .list messages)] ∧
    List.Forall₂ IsMessage file.diagnostics messages ∧
    messages.length = (file.findings .error).length + (file.findings .warning).length

/-- The text is a report on the files that shows the given totals, and how many functions have no doc comment and how
many have one. -/
inductive Shows (files : List SourceFile) (errors warnings no yes : Nat) : ReportStyle → Text → Prop where
  /-- The findings of each file, the counts of each file that has some, the metric and the totals. -/
  | full {shown : List (List Text)}
      (each : List.Forall₂ (fun file texts => List.Forall₂ (fun diagnostic text =>
        diagnostic.render file.source file.filename = .ok text) file.diagnostics texts) files shown) :
      Shows files errors warnings no yes .full (shown.flatten.flatMap (· ++ "\n\n".toList) ++
        ((files.filter (!·.diagnostics.isEmpty)).flatMap countsLine ++ commentLine no yes ++
          foundLine errors warnings files.length))
  /-- The counts of each file, the metric and the totals. -/
  | summary : Shows files errors warnings no yes .summary
      (files.flatMap countsLine ++ commentLine no yes ++ foundLine errors warnings files.length)
  /-- The totals, one entry for each file, and the metric. -/
  | json {text : Text} {entries : List (Text × Json)} {comments : Json} (apart : (entries.map (·.1)).Nodup)
      (each : List.Forall₂ IsEntry files entries) (metric : CommentJson no yes comments)
      (read : Json.read? text = some (.object [
        ("totals".toList, .object [("errors".toList, .number errors), ("warnings".toList, .number warnings)]),
        ("files".toList, .object entries),
        ("metrics".toList, comments)])) : Shows files errors warnings no yes .json text

theorem fileLine_true (file : SourceFile) : fileLine true file = countsLine file := by
  have hmiddle : " error(s), ".toList = " error(s)".toList ++ ", ".toList := by decide
  have hend : " warning(s)\n".toList = " warning(s)".toList ++ "\n".toList := by decide
  unfold fileLine countsLine tally
  rw [if_neg (by simp), hmiddle, hend]
  simp only [List.append_assoc]
  rfl

theorem fileLine_false (file : SourceFile) :
    fileLine false file = if file.diagnostics.isEmpty then [] else countsLine file := by
  have hlength := file.length_findings
  have hempty : file.diagnostics.isEmpty = true ↔
      (file.findings .error).length = 0 ∧ (file.findings .warning).length = 0 := by
    rw [List.isEmpty_iff, ← List.length_eq_zero_iff]
    omega
  rw [← fileLine_true]
  unfold fileLine
  dsimp only
  by_cases h : file.diagnostics.isEmpty = true
  · rw [if_pos ⟨(hempty.1 h).1, (hempty.1 h).2, rfl⟩, if_pos h]
  · rw [if_neg fun hno => h (hempty.2 ⟨hno.1, hno.2.1⟩), if_neg h, if_neg (by simp)]

theorem flatMap_fileLine_false (files : List SourceFile) :
    files.flatMap (fileLine false) = (files.filter (!·.diagnostics.isEmpty)).flatMap countsLine := by
  induction files with
  | nil => rfl
  | cons file rest ih =>
    rw [List.flatMap_cons, List.filter_cons, ih, fileLine_false]
    cases file.diagnostics.isEmpty with
    | true => rfl
    | false => rfl

theorem summary_eq {no yes : Nat} (h : (metrics files).ListsComments no yes) (clean : Bool) :
    summary clean files = files.flatMap (fileLine clean) ++ commentLine no yes ++
      foundLine (count files .error) (count files .warning) files.length := by
  have hmiddle : " error(s) and ".toList = " error(s)".toList ++ " and ".toList := by decide
  have hend : " warning(s) in ".toList = " warning(s)".toList ++ " in ".toList := by decide
  unfold summary foundLine tally
  rw [metricLines_eq h, hmiddle, hend]
  simp only [List.append_assoc]
  rfl

/-- What stands in front of the counts: the findings of each file, each with an empty line behind it. -/
theorem exists_shown {parts : List Text} (h : files.mapM details = .ok parts) :
    ∃ shown, List.Forall₂ (fun file texts => List.Forall₂ (fun diagnostic text =>
        Diagnostic.render diagnostic (SourceFile.source file) file.filename = .ok text) file.diagnostics texts)
          files shown ∧ parts.flatten = shown.flatten.flatMap (· ++ "\n\n".toList) := by
  induction mapM_eq_ok.1 h with
  | nil => exact ⟨[], .nil, rfl⟩
  | @cons file part rest more hpart hmore ih =>
    obtain ⟨shown, hshown, hflatten⟩ := ih (mapM_eq_ok.2 hmore)
    obtain ⟨texts, htexts, hpart⟩ := bind_eq_ok.1 hpart
    obtain rfl := Except.ok.inj hpart
    refine ⟨texts :: shown, .cons (mapM_eq_ok.1 htexts) hshown, ?_⟩
    rw [List.flatten_cons, List.flatten_cons, List.flatMap_append, hflatten]

theorem messageJson_isMessage {diagnostic : Diagnostic} {json : Json} (h : messageJson diagnostic = .ok json) :
    IsMessage diagnostic json := by
  obtain ⟨message, hmessage, h⟩ := bind_eq_ok.1 h
  exact ⟨message, mapError_eq_ok.1 hmessage, (Except.ok.inj h).symm⟩

theorem fileJson_isEntry {file : SourceFile} {json : Json} (h : fileJson file = .ok json) :
    IsEntry file (file.filename, json) := by
  unfold fileJson at h
  obtain ⟨messages, hmessages, h⟩ := bind_eq_ok.1 h
  obtain rfl := Except.ok.inj h
  have hall := mapM_eq_ok.1 hmessages
  refine ⟨rfl, messages, rfl, hall.imp fun diagnostic json => messageJson_isMessage, ?_⟩
  rw [← hall.length_eq, file.length_findings]

/-- A new key comes behind the others. -/
theorem adjust_fresh {table : Table Text Json} {key : Text} (h : ∀ entry ∈ table, entry.1 ≠ key) (value : Json) :
    table.adjust key value (fun _ => value) = table ++ [(key, value)] := by
  induction table with
  | nil => rfl
  | cons entry rest ih =>
    obtain ⟨other, json⟩ := entry
    have hother : ¬ (other == key) = true := by simpa using h (other, json) List.mem_cons_self
    rw [Table.adjust, if_neg hother, ih fun entry hm => h entry (List.mem_cons_of_mem _ hm)]
    rfl

/-- One file after the other, each adds its own entry to those that are there. -/
theorem exists_entries (hapart : (files.map (·.filename)).Nodup) {table entries : Table Text Json}
    (hfresh : ∀ file ∈ files, ∀ entry ∈ table, entry.1 ≠ file.filename)
    (h : files.foldlM (fun table file => do
      let entry ← fileJson file
      return Table.adjust file.filename entry (fun _ => entry) table) table = .ok entries) :
    ∃ added, entries = table ++ added ∧ List.Forall₂ IsEntry files added := by
  induction files generalizing table with
  | nil =>
    obtain rfl := Except.ok.inj h
    exact ⟨[], (List.append_nil _).symm, .nil⟩
  | cons file rest ih =>
    obtain ⟨hfile, hrest⟩ := List.nodup_cons.1 hapart
    rw [List.foldlM_cons] at h
    obtain ⟨next, hnext, h⟩ := bind_eq_ok.1 h
    obtain ⟨json, hjson, hnext⟩ := bind_eq_ok.1 hnext
    obtain rfl := Except.ok.inj hnext
    rw [adjust_fresh (hfresh file List.mem_cons_self)] at h
    have hnew : ∀ later ∈ rest, ∀ entry ∈ table ++ [(file.filename, json)], entry.1 ≠ later.filename := by
      intro later hlater entry hm
      rcases List.mem_append.1 hm with hm | hm
      · exact hfresh later (List.mem_cons_of_mem _ hlater) entry hm
      · obtain rfl := List.mem_singleton.1 hm
        intro heq
        exact hfile (List.mem_map.2 ⟨later, hlater, heq.symm⟩)
    obtain ⟨added, rfl, hadded⟩ := ih hrest hnew h
    exact ⟨(file.filename, json) :: added, List.append_assoc .., .cons (fileJson_isEntry hjson) hadded⟩

/-- Every report on files with different names shows their totals. -/
theorem ofStyle_shows (hapart : (files.map (·.filename)).Nodup) {no yes : Nat}
    (hcomments : (metrics files).ListsComments no yes) {style : ReportStyle} {text : Text}
    (h : ofStyle style files = .ok text) :
    Shows files (count files .error) (count files .warning) no yes style text := by
  cases style with
  | full =>
    obtain ⟨parts, hparts, h⟩ := bind_eq_ok.1 h
    obtain rfl := Except.ok.inj h
    obtain ⟨shown, hshown, hflatten⟩ := exists_shown hparts
    rw [hflatten, summary_eq hcomments, flatMap_fileLine_false]
    exact .full hshown
  | summary =>
    obtain rfl := Except.ok.inj h
    rw [summary_eq hcomments, funext fileLine_true]
    exact .summary
  | json =>
    obtain ⟨entries, hentries, h⟩ := bind_eq_ok.1 h
    obtain rfl := Except.ok.inj h
    obtain ⟨added, rfl, hadded⟩ := exists_entries hapart (fun _ _ _ hm => absurd hm List.not_mem_nil) hentries
    refine .json ?_ hadded (metricsJson_comments hcomments) (Json.read?_render 0 _ ?_)
    · rw [← map_eq_map_of_forall₂ hadded fun file entry hentry => hentry.name.symm]
      exact hapart
    · intro c hc
      rw [List.mem_singleton.1 hc]
      rfl

end Report

/-! ## Scans -/

/-- The tokens of the file at a path, if it can be read and decoded and its tokens can be told apart. -/
def Disk.stream? (disk : Disk) (path : Path) : Option Stream :=
  (disk.read path).toOption.bind fun text => (Stream.ofSource text).toOption

/-- What comes of a path with the text `text`. -/
structure Options.ScansText (options : Options) (path : Path) (text : Text) (file : SourceFile) : Prop where
  filename : file.filename = path.toText
  lexed : Stream.ofSource text = .ok file.stream
  kept : ∃ fresh checked, SourceFile.ofSource text path.toText = .ok fresh ∧ fresh.checked = .ok checked ∧
    file = options.select checked

/-- What comes of a path on a disk. -/
def Options.Scans (options : Options) (disk : Disk) (path : Path) (file : SourceFile) : Prop :=
  ∃ text, disk.read path = .ok text ∧ options.ScansText path text file

namespace Options

variable {options : Options} {disk : Disk} {path : Path}

theorem scansText_select {text : Text} {fresh checked : SourceFile}
    (hfresh : SourceFile.ofSource text path.toText = .ok fresh) (hchecked : fresh.checked = .ok checked) :
    options.ScansText path text (options.select checked) := by
  obtain ⟨stream, hstream, hfile⟩ := SourceFile.ofSource_eq_ok.1 hfresh
  obtain ⟨-, hevents⟩ := SourceFile.checked_eq_ok.1 hchecked
  refine ⟨?_, ?_, fresh, checked, hfresh, hchecked, rfl⟩
  · show checked.filename = _
    rw [hevents, (SourceFile.foldl_after_text _ _).2, hfile]
  · show Stream.ofSource text = .ok checked.stream
    rw [hevents, SourceFile.foldl_after_stream, hfile]
    exact hstream

theorem ScansText.metrics {text : Text} {file : SourceFile} (h : options.ScansText path text file) :
    file.metrics = file.stream.commentMetrics := by
  obtain ⟨fresh, checked, hfresh, hchecked, rfl⟩ := h.kept
  show checked.metrics = checked.stream.commentMetrics
  exact SourceFile.checked_metrics hfresh hchecked

theorem scanText_cases {text : Text} {found : FileScan}
    (h : options.scanText text path.toText = .ok found) :
    (found.file = none ∧ (Stream.ofSource text).toOption = none) ∨
      ∃ file, found.file = some file ∧ options.ScansText path text file := by
  unfold scanText at h
  cases hfresh : SourceFile.ofSource text path.toText with
  | error error =>
    rw [hfresh] at h
    obtain rfl := Except.ok.inj h
    refine Or.inl ⟨rfl, ?_⟩
    cases hstream : Stream.ofSource text with
    | error error => rfl
    | ok stream =>
      have hfile : SourceFile.ofSource text path.toText = .ok { source := text, filename := path.toText, stream } :=
        SourceFile.ofSource_eq_ok.2 ⟨stream, hstream, rfl⟩
      rw [hfresh] at hfile
      cases hfile
  | ok fresh =>
    rw [hfresh] at h
    obtain ⟨checked, hchecked, h⟩ := bind_eq_ok.1 h
    obtain rfl := Except.ok.inj h
    exact Or.inr ⟨options.select checked, rfl, scansText_select hfresh hchecked⟩

/-- A scan gives a file if and only if the path leads to a text that has a stream. -/
theorem scan_cases {found : FileScan} (h : options.scan disk path = .ok found) :
    (found.file = none ∧ disk.stream? path = none) ∨
      ∃ file, found.file = some file ∧ (disk.stream? path).isSome = true ∧ options.Scans disk path file := by
  unfold scan at h
  dsimp only at h
  by_cases hnul : path.toText.contains '\x00' = true
  · rw [if_pos hnul] at h
    cases h
  · rw [if_neg hnul] at h
    unfold Disk.stream?
    cases hread : disk.read path with
    | error fault =>
      rw [hread] at h
      obtain rfl := Except.ok.inj h
      exact Or.inl ⟨rfl, rfl⟩
    | ok text =>
      rw [hread] at h
      obtain ⟨scanned, hscanned, h⟩ := bind_eq_ok.1 h
      obtain rfl := Except.ok.inj h
      rcases scanText_cases (mapError_eq_ok.1 hscanned) with ⟨hnone, hstream⟩ | ⟨file, hfile, hscans⟩
      · exact Or.inl ⟨hnone, hstream⟩
      · refine Or.inr ⟨file, hfile, ?_, text, hread, hscans⟩
        show (Stream.ofSource text).toOption.isSome = true
        rw [hscans.lexed]
        rfl

/-- All scans: one file for each path that leads to a text with a stream, in order. -/
theorem scans_files {paths : List Path} {scans : List FileScan} (h : paths.mapM (options.scan disk) = .ok scans) :
    List.Forall₂ (options.Scans disk) (paths.filter fun path => (disk.stream? path).isSome) (Outcome.files scans) ∧
      (scans.any (·.file.isNone) = true ↔ ∃ path ∈ paths, disk.stream? path = none) := by
  induction mapM_eq_ok.1 h with
  | nil => exact ⟨.nil, by simp⟩
  | @cons path found rest more hscan hmore ih =>
    obtain ⟨hfiles, hany⟩ := ih (mapM_eq_ok.2 hmore)
    unfold Outcome.files at hfiles ⊢
    rw [List.any_cons, Bool.or_eq_true, hany, List.exists_mem_cons_iff]
    rcases scan_cases hscan with ⟨hnone, hstream⟩ | ⟨file, hfile, hstream, hscans⟩
    · rw [List.filter_cons, if_neg (by simp [hstream]), List.filterMap_cons_none hnone, hnone]
      exact ⟨hfiles, by simp [hstream]⟩
    · rw [List.filter_cons, if_pos hstream, List.filterMap_cons_some hfile, hfile]
      refine ⟨.cons hscans hfiles, ?_⟩
      obtain ⟨stream, hstream⟩ := Option.isSome_iff_exists.1 hstream
      simp [hstream]

end Options

namespace Options

variable {options : Options} {disk : Disk}

/-- Files that come of different paths have different names. -/
theorem names_apart {paths : List Path} (hproper : ∀ path ∈ paths, path.Proper) (hapart : paths.Nodup)
    {files : List SourceFile} (h : List.Forall₂ (options.Scans disk) paths files) :
    (files.map (·.filename)).Nodup := by
  have hnames : paths.map Path.toText = files.map (·.filename) := by
    refine map_eq_map_of_forall₂ h ?_
    rintro path file ⟨text, -, hscans⟩
    exact hscans.filename.symm
  rw [← hnames]
  refine List.Nodup.map_on (fun path hm other hm' htext => ?_) hapart
  exact (hproper path hm).eq_of_toText (hproper other hm') htext

theorem resolve_paths {arguments : Arguments} (h : resolve disk arguments = .ok options) :
    options.paths = arguments.paths.map Path.ofText := by
  obtain ⟨settings, -, h⟩ := bind_eq_ok.1 h
  obtain ⟨configured, -, h⟩ := bind_eq_ok.1 h
  obtain ⟨extensions, -, h⟩ := bind_eq_ok.1 h
  obtain ⟨exclude, -, h⟩ := bind_eq_ok.1 h
  obtain ⟨ignoreCodes, -, h⟩ := bind_eq_ok.1 h
  obtain ⟨report, -, h⟩ := bind_eq_ok.1 h
  obtain rfl := Except.ok.inj h
  rfl

end Options

/-! ## Runs -/

/-- The exit code, given what it means that a scan failed and that something was found. -/
theorem Outcome.exitCode_iff {scans : List FileScan} {failed found : Prop}
    (hfailed : scans.any (·.file.isNone) = true ↔ failed)
    (hfound : (files scans).any (!·.diagnostics.isEmpty) = true ↔ found) :
    (exitCode scans = 2 ↔ failed) ∧ (exitCode scans = 1 ↔ ¬ failed ∧ found) ∧
      (exitCode scans = 0 ↔ ¬ failed ∧ ¬ found) := by
  unfold exitCode
  rw [← hfailed, ← hfound]
  split
  · next h => simp [h]
  · next h =>
    split
    · next h' => simp [h, h']
    · next h' => simp [h, h']

/-- A run whose options can be used reports on the files of all collected paths that lead to a text with a stream,
each by itself. The totals are the sums of the counts of the files and count every finding that is kept, the
metric counts every function whatever is kept, and the exit code says whether a path failed, and else whether there
are findings. -/
theorem run_reports_consistently {disk : Disk} {commandLine : List Text} {arguments : Arguments}
    {options : Options} {outcome : Outcome} (harguments : Arguments.ofTexts commandLine = .ok arguments)
    (hoptions : Options.resolve disk arguments = .ok options) (hrun : run disk commandLine = .ok outcome) :
    ∃ (paths : List Path) (files : List SourceFile) (errors warnings no yes : Nat),
      options.toSearch.collect disk = .ok paths ∧
      List.Forall₂ (options.Scans disk) (paths.filter fun path => (disk.stream? path).isSome) files ∧
      errors = (files.map fun file => (file.findings .error).length).sum ∧
      warnings = (files.map fun file => (file.findings .warning).length).sum ∧
      errors + warnings = (files.map fun file => file.diagnostics.length).sum ∧
      no + yes = (files.map fun file => file.stream.toList.countP (·.kind == .function)).sum ∧
      Report.Shows files errors warnings no yes options.report outcome.stdout ∧
      (∀ style text, Report.ofStyle style files = .ok text →
        Report.Shows files errors warnings no yes style text) ∧
      (outcome.exit = 2 ↔ ∃ path ∈ paths, disk.stream? path = none) ∧
      (outcome.exit = 1 ↔ ¬ (∃ path ∈ paths, disk.stream? path = none) ∧ ¬ (errors = 0 ∧ warnings = 0)) ∧
      (outcome.exit = 0 ↔ ¬ (∃ path ∈ paths, disk.stream? path = none) ∧ errors = 0 ∧ warnings = 0) := by
  unfold run at hrun
  rw [harguments] at hrun
  simp only [hoptions] at hrun
  obtain ⟨paths, hpaths, hrun⟩ := bind_eq_ok.1 hrun
  obtain ⟨scans, hscans, hrun⟩ := bind_eq_ok.1 hrun
  obtain ⟨stdout, hstdout, hrun⟩ := bind_eq_ok.1 (mapError_eq_ok.1 hrun)
  obtain rfl := Except.ok.inj hrun
  have hcollect := mapError_eq_ok.1 hpaths
  obtain ⟨hfiles, hfailed⟩ := Options.scans_files hscans
  have hproper : ∀ path ∈ paths, path.Proper := by
    refine Search.collect_proper hcollect ?_
    rw [Options.resolve_paths hoptions]
    exact Path.map_ofText_proper _
  have hnames := Options.names_apart (fun path hm => hproper path (List.mem_filter.1 hm).1)
    ((Search.collect_nodup hcollect).filter _) hfiles
  have hmetrics : ∀ file ∈ Outcome.files scans, file.metrics = file.stream.commentMetrics := by
    intro file hm
    obtain ⟨path, -, text, -, hscans⟩ := exists_of_mem_right hfiles hm
    exact hscans.metrics
  obtain ⟨no, yes, hcomments⟩ := Report.metrics_listsComments hmetrics
  have hfunctions := hcomments.tokens_eq.symm.trans (Report.tokens_metrics hmetrics)
  have hexit := Outcome.exitCode_iff hfailed Report.any_diagnostics_iff
  rw [not_not] at hexit
  exact ⟨paths, Outcome.files scans, Report.count (Outcome.files scans) .error,
    Report.count (Outcome.files scans) .warning, no, yes, hcollect, hfiles, Report.count_eq .., Report.count_eq ..,
    Report.count_add_count _, hfunctions, Report.ofStyle_shows hnames hcomments hstdout,
    fun style text h => Report.ofStyle_shows hnames hcomments h, hexit⟩

/-- A directory with a function that has no comment, half a string, and a byte that is no text. -/
def brokenTree : FileTree where
  entries := [
    (["w".toList, "a.php".toList], .file ("<?php function f() \x7b\x7d".toList.map Char.toUInt8)),
    (["w".toList, "b.php".toList], .file ("<?php 'c".toList.map Char.toUInt8)),
    (["w".toList, "d.php".toList], .file [0xFF])]

/-- The paths of the three files. -/
def brokenPaths : List Path :=
  [⟨"/".toList, ["w".toList, "a.php".toList]⟩, ⟨"/".toList, ["w".toList, "b.php".toList]⟩,
    ⟨"/".toList, ["w".toList, "d.php".toList]⟩]

/-- The totals that JSON text starts with. -/
def firstTotals? (text : Text) : Option (Int × Int) :=
  match Json.read? text with
  | some (.object ((_, .object [(_, .number errors), (_, .number warnings)]) :: _)) => some (errors, warnings)
  | _ => none

/-- The three files are found, and as JSON a report on them can be given. -/
theorem brokenTree_run :
    ∃ arguments options outcome, Arguments.ofTexts ["--report".toList, "json".toList, "/w".toList] = .ok arguments ∧
      Options.resolve brokenTree.disk arguments = .ok options ∧ options.report = .json ∧
      options.toSearch.collect brokenTree.disk = .ok brokenPaths ∧
      options.run brokenTree.disk = .ok outcome ∧ outcome.exit = 2 ∧ firstTotals? outcome.stdout = some (1, 0) := by
  have heval : (Arguments.ofTexts ["--report".toList, "json".toList, "/w".toList]).toOption.any (fun arguments =>
      (Options.resolve brokenTree.disk arguments).toOption.any fun options => decide (options.report = .json) &&
        ((options.toSearch.paths.mapM (options.toSearch.expand brokenTree.disk)).toOption.any (fun found =>
          found.flatten.eraseDups == brokenPaths) &&
        (brokenPaths.mapM (options.scan brokenTree.disk)).toOption.any fun scans =>
          (Outcome.ofScans options.report scans).toOption.any fun outcome =>
            outcome.exit == 2 && firstTotals? outcome.stdout == some (1, 0))) = true := by
    decide +kernel
  obtain ⟨arguments, harguments, heval⟩ := exists_eq_ok_of_any heval
  obtain ⟨options, hoptions, heval⟩ := exists_eq_ok_of_any heval
  obtain ⟨hreport, heval⟩ := Bool.and_eq_true_iff.1 heval
  obtain ⟨heval, hscans⟩ := Bool.and_eq_true_iff.1 heval
  obtain ⟨found, hfound, hpaths⟩ := exists_eq_ok_of_any heval
  obtain ⟨scans, hscans, houtcome⟩ := exists_eq_ok_of_any hscans
  obtain ⟨outcome, houtcome, hleft⟩ := exists_eq_ok_of_any houtcome
  obtain ⟨hexit, htotals⟩ := Bool.and_eq_true_iff.1 hleft
  have hcollect : options.toSearch.collect brokenTree.disk = .ok brokenPaths := by
    unfold Search.collect
    rw [hfound]
    show Except.ok (found.flatten.eraseDups.mergeSort Path.le) = _
    rw [eq_of_beq hpaths, List.mergeSort_of_pairwise (by decide)]
  refine ⟨arguments, options, outcome, harguments, hoptions, of_decide_eq_true hreport, hcollect, ?_, eq_of_beq hexit,
    eq_of_beq htotals⟩
  unfold Options.run
  rw [hcollect]
  show (brokenPaths.mapM (options.scan brokenTree.disk) >>= _) = _
  rw [hscans]
  show (Outcome.ofScans options.report scans).mapError _ = _
  rw [houtcome]
  rfl

/-- Two of the three files fail, and the report is about the one that is left, with its one finding. -/
theorem run_reports_consistently_broken :
    ∃ (options : Options) (outcome : Outcome) (files : List SourceFile) (no yes : Nat),
      run brokenTree.disk ["--report".toList, "json".toList, "/w".toList] = .ok outcome ∧ outcome.exit = 2 ∧
      (∃ path ∈ brokenPaths, brokenTree.disk.stream? path = none) ∧
      List.Forall₂ (options.Scans brokenTree.disk)
        (brokenPaths.filter fun path => (brokenTree.disk.stream? path).isSome) files ∧
      files.length = 1 ∧ (files.map fun file => file.diagnostics.length).sum = 1 ∧
      Report.Shows files 1 0 no yes .json outcome.stdout ∧
      no + yes = (files.map fun file => file.stream.toList.countP (·.kind == .function)).sum := by
  obtain ⟨arguments, options, outcome, harguments, hoptions, hreport, hcollect, hoptionsRun, hexit, htotals⟩ :=
    brokenTree_run
  have hrun : run brokenTree.disk ["--report".toList, "json".toList, "/w".toList] = .ok outcome := by
    unfold run
    rw [harguments]
    simp only [hoptions]
    exact hoptionsRun
  obtain ⟨paths, files, errors, warnings, no, yes, hpaths, hfiles, -, -, hsum, hfunctions, hshows, -, hfailed, -⟩ :=
    run_reports_consistently harguments hoptions hrun
  obtain rfl := Except.ok.inj (hcollect.symm.trans hpaths)
  rw [hreport] at hshows
  -- the totals are those that stand in the text
  obtain ⟨rfl, rfl⟩ : errors = 1 ∧ warnings = 0 := by
    cases hshows with
    | json _ _ _ hread =>
      unfold firstTotals? at htotals
      rw [hread] at htotals
      obtain ⟨herrors, hwarnings⟩ := Prod.mk.inj (Option.some.inj htotals)
      exact ⟨Int.ofNat.inj herrors, Int.ofNat.inj hwarnings⟩
  refine ⟨options, outcome, files, no, yes, hrun, hexit, hfailed.1 hexit, hfiles, ?_, hsum.symm, hshows, hfunctions⟩
  rw [← hfiles.length_eq]
  decide +kernel

end DocLint
