import DocLint.Command.Run
import DocLint.Files.Tree
import DocLint.Proofs.Attribution
import DocLint.Proofs.Results

/-!
# Findings that are not reported

The function comment rule gives one warning only, so a run without warnings is a run that ignores its code. This
holds of the scan of a file (`Options.scan_onFile`), of the options that a command line resolves to
(`Options.resolve_codes`), and, as an option is read the same wherever it stands (`ArgumentState.read_append`,
`ArgumentState.read_prior`), of the command line itself. Codes are ignored one list after the other.
-/

namespace DocLint

/-- The code of a type hint that the comment does not cover. -/
def typeHintCode : Text := "TypeHintMismatch".toList

/-- Is the finding among the codes, by its own code or by that with its rule? -/
def Diagnostic.isAmong (codes : List (Option Text)) (diagnostic : Diagnostic) : Bool :=
  codes.contains (some diagnostic.code.toList) || codes.contains (some diagnostic.fullCode.toList)

/-- The options with other codes to ignore. -/
def Options.ignoring (options : Options) (codes : List (Option Text)) : Options :=
  { options with ignoreCodes := codes }

/-- The file without the findings among the codes. -/
def SourceFile.without (codes : List (Option Text)) (file : SourceFile) : SourceFile :=
  { file with diagnostics := file.diagnostics.filter (!·.isAmong codes) }

/-- The scan with its file changed. -/
def FileScan.onFile (change : SourceFile → SourceFile) (scan : FileScan) : FileScan :=
  { scan with file := scan.file.map change }

/-! ## Findings -/

theorem SourceFile.checked_graded {source filename : Text} {file checked : SourceFile}
    (h : ofSource source filename = .ok file) (hc : file.checked = .ok checked) :
    ∀ diagnostic ∈ checked.diagnostics, diagnostic.Graded := by
  intro diagnostic hd
  rw [checked_diagnostics h hc] at hd
  obtain ⟨stream, hstream, hfile⟩ := ofSource_eq_ok.1 h
  obtain ⟨i, -, hd⟩ := List.mem_flatMap.1 hd
  rw [hfile] at hd
  exact ((Stream.sound hstream).finding_shows hd).1.graded

theorem Diagnostic.Graded.fullCode_ne {diagnostic : Diagnostic} (h : diagnostic.Graded) :
    diagnostic.fullCode.toList ≠ typeHintCode := by
  intro heq
  rw [fullCode, h.source, String.toList_append, String.toList_append] at heq
  have hhead : some 'F' = some 'T' := congrArg List.head? heq
  cases hhead

theorem Diagnostic.isAmong_append (front back : List (Option Text)) (diagnostic : Diagnostic) :
    diagnostic.isAmong (front ++ back) = (diagnostic.isAmong front || diagnostic.isAmong back) := by
  unfold isAmong
  rw [List.contains_append, List.contains_append]
  ac_rfl

namespace Options

variable {options other : Options}

theorem keeps_eq (options : Options) (diagnostic : Diagnostic) :
    options.keeps diagnostic = (!diagnostic.isAmong options.ignoreCodes &&
      (options.warnings || diagnostic.severity != .warning)) := by
  rw [keeps, Diagnostic.isAmong, Bool.not_or]

/-- With the code among those that are ignored it makes no difference whether warnings are reported. -/
theorem keeps_of_typeHint {diagnostic : Diagnostic} (hg : diagnostic.Graded) {front back : List (Option Text)}
    (hoptions : options.ignoreCodes = front ++ back ∧ options.warnings = false)
    (hother : other.ignoreCodes = front ++ some typeHintCode :: back) :
    options.keeps diagnostic = other.keeps diagnostic := by
  rw [keeps_eq, keeps_eq, hoptions.1, hoptions.2, hother, ← List.singleton_append, Diagnostic.isAmong_append,
    Diagnostic.isAmong_append, Diagnostic.isAmong_append]
  by_cases hcode : diagnostic.code = "TypeHintMismatch"
  · have hwarning := hg.severity.2 hcode
    have hamong : diagnostic.isAmong [some typeHintCode] = true := by
      rw [Diagnostic.isAmong, hcode]
      rfl
    rw [hwarning, hamong]
    simp
  · have herror : (diagnostic.severity != .warning) = true := by
      simpa using fun hwarning => hcode (hg.severity.1 hwarning)
    have hamong : diagnostic.isAmong [some typeHintCode] = false := by
      have hne : diagnostic.code.toList ≠ typeHintCode := fun heq => hcode (String.toList_inj.1 heq)
      simp [Diagnostic.isAmong, hne, hg.fullCode_ne]
    rw [herror, hamong]
    simp

/-! ## Scans -/

/-- What two options make of the same findings, they make of the same file. -/
theorem scan_onFile (hverbose : options.verbose = other.verbose) (hdebug : options.debug = other.debug)
    {change : SourceFile → SourceFile}
    (hselect : ∀ file : SourceFile, (∀ diagnostic ∈ file.diagnostics, diagnostic.Graded) →
      options.select file = change (other.select file)) (disk : Disk) (path : Path) :
    options.scan disk path = (other.scan disk path).map (·.onFile change) := by
  have htext : ∀ source, options.scanText source path.toText =
      (other.scanText source path.toText).map (·.onFile change) := by
    intro source
    unfold scanText
    cases hfile : SourceFile.ofSource source path.toText with
    | error error => rfl
    | ok file =>
      cases hchecked : file.checked with
      | error fault => simp only [hchecked]; rfl
      | ok checked =>
        have hgraded := SourceFile.checked_graded hfile hchecked
        simp only [hchecked]
        show Except.ok _ = Except.ok _
        rw [hselect checked hgraded, hdebug]
        rfl
  unfold scan
  dsimp only
  by_cases hnul : path.toText.contains '\x00' = true
  · rw [if_pos hnul, if_pos hnul]
    rfl
  · rw [if_neg hnul, if_neg hnul, hverbose]
    cases disk.read path with
    | error fault => rfl
    | ok source =>
      simp only [htext]
      cases other.scanText source path.toText with
      | error fault => rfl
      | ok found => rfl

theorem scan_congr (hverbose : options.verbose = other.verbose) (hdebug : options.debug = other.debug)
    (hkeeps : ∀ diagnostic : Diagnostic, diagnostic.Graded → options.keeps diagnostic = other.keeps diagnostic)
    (disk : Disk) (path : Path) : options.scan disk path = other.scan disk path := by
  have hselect : ∀ file : SourceFile, (∀ diagnostic ∈ file.diagnostics, diagnostic.Graded) →
      options.select file = id (other.select file) := by
    intro file hgraded
    unfold select
    rw [List.filter_congr fun diagnostic hd => hkeeps diagnostic (hgraded diagnostic hd)]
    rfl
  rw [scan_onFile hverbose hdebug hselect]
  cases other.scan disk path with
  | error fault => rfl
  | ok found =>
    obtain ⟨notes, file⟩ := found
    show Except.ok { notes, file := file.map id : FileScan } = _
    rw [Option.map_id_fun, id]

/-- Codes are ignored in two steps. -/
theorem select_without {codes : List (Option Text)} (hwarnings : options.warnings = other.warnings)
    (hcodes : ∀ diagnostic : Diagnostic, diagnostic.isAmong options.ignoreCodes =
      (diagnostic.isAmong other.ignoreCodes || diagnostic.isAmong codes)) (file : SourceFile) :
    options.select file = (other.select file).without codes := by
  have hkeeps : ∀ diagnostic ∈ file.diagnostics, options.keeps diagnostic =
      (!diagnostic.isAmong codes && other.keeps diagnostic) := by
    intro diagnostic _
    rw [keeps_eq, keeps_eq, hcodes, hwarnings, Bool.not_or]
    ac_rfl
  unfold select SourceFile.without
  rw [List.filter_congr hkeeps, List.filter_filter]

theorem run_congr {disk : Disk} (hsearch : options.toSearch = other.toSearch)
    (hreport : options.report = other.report) (hscan : ∀ path, options.scan disk path = other.scan disk path) :
    options.run disk = other.run disk := by
  unfold run
  rw [hsearch, hreport, funext hscan]

end Options

/-! ## Command lines -/

namespace Argument

/-- Before two hyphens every argument is read on its own. -/
theorem readAll_append {front : List Text} (h : "--".toList ∉ front) (back : List Text) :
    readAll (front ++ back) = (do return (← readAll front) ++ (← readAll back)) := by
  induction front with
  | nil =>
    show readAll back = readAll back >>= fun read => pure read
    cases readAll back with
    | error fault => rfl
    | ok read => rfl
  | cons argument rest ih =>
    have hne : argument ≠ "--".toList := fun heq => h (heq ▸ List.mem_cons_self)
    rw [List.cons_append, readAll, if_neg hne, readAll, if_neg hne, ih fun hm => h (List.mem_cons_of_mem _ hm)]
    cases ofText argument with
    | error fault => rfl
    | ok first =>
      cases readAll rest with
      | error fault => rfl
      | ok read =>
        cases readAll back with
        | error fault => rfl
        | ok more => rfl

end Argument

/-- The arguments, if some codes were ignored before, and perhaps warnings dropped. -/
def Arguments.prior (codes : List (Option Text)) (quiet : Bool) (arguments : Arguments) : Arguments :=
  { arguments with
    ignoreCodes := codes ++ arguments.ignoreCodes
    noWarnings := quiet || arguments.noWarnings }

namespace ArgumentState

/-- The state, if some codes were ignored before, and perhaps warnings dropped. -/
def prior (codes : List (Option Text)) (quiet : Bool) (state : ArgumentState) : ArgumentState :=
  { state with arguments := state.arguments.prior codes quiet }

/-- The arguments at the end of the second pass. -/
def finish (state : ArgumentState) : Except ArgumentStop Arguments := do
  if !state.hasPaths then throw (.fault .noPaths)
  if !state.extras.isEmpty then throw (.fault (.unrecognized state.extras))
  return state.arguments

section Read

variable (state : ArgumentState) (option : CommandOption) (spelling : Text) (rest : List Argument)

theorem read_within (value : Text) :
    read state (.option option spelling (some value) :: rest) =
      state.readWithin option spelling value >>= fun next => read next rest := by
  rw [read]

variable {option}

theorem read_flag (h : option.takesValue = false) :
    read state (.option option spelling none :: rest) = state.act option none >>= fun next => read next rest := by
  rw [read.eq_def]
  dsimp only
  rw [if_neg (by simp [h])]

theorem read_value (h : option.takesValue = true) (value : Text) :
    read state (.option option spelling none :: .plain value :: rest) =
      state.act option (some value) >>= fun next => read next rest := by
  rw [read, if_pos h]

theorem read_lacking (h : option.takesValue = true) (hrest : ∀ value more, rest ≠ .plain value :: more) :
    read state (.option option spelling none :: rest) = .error (.fault (.noValue option)) := by
  rw [read.eq_def]
  dsimp only
  rw [if_pos h]
  split
  · next value more => exact absurd rfl (hrest value more)
  · rfl

theorem read_run {argument : Argument} (h : argument.isPath = true) :
    read state (argument :: rest) =
      read (state.readRun (argument :: rest.takeWhile (·.isPath))) (rest.dropWhile (·.isPath)) := by
  cases argument with
  | plain text => simp [read]
  | dashes => simp [read]
  | option => cases h
  | unknown => cases h

end Read

theorem isPath_of_no_option {argument : Argument} (hunknown : ∀ text, argument = .unknown text → False)
    (hwithin : ∀ option spelling value, argument = .option option spelling (some value) → False)
    (hnone : ∀ option spelling, argument = .option option spelling none → False) : argument.isPath = true := by
  cases argument with
  | plain text => rfl
  | dashes => rfl
  | unknown text => exact (hunknown text rfl).elim
  | option option spelling value =>
    cases value with
    | none => exact (hnone option spelling rfl).elim
    | some value => exact (hwithin option spelling value rfl).elim

/-- An option ends what comes before it. -/
theorem read_append (state : ArgumentState) (front : List Argument) {first : Argument} (h : first.isPath = false)
    (back : List Argument) :
    read state (front ++ first :: back) = read state front >>= fun next => read next (first :: back) := by
  -- only a run of paths and an option that takes a value look at what comes next
  induction state, front using read.induct with
  | case1 state =>
    rw [read]
    rfl
  | case2 state text rest ih =>
    rw [List.cons_append, read, read, ih]
  | case3 state option spelling value rest ih =>
    rw [List.cons_append, read_within, read_within]
    cases state.readWithin option spelling value with
    | error stop => rfl
    | ok next => exact ih next
  | case4 state option spelling htakes value rest ih =>
    rw [List.cons_append, List.cons_append, read_value _ _ _ htakes, read_value _ _ _ htakes]
    cases state.act option (some value) with
    | error stop => rfl
    | ok next => exact ih next
  | case5 state option spelling rest htakes hrest =>
    have hlater : ∀ value more, rest ++ first :: back ≠ .plain value :: more := by
      intro value more heq
      cases rest with
      | nil =>
        rw [(List.cons.inj heq).1] at h
        cases h
      | cons second others => exact hrest value others (by rw [(List.cons.inj heq).1])
    rw [List.cons_append, read_lacking _ _ _ htakes hlater, read_lacking _ _ _ htakes hrest]
    rfl
  | case6 state option spelling rest hflag ih =>
    have hflag : option.takesValue = false := by simpa using hflag
    rw [List.cons_append, read_flag _ _ _ hflag, read_flag _ _ _ hflag]
    cases state.act option none with
    | error stop => rfl
    | ok next => exact ih next
  | case7 state argument rest hunknown hwithin hnone ih =>
    have hpath := isPath_of_no_option hunknown hwithin hnone
    have htake : (rest ++ first :: back).takeWhile (·.isPath) = rest.takeWhile (·.isPath) := by
      rw [List.takeWhile_append]
      split
      · next hall => rw [List.takeWhile_cons, if_neg (by simp [h]), List.append_nil, eq_comm,
          (List.takeWhile_sublist _).eq_of_length hall]
      · rfl
    have hdrop : (rest ++ first :: back).dropWhile (·.isPath) = rest.dropWhile (·.isPath) ++ first :: back := by
      rw [List.dropWhile_append]
      split
      · next hall => rw [List.dropWhile_cons, if_neg (by simp [h]), List.isEmpty_iff.1 hall, List.nil_append]
      · rfl
    rw [List.cons_append, read_run _ _ hpath, read_run _ _ hpath, htake, hdrop, ih]

section Prior

variable (codes : List (Option Text)) (quiet : Bool)

theorem act_prior (state : ArgumentState) (option : CommandOption) (value : Option Text) :
    (state.prior codes quiet).act option value = (state.act option value).map (·.prior codes quiet) := by
  cases option with
  | ignoreCode =>
    show Except.ok _ = Except.ok _
    simp [prior, Arguments.prior]
  | noWarnings =>
    show Except.ok _ = Except.ok _
    simp [prior, Arguments.prior]
  | report =>
    cases value with
    | none => rfl
    | some name =>
      unfold act
      dsimp only
      cases ReportStyle.ofLabel? name with
      | none => rfl
      | some style => rfl
  | help => rfl
  | config => rfl
  | extensions => rfl
  | exclude => rfl
  | verbose => rfl
  | debug => rfl

theorem actAll_prior (state : ArgumentState) (options : List CommandOption) :
    (state.prior codes quiet).actAll options = (state.actAll options).map (·.prior codes quiet) := by
  induction options generalizing state with
  | nil => rfl
  | cons option rest ih =>
    rw [actAll, actAll, act_prior]
    cases state.act option none with
    | error stop => rfl
    | ok next => exact ih next

theorem readWithin_prior (state : ArgumentState) (option : CommandOption) (spelling value : Text) :
    (state.prior codes quiet).readWithin option spelling value =
      (state.readWithin option spelling value).map (·.prior codes quiet) := by
  unfold readWithin
  split
  · exact act_prior ..
  · split
    · rfl
    · split
      · rfl
      · exact actAll_prior ..

theorem readRun_prior (state : ArgumentState) (run : List Argument) :
    (state.prior codes quiet).readRun run = (state.readRun run).prior codes quiet := by
  unfold readRun
  dsimp only
  show (if !state.hasPaths && _ then _ else _) = _
  split
  · rfl
  · rfl

/-- What was ignored before stays ignored, and changes nothing else. -/
theorem read_prior (state : ArgumentState) (arguments : List Argument) :
    (state.prior codes quiet).read arguments = (state.read arguments).map (·.prior codes quiet) := by
  induction state, arguments using read.induct with
  | case1 state =>
    rw [read, read]
    rfl
  | case2 state text rest ih =>
    rw [read, read, ← ih]
    rfl
  | case3 state option spelling value rest ih =>
    rw [read_within, read_within, readWithin_prior]
    cases state.readWithin option spelling value with
    | error stop => rfl
    | ok next => exact ih next
  | case4 state option spelling htakes value rest ih =>
    rw [read_value _ _ _ htakes, read_value _ _ _ htakes, act_prior]
    cases state.act option (some value) with
    | error stop => rfl
    | ok next => exact ih next
  | case5 state option spelling rest htakes hrest =>
    rw [read_lacking _ _ _ htakes hrest, read_lacking _ _ _ htakes hrest]
    rfl
  | case6 state option spelling rest hflag ih =>
    have hflag : option.takesValue = false := by simpa using hflag
    rw [read_flag _ _ _ hflag, read_flag _ _ _ hflag, act_prior]
    cases state.act option none with
    | error stop => rfl
    | ok next => exact ih next
  | case7 state argument rest hunknown hwithin hnone ih =>
    have hpath := isPath_of_no_option hunknown hwithin hnone
    rw [read_run _ _ hpath, read_run _ _ hpath, readRun_prior, ih]

theorem finish_prior (state : ArgumentState) :
    (state.prior codes quiet).finish = state.finish.map (·.prior codes quiet) := by
  unfold finish
  dsimp only
  show (if !state.hasPaths then _ else if !state.extras.isEmpty then _ else _) = _
  split
  · rfl
  · split
    · rfl
    · rfl

end Prior

/-- The state, if nothing were ignored yet. -/
def heeding (state : ArgumentState) : ArgumentState :=
  { state with arguments := { state.arguments with ignoreCodes := [], noWarnings := false } }

theorem read_noWarnings (state : ArgumentState) (spelling : Text) (back : List Argument) :
    state.read (.option .noWarnings spelling none :: back) =
      (state.heeding.prior state.arguments.ignoreCodes true).read back := by
  rw [read_flag _ _ _ rfl]
  show ArgumentState.read { state with arguments := _ } back = _
  simp [prior, Arguments.prior, heeding]

theorem read_ignoreCode (state : ArgumentState) (spelling code : Text) (back : List Argument) :
    state.read (.option .ignoreCode spelling none :: .plain code :: back) =
      (state.heeding.prior (state.arguments.ignoreCodes ++ [some code]) state.arguments.noWarnings).read back := by
  rw [read_value _ _ _ rfl]
  show ArgumentState.read { state with arguments := _ } back = _
  simp [prior, Arguments.prior, heeding]

theorem read_prior_finish (codes : List (Option Text)) (quiet : Bool) (state : ArgumentState)
    (back : List Argument) :
    (state.prior codes quiet).read back >>= finish = (state.read back >>= finish).map (·.prior codes quiet) := by
  rw [read_prior]
  cases state.read back with
  | error stop => rfl
  | ok last => exact finish_prior codes quiet last

end ArgumentState

namespace Arguments

/-- The state behind the first part of a command line, and what is read of the last. -/
def reach (before after : List Text) : Except ArgumentStop (ArgumentState × List Argument) := do
  let front ← (Argument.readAll before).mapError .fault
  let back ← (Argument.readAll after).mapError .fault
  return (← ArgumentState.read {} front, back)

/-- A command line is read up to an option, and from there on. -/
theorem ofTexts_split {before : List Text} (h : "--".toList ∉ before) {more after : List Text} {first : Argument}
    {others : List Argument} (hfirst : first.isPath = false)
    (hmore : Argument.readAll more = (first :: others ++ ·) <$> Argument.readAll after) :
    ofTexts (before ++ more) = reach before after >>= fun (state, back) =>
      state.read (first :: others ++ back) >>= ArgumentState.finish := by
  unfold ofTexts reach
  rw [Argument.readAll_append h, hmore]
  cases Argument.readAll before with
  | error fault => rfl
  | ok front =>
    cases Argument.readAll after with
    | error fault => rfl
    | ok back =>
      show ArgumentState.read {} (front ++ first :: (others ++ back)) >>= _ =
        (ArgumentState.read {} front >>= fun state => pure (state, back)) >>= _
      rw [ArgumentState.read_append _ _ hfirst]
      cases ArgumentState.read {} front with
      | error stop => rfl
      | ok state => rfl

/-- Two command lines of which one drops warnings where the other ignores the code are read alike. -/
theorem exists_prior {before : List Text} (h : "--".toList ∉ before) (after : List Text) :
    ∃ (rest : Except ArgumentStop Arguments) (codes : List (Option Text)) (quiet : Bool),
      ofTexts (before ++ "-n".toList :: after) = rest.map (·.prior codes true) ∧
      ofTexts (before ++ "--ignore-code".toList :: typeHintCode :: after) =
        rest.map (·.prior (codes ++ [some typeHintCode]) quiet) := by
  have hflag : Argument.readAll ("-n".toList :: after) =
      ([.option .noWarnings "-n".toList none] ++ ·) <$> Argument.readAll after := rfl
  have hcode : Argument.readAll ("--ignore-code".toList :: typeHintCode :: after) =
      ([.option .ignoreCode "--ignore-code".toList none, .plain typeHintCode] ++ ·) <$> Argument.readAll after := by
    show (do return _ :: (← (do return _ :: (← Argument.readAll after)))) = _
    cases Argument.readAll after with
    | error fault => rfl
    | ok back => rfl
  rw [ofTexts_split h rfl hflag, ofTexts_split h rfl hcode]
  cases reach before after with
  | error stop => exact ⟨.error stop, [], true, rfl, rfl⟩
  | ok reached =>
    obtain ⟨state, back⟩ := reached
    refine ⟨state.heeding.read back >>= ArgumentState.finish, state.arguments.ignoreCodes,
      state.arguments.noWarnings, ?_, ?_⟩
    · rw [← ArgumentState.read_prior_finish]
      exact congrArg (· >>= ArgumentState.finish) (state.read_noWarnings _ back)
    · rw [← ArgumentState.read_prior_finish]
      exact congrArg (· >>= ArgumentState.finish) (state.read_ignoreCode _ _ back)

end Arguments

namespace Options

/-- The options say what of the codes and of the warnings comes from the arguments. -/
theorem ofSettings_codes (settings : Settings) (arguments : Arguments) (codes : List (Option Text)) (quiet : Bool) :
    ofSettings settings { arguments with ignoreCodes := codes, noWarnings := quiet } =
      (ofSettings settings { arguments with ignoreCodes := [], noWarnings := false }).map fun options =>
        { options with
          ignoreCodes := options.ignoreCodes ++ codes
          warnings := options.warnings && !quiet } := by
  unfold ofSettings
  cases settingTexts settings "extensions" with
  | error stop => rfl
  | ok configured =>
    show (chosenExtensions configured arguments).mapError OptionsStop.option >>= _ =
      Except.map _ ((chosenExtensions configured arguments).mapError OptionsStop.option >>= _)
    cases chosenExtensions configured arguments with
    | error fault => rfl
    | ok extensions =>
      cases settingTexts settings "exclude" with
      | error stop => rfl
      | ok exclude =>
        cases settingTexts settings "ignore_codes" with
        | error stop => rfl
        | ok ignored =>
          show (chosenReport settings arguments).mapError OptionsStop.option >>= _ =
            Except.map _ ((chosenReport settings arguments).mapError OptionsStop.option >>= _)
          cases chosenReport settings arguments with
          | error fault => rfl
          | ok report =>
            show Except.ok _ = Except.ok _
            simp [chosenWarnings]

theorem resolve_codes (disk : Disk) (arguments : Arguments) (codes : List (Option Text)) (quiet : Bool) :
    resolve disk { arguments with ignoreCodes := codes, noWarnings := quiet } =
      (resolve disk { arguments with ignoreCodes := [], noWarnings := false }).map fun options =>
        { options with
          ignoreCodes := options.ignoreCodes ++ codes
          warnings := options.warnings && !quiet } := by
  show ((disk.settings (settingsPath arguments)).mapError OptionsStop.settings >>= _) =
    Except.map _ ((disk.settings (settingsPath arguments)).mapError OptionsStop.settings >>= _)
  cases disk.settings (settingsPath arguments) with
  | error fault => rfl
  | ok settings => exact ofSettings_codes settings arguments codes quiet

/-- A file that can be read and checked keeps its errors but those among the codes, and all else. -/
theorem scan_readable (options : Options) {disk : Disk} {path : Path} {source : Text} {file checked : SourceFile}
    (hnul : '\x00' ∉ path.toText) (hread : disk.read path = .ok source)
    (hfile : SourceFile.ofSource source path.toText = .ok file) (hchecked : file.checked = .ok checked) :
    ∃ notes, { options with warnings := false }.scan disk path = .ok ⟨notes, some { checked with
      diagnostics := checked.diagnostics.filter fun diagnostic =>
        diagnostic.severity = .error && !diagnostic.isAmong options.ignoreCodes }⟩ := by
  have hkeeps : { options with warnings := false }.keeps = fun diagnostic =>
      diagnostic.severity = .error && !diagnostic.isAmong options.ignoreCodes := by
    funext diagnostic
    rw [keeps_eq, Bool.and_comm]
    cases diagnostic.severity with
    | error => rfl
    | warning => rfl
  unfold scan scanText
  dsimp only
  rw [if_neg (by simpa using hnul), hread]
  simp only [hfile]
  rw [hchecked, ← hkeeps]
  exact ⟨_, rfl⟩

end Options

/-- What is measured in the file of a scan. -/
def FileScan.metrics? (scan : FileScan) : Option Metrics := scan.file.map (·.metrics)

theorem FileScan.metrics?_without (codes : List (Option Text)) (scan : Except RunFault FileScan) :
    (scan.map (·.onFile (·.without codes))).map metrics? = scan.map metrics? := by
  cases scan with
  | error fault => rfl
  | ok found =>
    obtain ⟨notes, file⟩ := found
    cases file with
    | none => rfl
    | some file => rfl

theorem Options.scan_append (options : Options) (front back : List (Option Text)) (disk : Disk) (path : Path) :
    (options.ignoring (front ++ back)).scan disk path =
      ((options.ignoring front).scan disk path).map (·.onFile (·.without back)) := by
  refine scan_onFile (by rfl) (by rfl) (fun file _ => ?_) disk path
  exact select_without (by rfl) (Diagnostic.isAmong_append front back) file

theorem run_noWarnings (disk : Disk) {before : List Text} (h : "--".toList ∉ before) (after : List Text) :
    run disk (before ++ "-n".toList :: after) =
      run disk (before ++ "--ignore-code".toList :: typeHintCode :: after) := by
  obtain ⟨rest, codes, quiet, hflag, hcode⟩ := Arguments.exists_prior h after
  unfold run
  rw [hflag, hcode]
  cases rest with
  | error stop => rfl
  | ok arguments =>
    simp only [Except.map, Arguments.prior]
    rw [Options.resolve_codes, Options.resolve_codes disk arguments ((codes ++ [some typeHintCode]) ++ _)]
    cases Options.resolve disk { arguments with ignoreCodes := [], noWarnings := false } with
    | error stop =>
      cases stop with
      | option fault => rfl
      | settings fault => rfl
    | ok options =>
      refine Options.run_congr (by rfl) (by rfl) (Options.scan_congr (by rfl) (by rfl) (fun diagnostic hg => ?_) disk)
      refine Options.keeps_of_typeHint hg ⟨(List.append_assoc ..).symm, ?_⟩ ?_
      · simp
      · simp

/-- Warnings are dropped by ignoring the one code that they have. -/
theorem noWarnings_eq_ignoring_typeHint (disk : Disk) :
    (∀ (options : Options) (path : Path),
      { options with warnings := false }.scan disk path =
        { options with
          warnings := true
          ignoreCodes := options.ignoreCodes ++ [some typeHintCode] }.scan disk path ∧
      ∀ (source : Text) (file checked : SourceFile), '\x00' ∉ path.toText → disk.read path = .ok source →
        SourceFile.ofSource source path.toText = .ok file → file.checked = .ok checked →
        ∃ notes, { options with warnings := false }.scan disk path = .ok ⟨notes, some { checked with
          diagnostics := checked.diagnostics.filter fun diagnostic =>
            diagnostic.severity = .error && !diagnostic.isAmong options.ignoreCodes }⟩) ∧
    (∀ before after : List Text, "--".toList ∉ before →
      run disk (before ++ "-n".toList :: after) =
        run disk (before ++ "--ignore-code".toList :: "TypeHintMismatch".toList :: after)) ∧
    ∀ (options : Options) (path : Path) (front back : List (Option Text)),
      (options.ignoring (front ++ back)).scan disk path =
        ((options.ignoring front).scan disk path).map (·.onFile (·.without back)) ∧
      (options.ignoring (front ++ back)).scan disk path =
        ((options.ignoring back).scan disk path).map (·.onFile (·.without front)) ∧
      ((options.ignoring front).scan disk path).map FileScan.metrics? =
        ((options.ignoring back).scan disk path).map FileScan.metrics? := by
  refine ⟨fun options path => ⟨?_, ?_⟩, fun before after h => run_noWarnings disk h after, ?_⟩
  · refine Options.scan_congr (by rfl) (by rfl) (fun diagnostic hg => ?_) disk path
    exact Options.keeps_of_typeHint hg ⟨(List.append_nil _).symm, rfl⟩ rfl
  · intro source file checked hnul hread hfile hchecked
    exact options.scan_readable hnul hread hfile hchecked
  · intro options path front back
    refine ⟨options.scan_append front back disk path, ?_, ?_⟩
    · refine Options.scan_onFile (by rfl) (by rfl) (fun file _ => ?_) disk path
      refine Options.select_without (by rfl) (fun diagnostic => ?_) file
      exact (Diagnostic.isAmong_append front back diagnostic).trans (Bool.or_comm ..)
    · have hall : ∀ codes, ((options.ignoring codes).scan disk path).map FileScan.metrics? =
          ((options.ignoring []).scan disk path).map FileScan.metrics? := by
        intro codes
        rw [← FileScan.metrics?_without codes ((options.ignoring []).scan disk path), ← options.scan_append [] codes]
        rfl
      exact (hall front).trans (hall back).symm

/-- A comment that says another type than the hint. -/
def hintTree : FileTree where
  entries := [(["a.php".toList],
    .file ("<?php /** @param int $x y */function f(A $x)\x7b\x7d".toList.map Char.toUInt8))]

/-- The one finding of the file is dropped either way. -/
theorem noWarnings_eq_ignoring_typeHint_mismatch :
    ∃ (options : Options) (path : Path) (source : Text) (file checked : SourceFile) (notes : Text),
      '\x00' ∉ path.toText ∧ hintTree.disk.read path = .ok source ∧
      SourceFile.ofSource source path.toText = .ok file ∧ file.checked = .ok checked ∧
      checked.diagnostics.map (·.code) = ["TypeHintMismatch"] ∧
      { options with
        warnings := true
        ignoreCodes := options.ignoreCodes ++ [some typeHintCode] }.scan hintTree.disk path =
          .ok ⟨notes, some { checked with diagnostics := [] }⟩ ∧
      run hintTree.disk (["--verbose".toList] ++ ["-n".toList, "a.php".toList]) =
        run hintTree.disk (["--verbose".toList] ++ ["--ignore-code".toList, "TypeHintMismatch".toList, "a.php".toList]) := by
  have heval : (hintTree.disk.read ⟨[], ["a.php".toList]⟩).toOption.any (fun source =>
      (SourceFile.ofSource source "a.php".toList).toOption.any fun file => file.checked.toOption.any fun checked =>
        checked.diagnostics.map (fun found => (found.code, found.severity)) == [("TypeHintMismatch", .warning)]) =
      true := by
    decide +kernel
  obtain ⟨source, hread, heval⟩ := exists_eq_ok_of_any heval
  obtain ⟨file, hfile, heval⟩ := exists_eq_ok_of_any heval
  obtain ⟨checked, hchecked, heval⟩ := exists_eq_ok_of_any heval
  obtain ⟨found, hfound, hcode⟩ := List.map_eq_singleton_iff.1 (eq_of_beq heval)
  obtain ⟨hcode, hwarning⟩ := Prod.mk.inj hcode
  obtain ⟨hscan, hrun, -⟩ := noWarnings_eq_ignoring_typeHint hintTree.disk
  let options : Options := ⟨⟨[], [], []⟩, [], .summary, true, false, false⟩
  obtain ⟨hsame, hkept⟩ := hscan options ⟨[], ["a.php".toList]⟩
  obtain ⟨notes, hnotes⟩ := hkept source file checked (by decide) hread hfile hchecked
  have hnone : (checked.diagnostics.filter fun diagnostic =>
      diagnostic.severity = .error && !diagnostic.isAmong options.ignoreCodes) = [] := by
    rw [hfound, List.filter_singleton, hwarning]
    rfl
  refine ⟨options, _, source, file, checked, notes, by decide, hread, hfile, hchecked, ?_, ?_, ?_⟩
  · rw [hfound, List.map_singleton, hcode]
  · rw [← hsame, hnotes, hnone]
  · exact hrun ["--verbose".toList] ["a.php".toList] (by decide)

end DocLint
