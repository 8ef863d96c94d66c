import DocLint.Command.Options
import DocLint.Lexeme.Fault
import DocLint.Rule.FunctionComment
import DocLint.Text.Lines
import DocLint.Token.Dump

/-!
# Scanned files

One file is read, checked, and left with the findings that the options keep. Every line end of a file
counts as a line feed. A file that cannot be read, or whose tokens cannot be told apart, leaves a message
instead. A fault of the check itself is nobody's finding: it stops the run.
-/

namespace DocLint

/-- Why a file cannot be read. -/
inductive ReadFault where
  /-- The system does not give its bytes. -/
  | system (fault : SystemFault)
  /-- It is not text. -/
  | undecodable (error : Utf8.DecodeError)

/-- The wording of a fault about a path. -/
def ReadFault.message (path : Path) : ReadFault → Text
  | system fault => fault.message path
  | undecodable error => error.message.toList

/-- Why a run stops without a report. -/
inductive RunFault where
  /-- The settings file cannot be read. -/
  | settings (fault : SettingsFault)
  /-- The files cannot be looked for. -/
  | search (fault : SearchFault)
  /-- No file can have a path like this. -/
  | path (file : Path)
  /-- A check stopped. -/
  | check (fault : Fault)
  /-- A finding cannot be shown. -/
  | render (fault : RenderFault)

/-- The wording of a fault. -/
def RunFault.message : RunFault → Text
  | settings (.system fault) | search (.system fault) => fault.text.toList
  | settings (.undecodable error) => error.message.toList
  | settings (.setting .malformed) => "malformed settings file".toList
  | settings (.setting .longNumber) => "too many digits in a setting".toList
  | settings (.setting .tooDeep) => "settings within one another go too deep".toList
  | search .embeddedStars => "two stars have to be a part of their own".toList
  | search .tooDeep => "directories within one another go too deep".toList
  | search .lostPattern => "a pattern to exclude has no value".toList
  | .path file => "no file can be named ".toList ++ Text.quoted file.toText
  | check fault => fault.message.toList
  | render (.template _) => "a message does not fit its arguments".toList
  | render (.snippet _) => "a place cannot be drawn".toList

/-- What came of a file. -/
structure FileScan where
  /-- What is said about it on the way. -/
  notes : Text
  /-- The file with its findings, if it could be read. -/
  file : Option SourceFile

/-- The text of a file. -/
def Disk.read (disk : Disk) (path : Path) : Except ReadFault Text :=
  match disk.bytes path with
  | .error fault => .error (.system fault)
  | .ok bytes =>
    match Utf8.decode bytes with
    | .ok text => .ok (Text.unifyNewlines text)
    | .error error => .error (.undecodable error)

namespace Options

/-- Is a finding reported? -/
def keeps (options : Options) (diagnostic : Diagnostic) : Bool :=
  !options.ignoreCodes.contains (some diagnostic.code.toList) &&
    !options.ignoreCodes.contains (some diagnostic.fullCode.toList) &&
    (options.warnings || diagnostic.severity != .warning)

/-- A file with the findings that are reported. -/
def select (options : Options) (file : SourceFile) : SourceFile :=
  { file with diagnostics := file.diagnostics.filter options.keeps }

/-- Checks a text under a file name. -/
def scanText (options : Options) (source filename : Text) : Except Fault FileScan :=
  match SourceFile.ofSource source filename with
  | .error error => .ok ⟨error.render source filename ++ "\n".toList, none⟩
  | .ok file => do
    let checked ← file.checked
    return ⟨if options.debug then file.stream.dump else [], some (options.select checked)⟩

/-- Reads and checks a file. -/
def scan (options : Options) (disk : Disk) (path : Path) : Except RunFault FileScan := do
  if path.toText.contains '\x00' then throw (.path path)
  let scanned ← match disk.read path with
    | .error fault =>
      let message := "error: cannot read ".toList ++ path.toText ++ ": ".toList ++
        fault.message path ++ "\n".toList
      pure ⟨message, none⟩
    | .ok source => (options.scanText source path.toText).mapError .check
  let heading := "Scanning ".toList ++ path.toText ++ "\n".toList
  return { scanned with notes := (if options.verbose then heading else []) ++ scanned.notes }

end Options

end DocLint
