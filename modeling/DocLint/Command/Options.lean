import DocLint.Command.Arguments
import DocLint.Files.Collection
import DocLint.Settings.Document
import DocLint.Text.Utf8

/-!
# Options

What a run does, put together from the defaults, the settings file and the command line. A later source
wins over an earlier one, but patterns to exclude and codes to ignore add up. A setting of the wrong kind
counts as absent; only the name of a report is refused if there is no such report.
-/

namespace DocLint

/-- What a run does. -/
structure Options extends Search where
  /-- The codes of findings to drop; `none` for each one that was dropped itself. -/
  ignoreCodes : List (Option Text)
  /-- The report. -/
  report : ReportStyle
  /-- Are warnings reported? -/
  warnings : Bool
  /-- Is each scanned file named? -/
  verbose : Bool
  /-- Are the tokens of each file listed? -/
  debug : Bool

/-- An option that cannot be used. -/
inductive OptionFault where
  /-- A list of extensions with no extension in it. -/
  | noExtension (text : Text)
  /-- The settings ask for a report that there is not. -/
  | noReport (name : Text)
  deriving DecidableEq

/-- The wording of a fault. -/
def OptionFault.message : OptionFault → Text
  | noExtension text => "invalid extension list: ".toList ++ Text.quoted text
  | noReport name => "invalid report in config: ".toList ++ name

/-- A settings file that cannot be read. -/
inductive SettingsFault where
  /-- The system does not answer. -/
  | system (fault : SystemFault)
  /-- It is not text. -/
  | undecodable (error : Utf8.DecodeError)
  /-- It is not in order, or a setting in it is not. -/
  | setting (fault : SettingFault)

/-- Why there are no options. -/
inductive OptionsStop where
  /-- An option cannot be used. -/
  | option (fault : OptionFault)
  /-- The settings file cannot be read. -/
  | settings (fault : SettingsFault)

/-- A name without leading dots. -/
def dropDots (text : Text) : Text := text.dropWhile (· == '.')

/-- The extensions in a list with commas, without leading dots. -/
def parseExtensions (text : Text) : Except OptionFault (List Text) :=
  let extensions := (Text.splitWhere (· == ',') text).map fun part => dropDots (Text.trim part)
  match extensions.filter (!·.isEmpty) with
  | [] => .error (.noExtension text)
  | extensions => .ok extensions

/-- The settings in a file; none if there is no such file. -/
def Disk.settings (disk : Disk) (path : Path) : Except SettingsFault Settings := do
  if ← (disk.isFile path).mapError .system then
    let bytes ← (disk.bytes path).mapError .system
    let text ← (Utf8.decode bytes).mapError .undecodable
    (Settings.ofText text).mapError .setting
  else return []

namespace Options

/-- The settings file of a command line. -/
def settingsPath (arguments : Arguments) : Path :=
  match arguments.config with
  | none | some [] => Path.ofText "docsniff.toml".toList
  | some path => Path.ofText path

/-- The texts of a setting. -/
def settingTexts (settings : Settings) (key : String) : Except OptionsStop (List Text) :=
  (Setting.texts (settings.get? key.toList)).mapError fun fault => .settings (.setting fault)

/-- The extensions from the settings, of which `configured` are the texts, and the command line. -/
def chosenExtensions (configured : List Text) (arguments : Arguments) :
    Except OptionFault (List Text) :=
  match arguments.extensions with
  | some (c :: rest) => parseExtensions (c :: rest)
  | _ => .ok (if configured.isEmpty then ["php".toList] else configured.map dropDots)

/-- The report from the settings and the command line. -/
def chosenReport (settings : Settings) (arguments : Arguments) : Except OptionFault ReportStyle := do
  let configured ← match settings.get? "report".toList with
    | some (.text name) =>
      match ReportStyle.ofLabel? name with
      | some style => .ok style
      | none => .error (.noReport name)
    | _ => .ok .full
  return arguments.report.getD configured

/-- Are warnings reported, by the settings and the command line? -/
def chosenWarnings (settings : Settings) (arguments : Arguments) : Bool :=
  let configured := match settings.get? "warnings".toList with
    | some (.flag value) => value
    | _ => true
  configured && !arguments.noWarnings

/-- The options from the settings and the command line. -/
def ofSettings (settings : Settings) (arguments : Arguments) : Except OptionsStop Options := do
  let configured ← settingTexts settings "extensions"
  let extensions ← (chosenExtensions configured arguments).mapError .option
  let exclude ← settingTexts settings "exclude"
  let ignoreCodes ← settingTexts settings "ignore_codes"
  let report ← (chosenReport settings arguments).mapError .option
  return {
    paths := arguments.paths.map Path.ofText
    extensions
    exclude := exclude.map some ++ arguments.exclude
    ignoreCodes := ignoreCodes.map some ++ arguments.ignoreCodes
    report
    warnings := chosenWarnings settings arguments
    verbose := arguments.verbose
    debug := arguments.debug }

/-- The options of a command line. -/
def resolve (disk : Disk) (arguments : Arguments) : Except OptionsStop Options := do
  let settings ← (disk.settings (settingsPath arguments)).mapError .settings
  ofSettings settings arguments

end Options

end DocLint
