import DocLint.Text.Quoted

/-!
# Usage

The options of the command line, the help on them, and the wording of what can be wrong with a command
line.
-/

namespace DocLint

/-- An option of the command line. -/
inductive CommandOption where
  /-- Shows the help. -/
  | help
  /-- Names the settings file. -/
  | config
  /-- Lists the extensions that are looked for in directories. -/
  | extensions
  /-- Leaves out paths that fit a pattern. -/
  | exclude
  /-- Drops findings with a code. -/
  | ignoreCode
  /-- Chooses the report. -/
  | report
  /-- Drops warnings. -/
  | noWarnings
  /-- Names each file that is scanned. -/
  | verbose
  /-- Lists the tokens of each file. -/
  | debug
  deriving DecidableEq

namespace CommandOption

/-- Every option, in the order of the help. -/
def all : List CommandOption :=
  [help, config, extensions, exclude, ignoreCode, report, noWarnings, verbose, debug]

/-- The ways to write an option. -/
def spellings : CommandOption → List Text
  | help => ["-h".toList, "--help".toList]
  | config => ["--config".toList]
  | extensions => ["--extensions".toList]
  | exclude => ["--exclude".toList]
  | ignoreCode => ["--ignore-code".toList]
  | report => ["--report".toList]
  | noWarnings => ["-n".toList, "--no-warnings".toList]
  | verbose => ["-v".toList, "--verbose".toList]
  | debug => ["--debug".toList]

/-- Does the option take a value? -/
def takesValue : CommandOption → Bool
  | config | extensions | exclude | ignoreCode | report => true
  | help | noWarnings | verbose | debug => false

/-- All spellings with their options, in the order of the help. -/
def table : List (Text × CommandOption) :=
  all.flatMap fun option => option.spellings.map fun spelling => (spelling, option)

/-- The option that is written in a certain way. -/
def ofSpelling? (spelling : Text) : Option CommandOption :=
  (table.find? (·.1 == spelling)).map (·.2)

/-- An option as messages name it. -/
def name (option : CommandOption) : Text := Text.join ['/'] option.spellings

end CommandOption

/-- The three reports. -/
inductive ReportStyle where
  /-- Every finding with its source line, and the counts. -/
  | full
  /-- The counts of each file. -/
  | summary
  /-- Everything for another program. -/
  | json
  deriving DecidableEq

namespace ReportStyle

/-- Every report. -/
def all : List ReportStyle := [full, summary, json]

/-- The name of a report. -/
def label : ReportStyle → String
  | full => "full"
  | summary => "summary"
  | json => "json"

/-- The report with a name. -/
def ofLabel? (label : Text) : Option ReportStyle := all.find? (·.label.toList == label)

end ReportStyle

/-- What is wrong with a command line. -/
inductive UsageFault where
  /-- No path is given. -/
  | noPaths
  /-- There is no such report. -/
  | noReport (value : Text)
  /-- An option lacks its value. -/
  | noValue (option : CommandOption)
  /-- An option is given a value that it does not take. -/
  | spareValue (option : CommandOption) (value : Text)
  /-- A short form fits several options. -/
  | ambiguous (argument : Text) (spellings : List Text)
  /-- Arguments that fit nowhere. -/
  | unrecognized (arguments : List Text)
  deriving DecidableEq

namespace UsageFault

/-- A message about an option. -/
def about (option : CommandOption) (message : Text) : Text :=
  "argument ".toList ++ option.name ++ ": ".toList ++ message

/-- The wording of a fault. -/
def message : UsageFault → Text
  | noPaths => "the following arguments are required: paths".toList
  | noReport value =>
    let choices := ReportStyle.all.map fun style => Text.quoted style.label.toList
    about .report ("invalid choice: ".toList ++ Text.quoted value ++ " (choose from ".toList ++
      Text.join ", ".toList choices ++ ")".toList)
  | noValue option => about option "expected one argument".toList
  | spareValue option value =>
    about option ("ignored explicit argument ".toList ++ Text.quoted value)
  | ambiguous argument spellings =>
    "ambiguous option: ".toList ++ argument ++ " could match ".toList ++
      Text.join ", ".toList spellings
  | unrecognized arguments =>
    "unrecognized arguments: ".toList ++ Text.join [' '] arguments

end UsageFault

/-- How the program is called. -/
def usage : Text :=
  ("usage: docsniff [-h] [--config FILE] [--extensions EXT[,EXT...]]\n" ++
    "                [--exclude PATTERN] [--ignore-code CODE]\n" ++
    "                [--report \x7bfull,summary,json\x7d] [-n] [-v] [--debug]\n" ++
    "                paths [paths ...]\n").toList

/-- The help. -/
def helpText : Text :=
  usage ++
  ("\n" ++
    "Check PHP function doc comments\n" ++
    "\n" ++
    "positional arguments:\n" ++
    "  paths                 Files or directories to scan\n" ++
    "\n" ++
    "options:\n" ++
    "  -h, --help            show this help message and exit\n" ++
    "  --config FILE         Config file (default: auto-discover docsniff.toml)\n" ++
    "  --extensions EXT[,EXT...]\n" ++
    "                        File extensions to scan in directories (default: php)\n" ++
    "  --exclude PATTERN     Glob pattern of paths to skip (repeatable)\n" ++
    "  --ignore-code CODE    Diagnostic code to drop, e.g. EmptySees (repeatable)\n" ++
    "  --report \x7bfull,summary,json\x7d\n" ++
    "                        Report format (default: full)\n" ++
    "  -n, --no-warnings     Do not report warnings\n" ++
    "  -v, --verbose         Print each scanned file to stderr\n" ++
    "  --debug               Dump token streams to stderr\n").toList

/-- What is printed about a fault of the command line. -/
def UsageFault.render (fault : UsageFault) : Text :=
  usage ++ "docsniff: error: ".toList ++ fault.message ++ "\n".toList

end DocLint
