import DocLint.Command.Report
import DocLint.Command.FileScan

/-!
# Runs

A run of the program on a disk: the command line is read, the files are collected and scanned
in order, and a report is printed. The exit code is 2 if the command line or an option cannot be used or
some file could not be scanned, else 1 if any finding is reported, else 0.
-/

namespace DocLint

/-- What a run leaves behind. -/
structure Outcome where
  /-- The exit code. -/
  exit : Nat
  /-- What is printed. -/
  stdout : Text := []
  /-- What is said on the way. -/
  stderr : Text := []

namespace Outcome

/-- What came of the files that were scanned. -/
def files (scans : List FileScan) : List SourceFile := scans.filterMap (·.file)

/-- The exit code after the scans. -/
def exitCode (scans : List FileScan) : Nat :=
  if scans.any (·.file.isNone) then 2
  else if (files scans).any (!·.diagnostics.isEmpty) then 1
  else 0

/-- What is left after the scans. -/
def ofScans (style : ReportStyle) (scans : List FileScan) : Except RenderFault Outcome := do
  return {
    exit := exitCode scans
    stdout := ← Report.ofStyle style (files scans)
    stderr := scans.flatMap (·.notes) }

/-- What is left after a command line that gives no arguments. -/
def ofStop : ArgumentStop → Outcome
  | .help => { exit := 0, stdout := helpText }
  | .fault fault => { exit := 2, stderr := fault.render }

/-- What is left after an option that cannot be used. -/
def ofOptionFault (fault : OptionFault) : Outcome :=
  { exit := 2, stderr := "error: ".toList ++ fault.message ++ "\n".toList }

end Outcome

namespace Options

/-- Collects, scans and reports. -/
def run (options : Options) (disk : Disk) : Except RunFault Outcome := do
  let paths ← (options.toSearch.collect disk).mapError .search
  let scans ← paths.mapM (options.scan disk)
  (Outcome.ofScans options.report scans).mapError .render

end Options

/-- Runs a command line. -/
def run (disk : Disk) (commandLine : List Text) : Except RunFault Outcome :=
  match Arguments.ofTexts commandLine with
  | .error stop => .ok (Outcome.ofStop stop)
  | .ok arguments =>
    match Options.resolve disk arguments with
    | .error (.settings fault) => .error (.settings fault)
    | .error (.option fault) => .ok (Outcome.ofOptionFault fault)
    | .ok options => options.run disk

end DocLint
