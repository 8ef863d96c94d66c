import DocLint.Command.Usage
import DocLint.Finding.SourceFile
import DocLint.Json

/-!
# Reports

The three reports on scanned files: every finding with its source line, the counts of each file, and
everything as JSON. All three count the findings that the files hold, and add up the metrics of all files.
-/

namespace DocLint.Report

/-- The number of findings of a severity in all files. -/
def count (files : List SourceFile) (severity : Severity) : Nat :=
  (files.flatMap fun file => file.findings severity).length

/-- The metrics of all files. -/
def metrics (files : List SourceFile) : Totals :=
  Totals.merge (files.map fun file => file.metrics.totals)

/-- A number of errors, and of warnings, with `between` between them. -/
def tally (errors warnings : Nat) (between : String) : Text :=
  Text.ofInt errors ++ " error(s)".toList ++ between.toList ++ Text.ofInt warnings ++
    " warning(s)".toList

/-- The line about one file; none about a file without findings if `clean` does not hold. -/
def fileLine (clean : Bool) (file : SourceFile) : Text :=
  let errors := (file.findings .error).length
  let warnings := (file.findings .warning).length
  if errors = 0 ∧ warnings = 0 ∧ !clean then []
  else file.filename ++ ": ".toList ++ tally errors warnings ", " ++ "\n".toList

/-- A table in the order of its keys. -/
def sorted {α : Type} (table : Table String α) : Table String α :=
  table.mergeSort fun a b => Text.le a.1.toList b.1.toList

/-- The line about one metric. -/
def metricLine (name : String) (counts : Table String Nat) : Text :=
  let shown := (sorted counts).map fun (value, count) => value.toList ++ '=' :: Text.ofInt count
  name.toList ++ ": ".toList ++ Text.join ", ".toList shown ++ "\n".toList

/-- The counts of each file and of all; files without findings only if `clean` holds. -/
def summary (clean : Bool) (files : List SourceFile) : Text :=
  files.flatMap (fileLine clean) ++
  (sorted (metrics files)).flatMap (fun (name, counts) => metricLine name counts) ++
  "Found ".toList ++ tally (count files .error) (count files .warning) " and " ++
  " in ".toList ++ Text.ofInt files.length ++ " file(s)\n".toList

/-- The findings of one file with their source lines. -/
def details (file : SourceFile) : Except RenderFault Text := do
  let shown ← file.diagnostics.mapM fun diagnostic => diagnostic.render file.source file.filename
  return shown.flatMap (· ++ "\n\n".toList)

/-- Every finding with its source line, and the counts. -/
def full (files : List SourceFile) : Except RenderFault Text := do
  return (← files.mapM details).flatten ++ summary false files

/-- A finding as JSON. -/
def messageJson (diagnostic : Diagnostic) : Except RenderFault Json := do
  return .object [
    ("message".toList, .text (← diagnostic.message.mapError .template)),
    ("source".toList, .text diagnostic.fullCode.toList),
    ("severity".toList, .text diagnostic.severity.label.toList),
    ("line".toList, .number diagnostic.line),
    ("column".toList, .number diagnostic.column)]

/-- The counts of findings as fields of an object. -/
def countFields (errors warnings : Nat) : List (Text × Json) :=
  [("errors".toList, .number errors), ("warnings".toList, .number warnings)]

/-- A file as JSON. -/
def fileJson (file : SourceFile) : Except RenderFault Json := do
  let messages ← file.diagnostics.mapM messageJson
  return .object (countFields (file.findings .error).length (file.findings .warning).length ++
    [("messages".toList, .list messages)])

/-- The files as JSON, by name. -/
def filesJson (files : List SourceFile) : Except RenderFault (Table Text Json) :=
  files.foldlM (fun table file => do
    let entry ← fileJson file
    return table.adjust file.filename entry fun _ => entry) []

/-- The metrics as JSON. -/
def metricsJson (totals : Totals) : Json :=
  .object (totals.map fun (name, counts) =>
    (name.toList, .object (counts.map fun (value, count) => (value.toList, .number count))))

/-- Everything as JSON. -/
def json (files : List SourceFile) : Except RenderFault Text := do
  let value : Json := .object [
    ("totals".toList, .object (countFields (count files .error) (count files .warning))),
    ("files".toList, .object (← filesJson files)),
    ("metrics".toList, metricsJson (metrics files))]
  return value.render 0 ++ "\n".toList

/-- The report of a style. -/
def ofStyle : ReportStyle → List SourceFile → Except RenderFault Text
  | .full, files => full files
  | .summary, files => .ok (summary true files)
  | .json, files => json files

end DocLint.Report
