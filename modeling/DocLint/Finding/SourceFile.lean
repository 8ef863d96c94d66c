import DocLint.Finding.Check

/-!
# Source files

A source file is a stream with the findings and metrics that checks have recorded for it so far.
-/

namespace DocLint

/-- A stream and what was found in it. -/
structure SourceFile where
  /-- The text of the file. -/
  source : Text
  /-- The name of the file. -/
  filename : Text
  /-- Its tokens. -/
  stream : Stream
  /-- The findings so far, in order. -/
  diagnostics : List Diagnostic := []
  /-- The metrics so far. -/
  metrics : Metrics := []

namespace SourceFile

/-- A file in which nothing was looked for yet, or the fault that keeps it from being read. -/
def ofSource (source filename : Text) : Except LexError SourceFile := do
  return { source, filename, stream := ← Stream.ofSource source }

/-- The file after an event. -/
def after (file : SourceFile) : Event → SourceFile
  | .found diagnostic => { file with diagnostics := file.diagnostics ++ [diagnostic] }
  | .measured position name value =>
    { file with metrics := file.metrics.record position name value }
  | .asked _ _ _ => file

/-- The file after a check, whether it was stopped or not. -/
def run {α : Type} (file : SourceFile) (check : Check α) : SourceFile :=
  check.events.foldl after file

/-- The finding at an index that may count from the end. -/
def diagnostic? (file : SourceFile) (index : Int) : Option Diagnostic :=
  (resolveIndex? file.diagnostics.length index).bind (file.diagnostics[·]?)

/-- The findings of one severity. -/
def findings (file : SourceFile) (severity : Severity) : List Diagnostic :=
  file.diagnostics.filter (·.severity == severity)

/-- The file with its findings forgotten. -/
def clear (file : SourceFile) : SourceFile := { file with diagnostics := [] }

end SourceFile

end DocLint
