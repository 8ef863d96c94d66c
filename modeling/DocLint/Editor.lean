import DocLint.Rule.FunctionComment

/-!
# Editor documents

An editor says when a document is opened, changed or saved, and is told all marks for its text each time.
A mark underlines the token of a finding up to the end of its first line. A text whose tokens cannot be told
apart has one mark, on the character where that shows. How the texts of documents are kept is not decided
here: a workspace gives the text of a document after all that the editor has said.
-/

namespace DocLint

/-- A mark in a document. Lines and columns count from zero. -/
structure Mark where
  /-- The line. -/
  line : Int
  /-- The column of the first character. -/
  first : Int
  /-- The column behind the last character. -/
  last : Int
  /-- What is wrong. -/
  message : Text
  /-- How bad it is. -/
  severity : Severity
  /-- The full code of the finding, if it is one. -/
  code : Option String

/-- Why a document has no marks. -/
inductive MarkFault where
  /-- The workspace gives no text for it. -/
  | noText
  /-- The check stopped. -/
  | check (fault : Fault)
  /-- The message of a finding cannot be filled in. -/
  | template (fault : TemplateFault)

/-- What an editor says. -/
inductive EditorEvent where
  /-- A document was opened, and this is its text. -/
  | opened (uri text : Text)
  /-- A document was changed, and this is its text. -/
  | changed (uri text : Text)
  /-- A document was saved. -/
  | saved (uri : Text)

/-- The document that an event is about. -/
def EditorEvent.uri : EditorEvent → Text
  | opened uri _ | changed uri _ | saved uri => uri

/-- The documents that an editor may speak about. -/
structure Workspace where
  /-- The document that a URI names. -/
  document : Text → Text
  /-- The text of the document that a URI names, after all that was said. -/
  text? : (past : List EditorEvent) → (uri : Text) → Option Text

namespace Mark

/-- The mark of a text whose tokens cannot be told apart. -/
def ofLexError (error : LexError) : Mark where
  line := error.line - 1
  first := error.column - 1
  last := error.column
  message := error.fault.message
  severity := .error
  code := none

/-- The length of a token on its first line, at least one. -/
def width (token : Token) : Nat := max 1 (token.content.takeWhile (· != '\n')).length

/-- The mark of a finding. -/
def ofDiagnostic (stream : Stream) (diagnostic : Diagnostic) : Except MarkFault Mark := do
  let token ← (stream.fetch diagnostic.position).mapError .check
  let message ← diagnostic.message.mapError .template
  return {
    line := diagnostic.line - 1
    first := diagnostic.column - 1
    last := diagnostic.column - 1 + width token
    message
    severity := diagnostic.severity
    code := some diagnostic.fullCode }

/-- The marks of a text. -/
def all (source filename : Text) : Except MarkFault (List Mark) :=
  match SourceFile.ofSource source filename with
  | .error error => .ok [ofLexError error]
  | .ok file => do
    let checked ← file.checked.mapError .check
    checked.diagnostics.mapM (ofDiagnostic checked.stream)

end Mark

namespace Workspace

/-- The name of a document: what follows the last slash. -/
def filename (uri : Text) : Text := (uri.reverse.takeWhile (· != '/')).reverse

/-- The marks of a document after all that was said. -/
def marks (workspace : Workspace) (past : List EditorEvent) (uri : Text) : Except MarkFault (List Mark) :=
  match workspace.text? past uri with
  | none => .error .noText
  | some text => Mark.all text (filename uri)

/-- What is told after each event that follows others: the document and its marks. -/
def runAfter (workspace : Workspace) (past : List EditorEvent) :
    List EditorEvent → List (Text × Except MarkFault (List Mark))
  | [] => []
  | event :: rest =>
    let past := past ++ [event]
    (event.uri, workspace.marks past event.uri) :: workspace.runAfter past rest

/-- What is told after each event. -/
def run (workspace : Workspace) (events : List EditorEvent) : List (Text × Except MarkFault (List Mark)) :=
  workspace.runAfter [] events

end Workspace

end DocLint
