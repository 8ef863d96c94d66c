import DocLint.Snippet

/-!
# Diagnostics

A diagnostic is a finding at a token. Its message is a template with the arguments put in for `%s`;
a template without arguments is the message as it stands, percent signs and all.
-/

namespace DocLint

/-- How grave a finding is. -/
inductive Severity where
  /-- Has to be mended. -/
  | error
  /-- Worth a look. -/
  | warning
  deriving DecidableEq

/-- The word for a severity. -/
def Severity.label : Severity → String
  | error => "error"
  | warning => "warning"

/-- Why arguments do not fit a template. -/
inductive TemplateFault where
  /-- There are more or fewer arguments than places for them. -/
  | argumentCount
  /-- A percent sign that stands for nothing. -/
  | strayPercent
  deriving DecidableEq

/-- A template with its arguments put in, one for each `%s`; `%%` stands for a percent sign. -/
def fillTemplate : (template : Text) → (arguments : List Text) → Except TemplateFault Text
  | [], [] => .ok []
  | [], _ :: _ => .error .argumentCount
  | '%' :: '%' :: rest, arguments => ('%' :: ·) <$> fillTemplate rest arguments
  | '%' :: 's' :: rest, argument :: arguments => (argument ++ ·) <$> fillTemplate rest arguments
  | '%' :: 's' :: _, [] => .error .argumentCount
  | c :: rest, arguments =>
    if c == '%' then .error .strayPercent else (c :: ·) <$> fillTemplate rest arguments

/-- A finding at a token. -/
structure Diagnostic where
  /-- The index of the token. -/
  position : Int
  /-- The line of the token. -/
  line : Int
  /-- The column of the token. -/
  column : Int
  /-- The message, with `%s` for each argument. -/
  template : Text
  /-- What is put in for the arguments. -/
  arguments : List Text
  /-- What was found, as one word. -/
  code : String
  /-- How grave it is. -/
  severity : Severity
  /-- The rule that found it. -/
  source : String
  deriving DecidableEq

/-- Why a diagnostic cannot be shown. -/
inductive RenderFault where
  /-- Its message cannot be filled in. -/
  | template (fault : TemplateFault)
  /-- Its place cannot be drawn. -/
  | snippet (fault : SnippetFault)
  deriving DecidableEq

namespace Diagnostic

/-- The message, if the arguments fit the template. -/
def message (diagnostic : Diagnostic) : Except TemplateFault Text :=
  if diagnostic.arguments.isEmpty then .ok diagnostic.template
  else fillTemplate diagnostic.template diagnostic.arguments

/-- The code with the rule it belongs to. -/
def fullCode (diagnostic : Diagnostic) : String := diagnostic.source ++ "." ++ diagnostic.code

/-- The diagnostic with the source line it is about. -/
def render (diagnostic : Diagnostic) (source filename : Text) : Except RenderFault Text := do
  let message ← diagnostic.message.mapError .template
  let snippet : Snippet := {
    label := diagnostic.severity.label.toList
    message := message ++ " [".toList ++ diagnostic.fullCode.toList ++ "]".toList
    line := diagnostic.line
    column := diagnostic.column
    source, filename }
  snippet.render.mapError .snippet

end Diagnostic

end DocLint
