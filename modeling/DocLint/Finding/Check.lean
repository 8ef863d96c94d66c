import DocLint.Finding.Diagnostic
import DocLint.Finding.Metrics
import DocLint.Token.Search

/-!
# Checks

A check reads a stream, reports what it finds on the way, and gives a result or stops with a fault.
What it reported before a fault stays reported, so a check is the list of its events together with its
result, and a check that follows another adds its events behind.

Most faults come only from streams whose links make no sense. The streams of sources know three: a
closure without a body, a function without a parameter list, and a `@param` whose text is white space
other than blanks.
-/

namespace DocLint

/-- What a stream lacks that a check relies on. -/
inductive Defect where
  /-- A name is asked of a token that declares none. -/
  | notDeclaration (kind : Kind)
  /-- Parameters are asked of a token that is no function. -/
  | notFunction (kind : Kind)
  /-- A function without a parameter list. -/
  | noParameterList
  /-- A finding at an index that the stream does not have. -/
  | outOfRange
  /-- A comment is read where there is none. -/
  | notComment (kind : Kind)
  /-- The closing of a doc comment does not belong to an opening. -/
  | noCommentOpener
  /-- A doc comment without a closing. -/
  | openDocComment
  /-- A body without an opening brace. -/
  | noOpeningBrace
  /-- A closure without a body. -/
  | closureWithoutBody
  deriving DecidableEq

/-- The wording of a defect. -/
def Defect.message : Defect → String
  | notDeclaration kind => "token " ++ kind.label ++ " is not a declaration"
  | notFunction kind => "token " ++ kind.label ++ " is not a function"
  | noParameterList => "function has no parameter list"
  | outOfRange => "diagnostic position out of range"
  | notComment kind => "expected a comment, found " ++ kind.label
  | noCommentOpener => "doc comment close tag has no matching opener"
  | openDocComment => "unterminated doc comment"
  | noOpeningBrace => "function scope has no opening brace"
  | closureWithoutBody => "closure has no body"

/-- Why a check stops without a result. -/
inductive Fault where
  /-- The stream has no token at an index. -/
  | noToken (index : Int)
  /-- The text of a tag has no word. -/
  | noWord (index : Int)
  /-- The stream breaks what the check relies on, at a token. -/
  | broken (defect : Defect) (index : Int)
  /-- The links of the stream lead a scan in a circle. -/
  | endless (index : Int)
  deriving DecidableEq

/-- The wording of a fault. -/
def Fault.message : Fault → String
  | noToken index => "no token at index " ++ toString index
  | noWord index => "tag without a word (token " ++ toString index ++ ")"
  | broken defect index => defect.message ++ " (token " ++ toString index ++ ")"
  | endless index => "links lead in a circle (token " ++ toString index ++ ")"

/-- The checks of tags that a rule hands over. -/
inductive TagCheck where
  /-- The check of `@return`. -/
  | returns
  /-- The check of `@throws`. -/
  | throws
  /-- The check of `@param`. -/
  | parameters
  deriving DecidableEq

/-- What a check reports on the way. -/
inductive Event where
  /-- A finding. -/
  | found (diagnostic : Diagnostic)
  /-- A value of a metric for a token. -/
  | measured (position : Int) (name value : String)
  /-- A check of tags was asked for, for a function and the start of its comment. -/
  | asked (check : TagCheck) (function comment : Int)
  deriving DecidableEq

/-- The finding that an event reports. -/
def Event.diagnostic? : Event → Option Diagnostic
  | found diagnostic => some diagnostic
  | _ => none

/-- Events in order, and a result or the fault that stopped the check. -/
structure Check (α : Type) where
  /-- What was reported. -/
  events : List Event
  /-- The result, or the fault that stopped the check. -/
  result : Except Fault α

namespace Check

/-- The check that `next` continues. -/
def andThen {α β : Type} (check : Check α) (next : α → Check β) : Check β :=
  match check.result with
  | .error fault => ⟨check.events, .error fault⟩
  | .ok value => ⟨check.events ++ (next value).events, (next value).result⟩

instance : Monad Check where
  pure value := ⟨[], .ok value⟩
  bind := andThen

/-- Stops with a fault. -/
def fail {α : Type} (fault : Fault) : Check α := ⟨[], .error fault⟩

/-- Reports one event. -/
def report (event : Event) : Check Unit := ⟨[event], .ok ()⟩

/-- A check that reports nothing. -/
def quiet {α : Type} (result : Except Fault α) : Check α := ⟨[], result⟩

end Check

namespace Stream

/-- The token at an index that may count from the end, or a fault. -/
def fetch (stream : Stream) (index : Int) : Except Fault Token :=
  match stream.token? index with
  | some token => .ok token
  | none => .error (.noToken index)

/-- Reports a finding at a token. -/
def report (stream : Stream) (severity : Severity) (template : Text) (position : Int)
    (code : String) (arguments : List Text := []) (source : String := "FunctionComment") :
    Check Unit :=
  if 0 ≤ position ∧ position < stream.size then do
    let token ← Check.quiet (stream.fetch position)
    Check.report (.found {
      position, line := token.line, column := token.column
      template, arguments, code, severity, source })
  else Check.fail (.broken .outOfRange position)

/-- Reports an error at a token. -/
def reportError (stream : Stream) (template : String) (position : Int) (code : String)
    (arguments : List Text := []) : Check Unit :=
  stream.report .error template.toList position code arguments

end Stream

end DocLint
