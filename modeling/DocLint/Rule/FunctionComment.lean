import DocLint.Finding.SourceFile
import DocLint.Rule.DocComment
import DocLint.Rule.Returns
import DocLint.Rule.TagValidator

/-!
# The function comment rule

Every named function should have a comment. The rule reports functions without one and empty `@see`
tags itself. It asks a tag validator to check `@throws` always, `@param` unless the text is inherited,
and `@return` unless the text is inherited or the body returns no value. One metric says for each
function whether it has a comment.
-/

namespace DocLint

/-- The name of the metric. -/
def commentMetric : String := "Function has doc comment"

namespace Stream

/-- Reports the `@see` tags of a comment that are followed by nothing. -/
def checkSees (stream : Stream) (comment : DocComment) : Check Unit :=
  stream.reportAll "Content missing for @see tag in function comment" "EmptySees"
    (((comment.tagsNamed "@see".toList).map (·.index)).filter fun tag =>
      (stream.tagContent tag comment.closer).isNone)

/-- Asks for the check of `@return` if it is due. -/
def askReturn (stream : Stream) (validator : TagValidator) (function comment : Int) : Check Unit := do
  if ← Check.quiet (stream.inheritsDoc function) then return
  if ← Check.quiet (stream.returnsValue function) then
    validator.checkReturn stream function comment

/-- Asks for the check of `@param` if it is due. -/
def askParameters (stream : Stream) (validator : TagValidator) (function comment : Int) :
    Check Unit := do
  if ← Check.quiet (stream.inheritsDoc function) then return
  validator.checkParameters stream function comment

/-- Reports that a function has no comment. -/
def checkMissing (stream : Stream) (function : Int) : Check Unit := do
  let name ← Check.quiet (stream.declaredName function)
  stream.reportError "Missing doc comment for function %s()" function "Missing" [name.getD []]
  Check.report (.measured function commentMetric "no")

/-- Checks the comment that ends at `closer` for a function. -/
def checkComment (stream : Stream) (validator : TagValidator) (function closer : Int) :
    Check Unit := do
  Check.report (.measured function commentMetric "yes")
  let comment ← Check.quiet (stream.readComment closer)
  stream.checkSees comment
  stream.askReturn validator function comment.opener
  validator.checkThrows stream function comment.opener
  stream.askParameters validator function comment.opener

/-- Checks the function at an index. -/
def checkFunction (stream : Stream) (validator : TagValidator) (function : Int) : Check Unit :=
  match stream.locateComment function with
  | none => stream.checkMissing function
  | some closer => stream.checkComment validator function closer

/-- The indices of the named functions, in order. -/
def functions (stream : Stream) : List Nat :=
  (List.range stream.size).filter fun index => stream[index]?.any (·.kind == .function)

/-- Checks functions one after the other. -/
def checkAll (stream : Stream) (validator : TagValidator) : List Nat → Check Unit
  | [] => pure ()
  | function :: rest => do
    stream.checkFunction validator function
    stream.checkAll validator rest

/-- Checks every named function of a stream, in order. -/
def checkFunctions (stream : Stream) (validator : TagValidator := .standard) : Check Unit :=
  stream.checkAll validator stream.functions

end Stream

namespace SourceFile

/-- The file with the findings of the function comment rule added. -/
def checked (file : SourceFile) : Except Fault SourceFile :=
  let check := file.stream.checkFunctions
  check.result.map fun _ => file.run check

end SourceFile

end DocLint
