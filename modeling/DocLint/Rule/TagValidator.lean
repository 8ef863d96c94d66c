import DocLint.Rule.Declaration
import DocLint.Rule.TypeName

/-!
# Checking tags

The checks of `@return`, `@throws` and `@param`. A rule decides which of them a comment needs, and is
given the checks as a `TagValidator`, so that others can take their place. The standard ones want one
`@return` with a type, a type for each `@throws`, and for each parameter, in order, one `@param` with
type, variable and description.
-/

namespace DocLint

/-- The checks of tags, each for a function and the start of its comment. -/
structure TagValidator where
  /-- The check of `@return`. -/
  checkReturn : Stream → (function comment : Int) → Check Unit
  /-- The check of `@throws`. -/
  checkThrows : Stream → (function comment : Int) → Check Unit
  /-- The check of `@param`. -/
  checkParameters : Stream → (function comment : Int) → Check Unit

/-- Notes which checks are asked for, and checks nothing. -/
def TagValidator.recording : TagValidator where
  checkReturn _ function comment := Check.report (.asked .returns function comment)
  checkThrows _ function comment := Check.report (.asked .throws function comment)
  checkParameters _ function comment := Check.report (.asked .parameters function comment)

/-! ## Tags in a stream -/

namespace Stream

/-- Where the comment that starts at an index ends. -/
def commentEnd (stream : Stream) (comment : Int) : Except Fault Int := do
  return (← stream.fetch comment).comment.closer.getD comment

/-- Those of the indices at which there is a given text. -/
def keepContent (stream : Stream) (content : Text) : List Int → Except Fault (List Int)
  | [] => .ok []
  | index :: rest => do
    let token ← stream.fetch index
    let kept ← keepContent stream content rest
    return if token.content == content then index :: kept else kept

/-- The tags with a given name of the comment that starts at an index. -/
def tagsNamed (stream : Stream) (comment : Int) (name : Text) : Except Fault (List Int) := do
  stream.keepContent name (← stream.fetch comment).tags

/-- The text that follows a tag on its line, in a comment that ends at `stop`. -/
def tagContent (stream : Stream) (tag stop : Int) : Option Text := do
  let found ← stream.findNext { kinds := [.docText] } tag (some stop)
  let text ← stream[found]?
  let first ← stream.token? tag
  guard (text.line == first.line)
  return text.content

end Stream

/-! ## Variables -/

/-- A word without leading ampersands, and then without three dots. -/
def bareVariable (word : Text) : Text :=
  let bare := word.dropWhile (· == '&')
  (Text.after? "...".toList bare).getD bare

/-- Does a word name a variable? -/
def isVariable (word : Text) : Bool := (bareVariable word).head? == some '$'

/-! ## The standard checks -/

namespace Stream

/-- Methods that return nothing by nature. -/
def specialMethods : List Text := ["__construct".toList, "__destruct".toList]

/-- Reports an error at each of the given tokens. -/
def reportAll (stream : Stream) (template code : String) : List Int → Check Unit
  | [] => pure ()
  | index :: rest => do
    stream.reportError template index code
    stream.reportAll template code rest

/-- One `@return` tag, with a type. -/
def checkReturn (stream : Stream) (function comment : Int) : Check Unit := do
  let name ← Check.quiet (stream.declaredName function)
  if specialMethods.contains (Text.lower (name.getD [])) then return
  let stop ← Check.quiet (stream.commentEnd comment)
  match ← Check.quiet (stream.tagsNamed comment "@return".toList) with
  | [] => stream.reportError "Missing @return tag in function comment" stop "MissingReturn"
  | first :: more =>
    stream.reportAll "Only 1 @return tag is allowed in a function comment" "DuplicateReturn" more
    if (stream.tagContent first stop).isNone then
      stream.reportError "Return type missing for @return tag in function comment" first
        "MissingReturnType"

/-- A type for each `@throws` tag. -/
def checkThrows (stream : Stream) (comment : Int) : Check Unit := do
  let stop ← Check.quiet (stream.commentEnd comment)
  let tags ← Check.quiet (stream.tagsNamed comment "@throws".toList)
  stream.reportAll "Exception type missing for @throws tag in function comment" "InvalidThrows"
    (tags.filter fun tag => (stream.tagContent tag stop).isNone)

/-- The name in a `@param` tag against the parameter at its place, if there is one. -/
def checkAgainst (stream : Stream) (tag : Int) (type name : Text) : Option Parameter → Check Unit
  | none => stream.reportError "Superfluous parameter comment" tag "ExtraParamComment"
  | some parameter =>
    if name ≠ parameter.name then
      stream.reportError
        "Doc comment for parameter \"%s\" does not match actual variable name \"%s\""
        tag "ParamNameNoMatch" [name, parameter.name]
    else if type ≠ [] ∧ parameter.hint ≠ [] ∧ !documents type parameter.hint then
      stream.report .warning
        "Type hint \"%s\" of parameter \"%s\" is not covered by documented type \"%s\"".toList
        tag "TypeHintMismatch" [parameter.hint, parameter.name, type]
    else pure ()

/-- The variable and the description in a `@param` tag, behind its type. Gives the name of the
variable, if there is one. -/
def checkVariable (stream : Stream) (tag : Int) (parameter : Option Parameter) (type : Text) :
    (words : List Text) → Check (Option Text)
  | [] => do
    stream.reportError "Missing parameter name" tag "MissingParamName"
    return none
  | word :: description => do
    if isVariable word then
      let name := bareVariable word
      stream.checkAgainst tag type name parameter
      if description.isEmpty then
        stream.reportError "Missing parameter comment" tag "MissingParamComment"
      return some name
    else
      stream.reportError "Missing parameter name" tag "MissingParamName"
      return none

/-- One `@param` tag with a given text. Gives the name of its variable, if there is one. -/
def checkParameterTag (stream : Stream) (tag : Int) (parameter : Option Parameter) :
    (content : Option Text) → Check (Option Text)
  | none => do
    stream.reportError "Missing parameter type" tag "MissingParamType"
    return none
  | some content =>
    match Text.words 2 content with
    | [] => Check.fail (.noWord tag)
    | first :: rest =>
      if isVariable first then do
        stream.reportError "Missing parameter type" tag "MissingParamType"
        stream.checkVariable tag parameter [] (first :: rest)
      else stream.checkVariable tag parameter first rest

/-- The `@param` tags of a comment that ends at `stop`, against the parameters in order. Gives the
names of the variables. -/
def checkParameterTags (stream : Stream) (stop : Int) :
    (tags : List Int) → (parameters : List Parameter) → Check (List Text)
  | [], _ => pure []
  | tag :: tags, parameters => do
    let name ← stream.checkParameterTag tag parameters.head? (stream.tagContent tag stop)
    let names ← checkParameterTags stream stop tags parameters.tail
    return name.toList ++ names

/-- Parameters that have no tag. -/
def checkUndocumented (stream : Stream) (stop : Int) (documented : List Text) :
    List Parameter → Check Unit
  | [] => pure ()
  | parameter :: rest => do
    if !documented.contains parameter.name then
      stream.reportError "Doc comment for parameter \"%s\" missing" stop "MissingParamTag"
        [parameter.name]
    checkUndocumented stream stop documented rest

/-- A `@param` tag for each parameter, in order, with type, variable and description. -/
def checkParameters (stream : Stream) (function comment : Int) : Check Unit := do
  let stop ← Check.quiet (stream.commentEnd comment)
  let parameters ← Check.quiet (stream.parameters function)
  let tags ← Check.quiet (stream.tagsNamed comment "@param".toList)
  let documented ← stream.checkParameterTags stop tags parameters
  stream.checkUndocumented stop documented parameters

end Stream

/-- The standard checks of tags. -/
def TagValidator.standard : TagValidator where
  checkReturn := Stream.checkReturn
  checkThrows stream _ comment := stream.checkThrows comment
  checkParameters := Stream.checkParameters

end DocLint
