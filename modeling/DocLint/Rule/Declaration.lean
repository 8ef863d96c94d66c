import DocLint.Finding.Check

/-!
# Declarations

The name that a declaration gives, and the parameters of a function. Parameters are separated by the
commas between the parentheses, where a nested bracket or attribute belongs to one parameter as a
whole. A parameter is named by its first variable outside attributes; what stands before it, less
modifiers, ampersands and dots, is its type.
-/

namespace DocLint

/-- A declared parameter. -/
structure Parameter where
  /-- The variable, with its dollar sign. -/
  name : Text
  /-- The index of the variable. -/
  index : Int
  /-- The declared type; empty if there is none. -/
  hint : Text
  deriving DecidableEq

/-- Every kind that is silent. -/
def Kind.silent : List Kind := Kind.all.filter (·.isSilent)

/-- The token after which a bracket nested in a parameter list goes on, if `token` opens one. -/
def Token.nestedCloser (token : Token) : Option Int :=
  match token.kind with
  | .openParen => token.parens.closer
  | .openSquare | .openAttribute => token.brackets.closer
  | _ => none

/-- The index at which a parameter list goes on after the token at `index`: behind the bracket that
the token opens, or at the next token. -/
def Token.nextIndex (token : Token) (index : Int) : Int :=
  match token.nestedCloser with
  | some closer => if index < closer then closer + 1 else index + 1
  | none => index + 1

theorem Token.lt_nextIndex (token : Token) (index : Int) : index < token.nextIndex index := by
  unfold nextIndex
  split
  · split <;> omega
  · omega

/-- The indices from `first` on and before `last`. -/
def indices (first last : Int) : List Int :=
  (List.range (last - first).toNat).map fun (offset : Nat) => first + offset

/-- Puts indices in front of the first segment. -/
def extendSegment (front : List Int) : List (List Int) → List (List Int)
  | [] => [front]
  | segment :: segments => (front ++ segment) :: segments

namespace Stream

/-- The name that the token at an index declares; a closure has none. -/
def declaredName (stream : Stream) (index : Int) : Except Fault (Option Text) := do
  let token ← stream.fetch index
  if token.kind == .closure then return none
  if !token.kind.isDeclaration then throw (.broken (.notDeclaration token.kind) index)
  let query : Query := { kinds := .ampersand :: Kind.silent, exclude := true }
  match (stream.findNext query (index + 1)).bind (stream[·]?) with
  | none => return none
  | some name =>
    if name.kind == .openParen || name.kind == .openBrace then return none
    return some name.content

/-- The indices from `index` on and before `stop`, cut at the commas that no bracket holds. -/
def segments (stream : Stream) (stop index : Int) : Except Fault (List (List Int)) :=
  if _h : index < stop then do
    let token ← stream.fetch index
    if token.kind == .comma then
      return [] :: (← segments stream stop (index + 1))
    let next := token.nextIndex index
    return extendSegment (indices index next) (← segments stream stop next)
  else .ok [[]]
termination_by (stop - index).toNat
decreasing_by
  · omega
  · have := token.lt_nextIndex index
    omega

/-- The parameter that a segment declares. Indices up to `attributeEnd` lie in an attribute; `hint` is
the type as far as it is read. -/
def parameterFrom (stream : Stream) : (attributeEnd : Int) → (hint : Text) → (segment : List Int) →
    Except Fault (Option Parameter)
  | _, _, [] => .ok none
  | attributeEnd, hint, index :: rest => do
    let token ← stream.fetch index
    if index ≤ attributeEnd then parameterFrom stream attributeEnd hint rest
    else match token.kind with
      | .openAttribute => parameterFrom stream (token.brackets.closer.getD index) hint rest
      | .variableName => .ok (some ⟨token.content, index, hint⟩)
      | .ampersand | .ellipsis => parameterFrom stream attributeEnd hint rest
      | kind =>
        if kind.isSilent || kind.isModifier then parameterFrom stream attributeEnd hint rest
        else parameterFrom stream attributeEnd (hint ++ token.content) rest

/-- The parameters that segments declare. -/
def parametersIn (stream : Stream) : List (List Int) → Except Fault (List Parameter)
  | [] => .ok []
  | segment :: rest => do
    let parameter ← parameterFrom stream (-1) [] segment
    let parameters ← parametersIn stream rest
    return parameter.toList ++ parameters

/-- The parameters of the function at an index, in order. -/
def parameters (stream : Stream) (index : Int) : Except Fault (List Parameter) := do
  let token ← stream.fetch index
  if token.kind != .function && token.kind != .closure then
    throw (.broken (.notFunction token.kind) index)
  match token.parens.opener, token.parens.closer with
  | some opener, some closer =>
    stream.parametersIn (← stream.segments closer (opener + 1))
  | _, _ => throw (.broken .noParameterList index)

end Stream

end DocLint
