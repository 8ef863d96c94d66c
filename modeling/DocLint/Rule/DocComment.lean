import DocLint.Finding.Check

/-!
# Doc comments

The comment of a function is the one right before it, with nothing but white space and modifiers in
between. A plain comment counts as one too, unless it ends on the line on which the token before it
ends: then it is a remark about that token, and that token has to be the end of a comment instead.

A doc comment that contains the inherit marker takes its text from elsewhere.
-/

namespace DocLint

/-- A tag of a doc comment. -/
structure DocTag where
  /-- The tag with its `@`. -/
  name : Text
  /-- The index of the tag. -/
  index : Int
  /-- The line of the tag. -/
  line : Int
  deriving DecidableEq

/-- Where a comment starts and ends, and its tags in order. A plain comment is one token without
tags. -/
structure DocComment where
  /-- The index of the first token. -/
  opener : Int
  /-- The index of the last token. -/
  closer : Int
  /-- The tags. -/
  tags : List DocTag
  deriving DecidableEq

/-- The tags of a comment with a given name. -/
def DocComment.tagsNamed (comment : DocComment) (name : Text) : List DocTag :=
  comment.tags.filter (·.name == name)

/-! ## The inherit marker -/

/-- The inherit marker, in lower case. -/
def inheritMarker : Text := "\x7b@inheritdoc\x7d".toList

/-- Is `c` the letter `letter` in some case? The dotted capital and the dotless small i count as i. -/
def sameLetter (letter c : Char) : Bool :=
  c == letter || c.toLower == letter || (letter == 'i' && (c == 'ı' || c == 'İ'))

/-- Does a text start with the letters, in any mix of cases? -/
def startsWithLetters : (letters : Text) → Text → Bool
  | [], _ => true
  | _ :: _, [] => false
  | letter :: letters, c :: rest => sameLetter letter c && startsWithLetters letters rest

/-- Does a text contain the inherit marker, in any mix of cases? -/
def hasInheritMarker : Text → Bool
  | [] => false
  | c :: rest => startsWithLetters inheritMarker (c :: rest) || hasInheritMarker rest

/-! ## Comments in a stream -/

/-- What may stand between a function and its comment. -/
def betweenKinds : List Kind := Kind.all.filter fun kind => kind == .gap || kind.isModifier

namespace Stream

/-- The nearest token before an index that is no white space and no modifier. -/
def lastBefore (stream : Stream) (index : Int) : Option Nat :=
  stream.findPrevious { kinds := betweenKinds, exclude := true } (index - 1)

/-- What the plain comment at an index is a remark about: the token before it, if that ends on the
same line. -/
def remarkTarget? (stream : Stream) (index : Nat) : Option Nat := do
  let token ← stream[index]?
  guard (token.kind == .comment)
  let earlier ← stream.lastBefore index
  let earlierToken ← stream[earlier]?
  guard (earlierToken.endLine == token.endLine)
  return earlier

/-- The index at which the comment of the function at `function` ends. -/
def locateComment (stream : Stream) (function : Int) : Option Nat := do
  let last ← stream.lastBefore function
  let found := (stream.remarkTarget? last).getD last
  let token ← stream[found]?
  guard (token.kind == .docClose || token.kind == .comment)
  return found

/-- The tags at given indices. -/
def tagsAt (stream : Stream) : List Int → Except Fault (List DocTag)
  | [] => .ok []
  | index :: rest => do
    let token ← stream.fetch index
    let tags ← tagsAt stream rest
    return ⟨token.content, index, token.line⟩ :: tags

/-- The comment that ends at an index. -/
def readComment (stream : Stream) (closer : Int) : Except Fault DocComment := do
  let token ← stream.fetch closer
  if token.kind == .comment then return ⟨closer, closer, []⟩
  if token.kind != .docClose then throw (.broken (.notComment token.kind) closer)
  match token.comment.opener with
  | none => throw (.broken .noCommentOpener closer)
  | some opener =>
    let first ← stream.fetch opener
    if first.comment.closer != some closer then throw (.broken .noCommentOpener closer)
    return ⟨opener, closer, ← stream.tagsAt first.tags⟩

/-- Does the nearest doc comment before an index contain the inherit marker? -/
def inheritsDoc (stream : Stream) (index : Int) : Except Fault Bool :=
  match stream.findPrevious { kinds := [.docOpen] } (index - 1) with
  | none => .ok false
  | some opener =>
    match stream.findNext { kinds := [.docClose] } opener with
    | none => .error (.broken .openDocComment opener)
    | some closer => .ok (hasInheritMarker (stream.textBetween opener closer))

end Stream

end DocLint
