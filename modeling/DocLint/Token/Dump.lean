import DocLint.Text.Quoted
import DocLint.Token.Stream

/-!
# Listing a stream

A listing has one line per token: index, place, kind, quoted content, and the links that the token has.
-/

namespace DocLint

/-- One end of a link; an end that is missing is `None`. -/
def Link.endText (index : Option Int) : Text := (index.map Text.ofInt).getD "None".toList

/-- A link with a label, if it has an opener. -/
def Link.entry (label : String) (link : Link) : Option Text :=
  link.opener.map fun opener =>
    label.toList ++ "=".toList ++ Text.ofInt opener ++ "..".toList ++ endText link.closer

/-- The links of a token, in brackets. -/
def Token.linkText (token : Token) : Text :=
  let entries := [
    token.scope.entry "scope",
    token.parens.entry "parens",
    token.brackets.entry "brackets",
    token.comment.opener.map fun opener => "opener=".toList ++ Text.ofInt opener,
    token.comment.closer.map fun closer => "closer=".toList ++ Text.ofInt closer,
    if token.tags.isEmpty then none
    else some ("tags=".toList ++ Text.join [','] (token.tags.map Text.ofInt))].filterMap id
  if entries.isEmpty then [] else "  [".toList ++ Text.join [' '] entries ++ "]".toList

/-- The line for a token, where indices are `width` characters wide. -/
def Token.listing (token : Token) (width index : Nat) : Text :=
  let number := Text.ofInt index
  Text.fill (width - number.length) ' ' ++ number ++ " ".toList ++ Text.ofInt token.line ++
    ":".toList ++ Text.ofInt token.column ++ " ".toList ++ token.kind.label.toList ++ " ".toList ++
    Text.quoted token.content ++ token.linkText ++ "\n".toList

/-- The listing of a stream. -/
def Stream.dump (stream : Stream) : Text :=
  let width := (Text.ofInt stream.size).length
  stream.toList.zipIdx.flatMap fun (token, index) => token.listing width index

end DocLint
