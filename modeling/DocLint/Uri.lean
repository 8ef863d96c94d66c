import DocLint.Text.Utf8
import DocLint.Uri.Host

/-!
# URIs

A URI may write any character as the bytes of its UTF-8 form, each as a percent sign with two hexadecimal
digits. Such a URI names the same document as one that writes the character itself. A percent sign without
two digits behind it stands for itself, and bytes that are no text for a replacement character.

What follows two slashes, behind the scheme if there is one, is the authority, up to a slash, a question mark
or a number sign. It holds a host, behind a user and an at sign if there are such, and a colon behind the host may
lead to a number. A host with colons of its own stands in square brackets. No character that only looks like a sign
between the parts of a URI may stand in the authority.
-/

namespace DocLint.Uri

/-- The byte that two hexadecimal digits stand for. -/
def hexByte? (high low : Char) : Option UInt8 := do
  return UInt8.ofNat ((← Text.hexValue? high) * 16 + (← Text.hexValue? low))

/-- Decodes a URI behind the bytes `bytes`, which were written since the last character beyond ASCII. -/
def decodeFrom : (bytes : List UInt8) → Text → Text
  | bytes, [] => Utf8.decodeReplacing bytes
  | bytes, '%' :: high :: low :: rest =>
    match hexByte? high low with
    | some byte => decodeFrom (bytes ++ [byte]) rest
    | none => decodeFrom (bytes ++ ['%'.toUInt8]) (high :: low :: rest)
  | bytes, c :: rest =>
    if c.toNat < 0x80 then decodeFrom (bytes ++ [c.toUInt8]) rest
    else Utf8.decodeReplacing bytes ++ c :: decodeFrom [] rest
termination_by _ text => text.length

/-- A URI with each character written as itself. -/
def decode (uri : Text) : Text := decodeFrom [] uri

/-! ## The authority -/

/-- May the character stand in a scheme? -/
def isSchemeChar (c : Char) : Bool := c.isAlphanum || c == '+' || c == '-' || c == '.'

/-- What follows the scheme, if there is one. -/
def withoutScheme (uri : Text) : Text :=
  match uri.dropWhile (· != ':') with
  | [] => uri
  | _ :: rest =>
    let scheme := uri.takeWhile (· != ':')
    if scheme.head?.any Char.isAlpha && scheme.all isSchemeChar then rest else uri

/-- The authority; empty if there is none. Blanks and control characters in front of a URI do not count, nor do
tabs and line ends anywhere in it. -/
def authority (uri : Text) : Text :=
  let inked := (uri.dropWhile fun c => c.toNat ≤ 0x20).filter fun c => c != '\t' && c != '\r' && c != '\n'
  match withoutScheme inked with
  | '/' :: '/' :: rest => rest.takeWhile fun c => c != '/' && c != '?' && c != '#'
  | _ => []

/-- What follows the user: the host, and the number if there is one. -/
def numberedHost (authority : Text) : Text := (authority.reverse.takeWhile (· != '@')).reverse

/-- Is the host of an authority with brackets one that may stand in them? It is what follows the bracket in
front, or, if the brackets belong to the user, all in front of the number. -/
def hasBracketedHost (authority : Text) : Bool :=
  match numberedHost authority with
  | '[' :: rest =>
    isBracketedHost (rest.takeWhile (· != ']')) && (rest.dropWhile (· != ']')).tail.head?.all (· == ':')
  | place => !place.contains '[' && isBracketedHost (place.takeWhile (· != ':'))

/-- Are the brackets of an authority, if it has any, of both kinds and around a host? -/
def hasSoundBrackets (authority : Text) : Bool :=
  match authority.contains '[', authority.contains ']' with
  | false, false => true
  | true, true => hasBracketedHost authority
  | _, _ => false

/-- The characters beyond ASCII that are another form of a slash, a question mark, a number sign, an at sign
or a colon, or of a text with one of them. -/
def lookalikes : List Nat :=
  [0x2047, 0x2048, 0x2049, 0x2100, 0x2101, 0x2105, 0x2106, 0x2A74, 0xFE13, 0xFE16, 0xFE55, 0xFE56,
    0xFE5F, 0xFE6B, 0xFF03, 0xFF0F, 0xFF1A, 0xFF1F, 0xFF20]

/-- May the URI name a document? -/
def isUsable (uri : Text) : Bool :=
  let authority := authority uri
  hasSoundBrackets authority && !authority.any fun c => lookalikes.contains c.toNat

end DocLint.Uri
