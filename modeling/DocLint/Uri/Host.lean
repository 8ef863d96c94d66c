import DocLint.Text.Basic

/-!
# Hosts in brackets

A host that stands in brackets is a numeric address or an address of a later kind.

A numeric address is eight groups with colons between them, each of one to four hexadecimal digits. Two
colons may take the place of one or more groups, once, also at either end. The last two groups may be written
together, as four decimal numbers with dots between them. A zone may follow, behind a percent sign.

An address of a later kind is `v`, a version in hexadecimal digits, a dot and at least one more character.
-/

namespace DocLint.Uri

/-- Is the character a hexadecimal digit? -/
def isHexDigit (c : Char) : Bool := (Text.hexValue? c).isSome

/-- Is the text a decimal number up to 255, without a needless zero in front? -/
def isOctet (text : Text) : Bool :=
  !text.isEmpty && text.length ≤ 3 && text.all Char.isDigit && (text == ['0'] || text.head? != some '0') &&
    text.foldl (fun number c => number * 10 + (Text.hexValue? c).getD 0) 0 ≤ 255

/-- Is the text four octets with dots between them? -/
def isDotted (text : Text) : Bool :=
  let octets := Text.splitWhere (· == '.') text
  octets.length == 4 && octets.all isOctet

/-- Is the text a group of a numeric address? -/
def isGroup (text : Text) : Bool := !text.isEmpty && text.length ≤ 4 && text.all isHexDigit

/-- The parts of a text between its colons; an empty text has none. -/
def colonParts (text : Text) : List Text := if text.isEmpty then [] else Text.splitWhere (· == ':') text

/-- The number of groups that the parts stand for, the last part for two if it is dotted; `none` if some part
is not well written. -/
def groupCount? : List Text → Option Nat
  | [] => some 0
  | [last] => if isGroup last then some 1 else if isDotted last then some 2 else none
  | part :: rest => if isGroup part then (groupCount? rest).map (· + 1) else none

/-- Is the text a numeric address without a zone? -/
def isNumericAddress (text : Text) : Bool :=
  match Text.cut? [':', ':'] text with
  | none => groupCount? (colonParts text) == some 8
  | some (before, after) =>
    let groups := colonParts before
    groups.all isGroup && (groupCount? (colonParts (after.drop 2))).any (groups.length + · < 8)

/-- Is the text nothing, or a percent sign with the name of a zone behind it? -/
def isZone : Text → Bool
  | [] => true
  | _ :: name => !name.isEmpty && !name.contains '%'

/-- Is the text, which follows a `v`, the rest of an address of a later kind? -/
def isVersioned (text : Text) : Bool :=
  !(text.takeWhile isHexDigit).isEmpty &&
    match text.dropWhile isHexDigit with
    | '.' :: _ :: _ => true
    | _ => false

/-- May the text stand as a host in brackets? -/
def isBracketedHost : Text → Bool
  | 'v' :: rest => isVersioned rest
  | text => isNumericAddress (text.takeWhile (· != '%')) && isZone (text.dropWhile (· != '%'))

end DocLint.Uri
