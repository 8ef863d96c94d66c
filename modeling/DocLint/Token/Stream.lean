import DocLint.Token.Layout
import DocLint.Token.Pairing

/-!
# Token streams

A stream is the paired tokens of a source, in order. An index into a stream may be negative and then
counts from the end; an index beyond either end finds nothing.
-/

namespace DocLint

/-- The place of an index that may count from the end of `size` things. -/
def resolveIndex? (size : Nat) (index : Int) : Option Nat :=
  if 0 ≤ index then (if index < size then some index.toNat else none)
  else if 0 ≤ index + size then some (index + size).toNat
  else none

/-- Tokens in source order. -/
abbrev Stream := Array Token

namespace Stream

/-- The paired tokens of a source, or the first fault in it. Faults of lexing come before faults of
pairing. -/
def ofSource (source : Text) : Except LexError Stream :=
  let scan := scan source
  match scan.fault with
  | some fault =>
    let pos := Pos.start.advance scan.text
    .error ⟨fault, pos.line, pos.column⟩
  | none => (pair (layout scan.pieces)).map List.toArray

/-- The token at an index that may count from the end. -/
def token? (stream : Stream) (index : Int) : Option Token :=
  (resolveIndex? stream.size index).bind (stream[·]?)

/-- The texts of the tokens from `first` on and before `last`, where both bounds may count from the end
and are then cut off at the ends of the stream. -/
def textBetween (stream : Stream) (first last : Int) : Text :=
  let bound (index : Int) : Nat := (if index < 0 then index + stream.size else index).toNat
  (stream.extract (bound first) (bound last)).toList.flatMap (·.content)

end Stream

end DocLint
