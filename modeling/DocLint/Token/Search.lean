import DocLint.Token.Stream

/-!
# Searching a stream

A search looks for the nearest token of given kinds, or of any other kind, from a start forwards or
backwards. Forwards the end is exclusive, backwards it is inclusive. A start outside the stream finds
nothing; an end outside it is the stream's own end.
-/

namespace DocLint

/-- What a search looks for. -/
structure Query where
  /-- The kinds that are looked for. -/
  kinds : List Kind
  /-- Look for a token of none of the kinds instead. -/
  exclude : Bool := false
  /-- The content that a token must also have; it has no say if kinds are excluded. -/
  content : Option Text := none

/-- Is this token looked for? -/
def Query.accepts (query : Query) (token : Token) : Bool :=
  if query.exclude then !query.kinds.contains token.kind
  else query.kinds.contains token.kind && query.content.all (· == token.content)

/-- The least of the `count` indices from `first` on that satisfies `p`. -/
def firstIndex (p : Nat → Bool) : (first count : Nat) → Option Nat
  | _, 0 => none
  | first, count + 1 => if p first then some first else firstIndex p (first + 1) count

/-- The greatest of the indices from `low` on and below `high` that satisfies `p`. -/
def lastIndex (p : Nat → Bool) (low : Nat) : (high : Nat) → Option Nat
  | 0 => none
  | high + 1 =>
    if high < low then none else if p high then some high else lastIndex p low high

namespace Stream

/-- Is the token at an index looked for? -/
def accepts (stream : Stream) (query : Query) (index : Nat) : Bool :=
  stream[index]?.any query.accepts

/-- The nearest match at or after `start` and before `stop`. -/
def findNext (stream : Stream) (query : Query) (start : Int) (stop : Option Int := none) :
    Option Nat :=
  if start < 0 then none
  else
    let stop := min (stop.getD stream.size) stream.size
    firstIndex (stream.accepts query) start.toNat (stop - start).toNat

/-- The nearest match at or before `start` and not before `stop`. -/
def findPrevious (stream : Stream) (query : Query) (start : Int) (stop : Option Int := none) :
    Option Nat :=
  if start < 0 || stream.size ≤ start then none
  else lastIndex (stream.accepts query) (stop.getD 0).toNat (start.toNat + 1)

end Stream

end DocLint
