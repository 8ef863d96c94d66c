import DocLint.Finding.Check

/-!
# Returned values

Does a function body return a value? A `return` right before a semicolon returns none, and what a
closure in the body returns is the closure's. The scan goes from token to token and jumps over
closures. On a stream whose links make no sense a jump may go backwards; if the scan comes to a token
a second time it would go on for ever, and that is a fault.
-/

namespace DocLint.Stream

/-- From `index` on: is the first token that is no white space there, and no semicolon? -/
def valueFollows (stream : Stream) (index : Int) : Except Fault Bool :=
  if _h : index < stream.size then do
    let token ← stream.fetch index
    if token.kind == .gap then valueFollows stream (index + 1)
    else return token.kind != .semicolon
  else .ok false
termination_by (stream.size - index).toNat

/-- Does the `return` at an index return a value? -/
def returnsValueAt (stream : Stream) (index : Int) : Except Fault Bool :=
  stream.valueFollows (index + 1)

/-- Is there a `return` with a value from `index` on and before `stop`, closures left out? `steps`
bounds the number of tokens that are looked at. -/
def scanReturns (stream : Stream) (stop : Int) : (steps : Nat) → (index : Int) → Except Fault Bool
  | 0, index => if index < stop then .error (.endless index) else .ok false
  | steps + 1, index =>
    if index < stop then do
      let token ← stream.fetch index
      match token.kind with
      | .closure =>
        match token.scope.closer with
        | none => throw (.broken .closureWithoutBody index)
        | some closer => scanReturns stream stop steps (closer + 1)
      | .returnWord =>
        if ← stream.returnsValueAt index then return true
        else scanReturns stream stop steps (index + 1)
      | _ => scanReturns stream stop steps (index + 1)
    else .ok false

/-- Does the body of the function at an index return a value? A function without a body does not. The
stream has tokens at `2 * size` indices, so a scan of more steps has come to one of them twice. -/
def returnsValue (stream : Stream) (function : Int) : Except Fault Bool := do
  let token ← stream.fetch function
  match token.scope.opener, token.scope.closer with
  | some _, some closer =>
    match stream.findNext { kinds := [.openBrace] } function (some closer) with
    | none => throw (.broken .noOpeningBrace function)
    | some start => stream.scanReturns closer (2 * stream.size + 1) start
  | _, _ => return false

end DocLint.Stream
