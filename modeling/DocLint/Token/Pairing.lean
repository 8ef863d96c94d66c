import DocLint.Lexeme.Fault
import DocLint.Token.Basic

/-!
# Pairing

After layout, the tokens of a source are tied together.

* A `function` right before a parameter list is a closure, and an `fn` that is not before one is a
  plain word (`settle`).
* Brackets are matched with a stack; a bracket without a partner is a fault (`matchBrackets`).
* A declaration owns the first brace after it that stands outside parentheses, unless a statement or
  a block ends before; a function also owns the first parentheses on that way (`ownedFrom`).
-/

namespace DocLint

/-- A fault at the start of a token. -/
def Token.error (token : Token) (fault : LexFault) : LexError := ⟨fault, token.line, token.column⟩

/-! ## Functions with and without a name -/

/-- The tokens from the first one that is not silent on. -/
def heard (tokens : List Token) : List Token := tokens.dropWhile (·.kind.isSilent)

/-- Does a parameter list follow, perhaps after an ampersand? -/
def opensParameters (tokens : List Token) : Bool :=
  match heard tokens with
  | [] => false
  | token :: rest =>
    if token.kind == .ampersand then (heard rest).head?.any (·.kind == .openParen)
    else token.kind == .openParen

/-- The kind of a token before `rest`. -/
def settledKind (kind : Kind) (rest : List Token) : Kind :=
  match kind with
  | .function => if opensParameters rest then .closure else .function
  | .arrow => if opensParameters rest then .arrow else .word
  | kind => kind

/-- Tokens with their kinds settled by what follows them. -/
def settle : List Token → List Token
  | [] => []
  | token :: rest => { token with kind := settledKind token.kind rest } :: settle rest

/-! ## Brackets -/

/-- A pair of indices: where something opens and where it closes. -/
structure Pair where
  /-- The index of the opening token. -/
  opener : Nat
  /-- The index of the closing token. -/
  closer : Nat
  deriving DecidableEq

/-- The link that a pair stands for. -/
def Pair.link (pair : Pair) : Link := .between pair.opener pair.closer

/-- Is the index one of the two? -/
def Pair.has (pair : Pair) (index : Nat) : Bool := pair.opener == index || pair.closer == index

/-- Matches the brackets of tokens of which the first has the index `index`. The stack holds the
brackets that are open, the innermost first. The pairs come in the order in which they close. -/
def matchFrom : (index : Nat) → (stack : List (Nat × Token)) → List Token →
    Except LexError (List Pair)
  | _, [], [] => .ok []
  | _, (_, last) :: _, [] => .error (last.error (.unclosed last.content))
  | index, stack, token :: rest =>
    if token.kind.closedBy.isSome then matchFrom (index + 1) ((index, token) :: stack) rest
    else if token.kind.isCloser then
      match stack with
      | [] => .error (token.error (.unmatched token.content))
      | (opener, last) :: stack =>
        if last.kind.closedBy = some token.kind then
          (matchFrom (index + 1) stack rest).map (⟨opener, index⟩ :: ·)
        else .error (token.error (.unmatched token.content))
    else matchFrom (index + 1) stack rest

/-- The pairs of brackets, or the first bracket that has no partner. -/
def matchBrackets (tokens : List Token) : Except LexError (List Pair) := matchFrom 0 [] tokens

/-- The pair of an index. -/
def pairOf? (pairs : List Pair) (index : Nat) : Option Pair := pairs.find? (·.has index)

/-! ## What a declaration owns -/

/-- The parameter list and the body of a declaration. -/
structure Owned where
  /-- The parentheses of the parameters. -/
  parameters : Option Pair := none
  /-- The braces of the body. -/
  body : Option Pair := none

/-- What a declaration owns of the tokens that follow it, of which the first has the index `index`.
Tokens before the index `resume` are passed over; parameters are taken only if they are wanted. -/
def ownedFrom (pairs : List Pair) : (wanted : Bool) → (resume index : Nat) → List Token → Owned
  | _, _, _, [] => {}
  | wanted, resume, index, token :: rest =>
    if index < resume then ownedFrom pairs wanted resume (index + 1) rest
    else match token.kind with
      | .openParen =>
        match pairOf? pairs index with
        | none => ownedFrom pairs wanted resume (index + 1) rest
        | some pair =>
          let owned := ownedFrom pairs false (pair.closer + 1) (index + 1) rest
          if wanted then { owned with parameters := some pair } else owned
      | .openBrace => { body := pairOf? pairs index }
      | .semicolon | .closeBrace => {}
      | _ => ownedFrom pairs wanted resume (index + 1) rest

/-- What each token owns, for tokens of which the first has the index `index`. -/
def ownedAll (pairs : List Pair) : (index : Nat) → List Token → List Owned
  | _, [] => []
  | index, token :: rest =>
    let owned :=
      if token.kind.ownsScope then
        let wanted := token.kind == .function || token.kind == .closure
        ownedFrom pairs wanted 0 (index + 1) rest
      else {}
    owned :: ownedAll pairs (index + 1) rest

/-! ## Links -/

/-- A token with all its links: `pairs` are the matched brackets, `bodies` those that are bodies, and
`owned` is what the token owns. -/
def Token.tied (token : Token) (index : Nat) (owned : Owned) (pairs bodies : List Pair) : Token :=
  let bracket := pairOf? pairs index
  let isParen := token.kind == .openParen || token.kind == .closeParen
  let parens := if isParen then bracket else owned.parameters
  let brackets := if isParen then none else bracket
  let scope := if token.kind.ownsScope then owned.body else pairOf? bodies index
  { token with
    parens := (parens.map (·.link)).getD {}
    brackets := (brackets.map (·.link)).getD {}
    scope := (scope.map (·.link)).getD {} }

/-- Ties each token to what it owns, for tokens of which the first has the index `index`. -/
def tieFrom (pairs bodies : List Pair) : (index : Nat) → List Token → List Owned → List Token
  | index, token :: tokens, owned :: rest =>
    token.tied index owned pairs bodies :: tieFrom pairs bodies (index + 1) tokens rest
  | _, tokens, _ => tokens

/-- Tokens with settled kinds and with all links, or the first bracket that has no partner. -/
def pair (tokens : List Token) : Except LexError (List Token) := do
  let tokens := settle tokens
  let pairs ← matchBrackets tokens
  let owned := ownedAll pairs 0 tokens
  return tieFrom pairs (owned.filterMap (·.body)) 0 tokens owned

end DocLint
