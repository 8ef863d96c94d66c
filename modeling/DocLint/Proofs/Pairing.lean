import DocLint.Proofs.Results
import DocLint.Token.Stream

/-!
# What pairing does to each token

Pairing settles the kinds of all tokens, matches all brackets, and then ties each token to its links.
For a proof about one token this is one step: the token of the result at an index is the token there,
settled by what follows it and tied to what it owns (`tie_getElem?`). Text, place and comment links
stay as they were (`Token.Kept`), and so do the kinds of all but `function` and `fn`.
-/

namespace DocLint

/-- Where a list is read to, and what is read next. -/
theorem getElem?_of_drop {tokens rest : List Token} {index : Nat} {token : Token}
    (h : tokens.drop index = token :: rest) :
    tokens[index]? = some token ∧ tokens.drop (index + 1) = rest := by
  constructor
  · rw [← List.head?_drop, h, List.head?_cons]
  · rw [← List.tail_drop, h, List.tail_cons]

/-! ## Settling -/

theorem settle_getElem? (tokens : List Token) (i : Nat) :
    (settle tokens)[i]? = tokens[i]?.map fun token =>
      { token with kind := settledKind token.kind (tokens.drop (i + 1)) } := by
  induction tokens generalizing i with
  | nil => simp [settle]
  | cons token rest ih =>
    cases i with
    | zero => simp [settle]
    | succ i => simp [settle, ih]

@[simp] theorem settle_length (tokens : List Token) : (settle tokens).length = tokens.length := by
  induction tokens with
  | nil => rfl
  | cons token rest ih => simp [settle, ih]

/-- Only `function` and `fn` are settled; every other kind stays. -/
theorem settledKind_eq {kind : Kind} (hf : kind ≠ .function) (ha : kind ≠ .arrow)
    (rest : List Token) : settledKind kind rest = kind := by
  unfold settledKind
  split
  · exact absurd rfl hf
  · exact absurd rfl ha
  · rfl

/-- A settled kind is the kind it was, or a closure or a word made from `function` or `fn`. -/
theorem settledKind_cases (kind : Kind) (rest : List Token) :
    settledKind kind rest = kind ∨ kind = .function ∧ settledKind kind rest = .closure ∨
      kind = .arrow ∧ settledKind kind rest = .word := by
  by_cases hf : kind = .function
  · subst hf
    by_cases h : opensParameters rest
    · exact Or.inr (Or.inl ⟨rfl, by simp [settledKind, h]⟩)
    · exact Or.inl (by simp [settledKind, h])
  · by_cases ha : kind = .arrow
    · subst ha
      by_cases h : opensParameters rest
      · exact Or.inl (by simp [settledKind, h])
      · exact Or.inr (Or.inr ⟨rfl, by simp [settledKind, h]⟩)
    · exact Or.inl (settledKind_eq hf ha rest)

/-! ## Tying -/

/-- What a token owns of the tokens `rest` behind it, of which the first has the index `index`. -/
def Token.ownedOf (token : Token) (pairs : List Pair) (index : Nat) (rest : List Token) : Owned :=
  if token.kind.ownsScope then
    ownedFrom pairs (token.kind == .function || token.kind == .closure) 0 index rest
  else {}

theorem ownedAll_getElem? (pairs : List Pair) (index : Nat) (tokens : List Token) (i : Nat) :
    (ownedAll pairs index tokens)[i]? = tokens[i]?.map fun token =>
      token.ownedOf pairs (index + i + 1) (tokens.drop (i + 1)) := by
  induction tokens generalizing index i with
  | nil => simp [ownedAll]
  | cons token rest ih =>
    cases i with
    | zero => simp [ownedAll, Token.ownedOf]
    | succ i =>
      have hi : index + 1 + i + 1 = index + (i + 1) + 1 := by omega
      simp [ownedAll, ih, hi]

@[simp] theorem ownedAll_length (pairs : List Pair) (index : Nat) (tokens : List Token) :
    (ownedAll pairs index tokens).length = tokens.length := by
  induction tokens generalizing index with
  | nil => rfl
  | cons token rest ih => simp [ownedAll, ih]

theorem tieFrom_getElem? {pairs bodies : List Pair} {index : Nat} {tokens : List Token}
    {owned : List Owned} (hlen : owned.length = tokens.length) (i : Nat) :
    (tieFrom pairs bodies index tokens owned)[i]? = tokens[i]?.bind fun token =>
      owned[i]?.map fun own => token.tied (index + i) own pairs bodies := by
  induction tokens generalizing index owned i with
  | nil => simp [tieFrom]
  | cons token rest ih =>
    cases owned with
    | nil => simp at hlen
    | cons own owned =>
      cases i with
      | zero => simp [tieFrom]
      | succ i =>
        have hi : index + 1 + i = index + (i + 1) := by omega
        simp only [tieFrom, List.getElem?_cons_succ]
        rw [ih (by simpa using hlen), hi]

theorem tieFrom_length (pairs bodies : List Pair) (index : Nat) (tokens : List Token)
    (owned : List Owned) : (tieFrom pairs bodies index tokens owned).length = tokens.length := by
  induction tokens generalizing index owned with
  | nil => simp [tieFrom]
  | cons token rest ih =>
    cases owned with
    | nil => simp [tieFrom]
    | cons own owned => simp [tieFrom, ih]

/-- The pairs of braces that are bodies of declarations. -/
def bodies (pairs : List Pair) (tokens : List Token) : List Pair :=
  (ownedAll pairs 0 tokens).filterMap (·.body)

/-- Settled tokens with all their links, given the matched brackets. -/
def tie (pairs : List Pair) (tokens : List Token) : List Token :=
  tieFrom pairs (bodies pairs tokens) 0 tokens (ownedAll pairs 0 tokens)

/-- One token of the result. -/
theorem tie_getElem? (pairs : List Pair) (tokens : List Token) (i : Nat) :
    (tie pairs tokens)[i]? = tokens[i]?.map fun token =>
      token.tied i (token.ownedOf pairs (i + 1) (tokens.drop (i + 1))) pairs
        (bodies pairs tokens) := by
  rw [tie, tieFrom_getElem? (by simp), ownedAll_getElem?]
  cases tokens[i]? with
  | none => rfl
  | some token => simp

/-- A body is the body of some token. -/
theorem mem_bodies {pairs : List Pair} {tokens : List Token} {body : Pair} :
    body ∈ bodies pairs tokens ↔ ∃ (i : Nat) (token : Token), tokens[i]? = some token ∧
      (token.ownedOf pairs (i + 1) (tokens.drop (i + 1))).body = some body := by
  constructor
  · intro h
    obtain ⟨owned, hmem, hbody⟩ := List.mem_filterMap.1 h
    obtain ⟨i, hi⟩ := List.mem_iff_getElem?.1 hmem
    rw [ownedAll_getElem?] at hi
    obtain ⟨token, ht, rfl⟩ := Option.map_eq_some_iff.1 hi
    exact ⟨i, token, ht, by simpa using hbody⟩
  · rintro ⟨i, token, ht, hbody⟩
    refine List.mem_filterMap.2 ⟨_, List.mem_iff_getElem?.2 ⟨i, ?_⟩, hbody⟩
    rw [ownedAll_getElem?, ht]
    simp

/-! ## The whole pass -/

theorem pair_eq (tokens : List Token) :
    pair tokens =
      (matchBrackets (settle tokens)).map fun pairs => tie pairs (settle tokens) := by
  unfold pair
  cases h : matchBrackets (settle tokens) with
  | error error => simp only [h]; rfl
  | ok pairs => simp only [h]; rfl

/-- Pairing succeeds exactly if all brackets match, and then it ties the settled tokens. -/
theorem pair_eq_ok {tokens paired : List Token} :
    pair tokens = .ok paired ↔
      ∃ pairs, matchBrackets (settle tokens) = .ok pairs ∧ paired = tie pairs (settle tokens) := by
  rw [pair_eq]
  cases matchBrackets (settle tokens) with
  | error error => simp [Except.map]
  | ok pairs => simp [Except.map, eq_comm]

/-- Pairing fails exactly with the fault of matching. -/
theorem pair_eq_error {tokens : List Token} {error : LexError} :
    pair tokens = .error error ↔ matchBrackets (settle tokens) = .error error := by
  rw [pair_eq]
  cases matchBrackets (settle tokens) with
  | error error => simp [Except.map]
  | ok pairs => simp [Except.map]

/-- What pairing keeps of a token: everything but the kind and the links to brackets and bodies. -/
structure Token.Kept (before after : Token) : Prop where
  content : after.content = before.content
  line : after.line = before.line
  column : after.column = before.column
  comment : after.comment = before.comment
  tags : after.tags = before.tags

/-- Every token of the result is the token at its index, with its kind settled. -/
theorem pair_getElem? {tokens paired : List Token} (h : pair tokens = .ok paired) {i : Nat}
    {after : Token} (hi : paired[i]? = some after) :
    ∃ before, tokens[i]? = some before ∧ before.Kept after ∧
      after.kind = settledKind before.kind (tokens.drop (i + 1)) := by
  obtain ⟨pairs, -, rfl⟩ := pair_eq_ok.1 h
  rw [tie_getElem?, settle_getElem?] at hi
  obtain ⟨settled, hs, rfl⟩ := Option.map_eq_some_iff.1 hi
  obtain ⟨before, hb, rfl⟩ := Option.map_eq_some_iff.1 hs
  exact ⟨before, hb, ⟨rfl, rfl, rfl, rfl, rfl⟩, rfl⟩

theorem pair_length {tokens paired : List Token} (h : pair tokens = .ok paired) :
    paired.length = tokens.length := by
  obtain ⟨pairs, -, rfl⟩ := pair_eq_ok.1 h
  simp [tie, tieFrom_length]

/-- Every token has its place in the result. -/
theorem exists_pair_getElem? {tokens paired : List Token} (h : pair tokens = .ok paired) {i : Nat}
    {before : Token} (hi : tokens[i]? = some before) :
    ∃ after, paired[i]? = some after ∧ before.Kept after ∧
      after.kind = settledKind before.kind (tokens.drop (i + 1)) := by
  obtain ⟨hlt, -⟩ := List.getElem?_eq_some_iff.1 hi
  rw [← pair_length h] at hlt
  obtain ⟨before', hb, hrest⟩ := pair_getElem? h (List.getElem?_eq_getElem hlt)
  obtain rfl : before = before' := Option.some.inj (hi.symm.trans hb)
  exact ⟨_, List.getElem?_eq_getElem hlt, hrest⟩

/-- A source has a stream exactly if lexing ends without a fault and its tokens can be paired. -/
theorem Stream.ofSource_eq_ok {source : Text} {stream : Stream} :
    Stream.ofSource source = .ok stream ↔ (scan source).fault = none ∧
      pair (layout (scan source).pieces) = .ok stream.toList := by
  unfold Stream.ofSource
  cases hf : (scan source).fault with
  | some fault => simp [hf]
  | none =>
    cases hp : pair (layout (scan source).pieces) with
    | error error => simp [hf, hp, Except.map]
    | ok paired =>
      simp only [hf, hp, Except.map, Except.ok.injEq, true_and]
      exact ⟨fun h => by rw [← h], fun h => by rw [h]⟩

end DocLint
