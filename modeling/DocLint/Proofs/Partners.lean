import DocLint.Proofs.Brackets

/-!
# Partners

What matching finds, pairing writes onto the tokens: each bracket carries the pair it belongs to, in
its link for parentheses or in the one for all other brackets. The two ends of a pair carry the same
link, so the links of a paired list of tokens are exactly its pairs of brackets (`partners_iff`), and
what holds of pairs holds of links.

Settling comes before matching, but it changes no bracket. So a list of tokens can be paired exactly if
its own brackets are balanced, and the fault of one that cannot be is at one of its own tokens.
-/

namespace DocLint

/-! ## Looking up a pair -/

/-- `pairs` are the pairs of brackets in `kinds`, all of them. -/
def PairsOf (kinds : List Kind) (pairs : List Pair) : Prop :=
  ∀ o c, ⟨o, c⟩ ∈ pairs ↔ Closes kinds o c

/-- Two pairs that share a bracket are one. -/
theorem Closes.eq_of_shared {kinds : List Kind} {o c o' c' i : Nat} (h : Closes kinds o c)
    (h' : Closes kinds o' c') (hi : o = i ∨ c = i) (hi' : o' = i ∨ c' = i) : o = o' ∧ c = c' := by
  rcases hi with rfl | rfl
  · rcases hi' with rfl | rfl
    · exact ⟨rfl, h.closer_unique h'⟩
    · exact absurd h'.closer h.opener.not_closesAt
  · rcases hi' with rfl | rfl
    · exact absurd h.closer h'.opener.not_closesAt
    · exact ⟨h.opener_unique h', rfl⟩

/-- Two pairs are the same, or one is before the other, or one is inside the other. -/
theorem Closes.laminar {kinds : List Kind} {o c o' c' : Nat} (h : Closes kinds o c)
    (h' : Closes kinds o' c') :
    (o = o' ∧ c = c') ∨ (c < o' ∨ c' < o) ∨ (o < o' ∧ c' < c) ∨ (o' < o ∧ c < c') := by
  by_cases hshared : o = o' ∨ o = c' ∨ c = o'
  · refine Or.inl ?_
    rcases hshared with rfl | rfl | rfl
    · exact h.eq_of_shared h' (Or.inl rfl) (Or.inl rfl)
    · exact h.eq_of_shared h' (Or.inl rfl) (Or.inr rfl)
    · exact h.eq_of_shared h' (Or.inr rfl) (Or.inl rfl)
  · rcases Nat.lt_or_ge o o' with ho | ho
    · by_cases hc : o' < c
      · exact Or.inr (Or.inr (Or.inl ⟨ho, h.nested h' ho hc⟩))
      · exact Or.inr (Or.inl (Or.inl (by omega)))
    · by_cases hc : o < c'
      · exact Or.inr (Or.inr (Or.inr ⟨by omega, h'.nested h (by omega) hc⟩))
      · exact Or.inr (Or.inl (Or.inr (by omega)))

section Lookup

variable {kinds : List Kind} {pairs : List Pair} {i o c : Nat} {pair : Pair}

theorem pairOf?_eq_some (h : PairsOf kinds pairs) :
    pairOf? pairs i = some pair ↔
      Closes kinds pair.opener pair.closer ∧ (pair.opener = i ∨ pair.closer = i) := by
  have hfound : ∀ {found : Pair}, pairOf? pairs i = some found →
      Closes kinds found.opener found.closer ∧ (found.opener = i ∨ found.closer = i) := by
    intro found hf
    refine ⟨(h _ _).1 (List.mem_of_find?_eq_some hf), ?_⟩
    have := List.find?_some hf
    simpa [Pair.has] using this
  refine ⟨hfound, ?_⟩
  rintro ⟨hc, hi⟩
  have hsome : (pairOf? pairs i).isSome = true := by
    rw [pairOf?, List.find?_isSome]
    exact ⟨pair, (h _ _).2 hc, by simpa [Pair.has] using hi⟩
  obtain ⟨found, hf⟩ := Option.isSome_iff_exists.1 hsome
  obtain ⟨hc', hi'⟩ := hfound hf
  obtain ⟨ho, hcl⟩ := hc'.eq_of_shared hc hi' hi
  rw [hf]
  cases found
  cases pair
  simp_all

theorem pairOf?_opener (h : PairsOf kinds pairs) (hc : Closes kinds o c) :
    pairOf? pairs o = some ⟨o, c⟩ :=
  (pairOf?_eq_some h).2 ⟨hc, Or.inl rfl⟩

theorem pairOf?_closer (h : PairsOf kinds pairs) (hc : Closes kinds o c) :
    pairOf? pairs c = some ⟨o, c⟩ :=
  (pairOf?_eq_some h).2 ⟨hc, Or.inr rfl⟩

end Lookup

/-! ## Links of brackets -/

/-- The link in which a bracket keeps its pair. -/
def Token.bracketLink (token : Token) : Link :=
  if token.kind == .openParen || token.kind == .closeParen then token.parens else token.brackets

/-- The brackets at `o` and `c` belong together, and both carry the link that says so. -/
structure Partners (tokens : List Token) (o c : Nat) : Prop where
  lt : o < c
  linked : ∃ opener closer, tokens[o]? = some opener ∧ tokens[c]? = some closer ∧
    opener.kind.closedBy = some closer.kind ∧ opener.bracketLink = .between o c ∧
    closer.bracketLink = .between o c

theorem Pair.link_inj {pair : Pair} {o c : Nat} : pair.link = .between o c ↔ pair = ⟨o, c⟩ := by
  cases pair
  simp only [Pair.link, Link.between, Link.mk.injEq, Option.some.injEq, Pair.mk.injEq]
  omega

theorem tied_bracketLink (token : Token) (i : Nat) (owned : Owned) (pairs bodies : List Pair) :
    (token.tied i owned pairs bodies).bracketLink =
      ((pairOf? pairs i).map (·.link)).getD {} := by
  unfold Token.bracketLink Token.tied
  by_cases h : (token.kind == .openParen || token.kind == .closeParen) = true
  · simp [h]
  · simp [h]

/-- Tying keeps the kinds. -/
theorem kindsOf_tie (pairs : List Pair) (tokens : List Token) :
    kindsOf (tie pairs tokens) = kindsOf tokens := by
  refine List.ext_getElem? fun i => ?_
  rw [kindsOf, kindsOf, List.getElem?_map, List.getElem?_map, tie_getElem?]
  cases tokens[i]? with
  | none => rfl
  | some token => rfl

/-- A token that carries a pair in its bracket link is one of the two brackets. -/
theorem bracketLink_tie {pairs : List Pair} {tokens : List Token} {i : Nat} {token : Token}
    (hi : (tie pairs tokens)[i]? = some token) :
    token.bracketLink = ((pairOf? pairs i).map (·.link)).getD {} := by
  rw [tie_getElem?] at hi
  obtain ⟨before, -, rfl⟩ := Option.map_eq_some_iff.1 hi
  exact tied_bracketLink ..

/-- What is known of paired tokens: the pairs that were matched are those of their own brackets. -/
theorem exists_pairsOf {tokens paired : List Token} (h : pair tokens = .ok paired) :
    ∃ pairs, paired = tie pairs (settle tokens) ∧ PairsOf (kindsOf paired) pairs ∧
      AllMatched (kindsOf paired) := by
  obtain ⟨pairs, hm, rfl⟩ := pair_eq_ok.1 h
  refine ⟨pairs, rfl, ?_, ?_⟩
  · rw [kindsOf_tie]
    exact mem_matchBrackets hm
  · rw [kindsOf_tie]
    exact allMatched_of_matchBrackets hm

/-- The links of brackets are the pairs of brackets. -/
theorem partners_iff {tokens paired : List Token} (h : pair tokens = .ok paired) {o c : Nat} :
    Partners paired o c ↔ Closes (kindsOf paired) o c := by
  obtain ⟨pairs, rfl, hpairs, -⟩ := exists_pairsOf h
  constructor
  · rintro ⟨-, opener, closer, ho, -, -, hlink, -⟩
    rw [bracketLink_tie ho] at hlink
    cases hp : pairOf? pairs o with
    | none =>
      rw [hp] at hlink
      simp [Link.between] at hlink
    | some pair =>
      rw [hp] at hlink
      obtain rfl : pair = ⟨o, c⟩ := Pair.link_inj.1 hlink
      exact ((pairOf?_eq_some hpairs).1 hp).1
  · intro hc
    obtain ⟨opener, closer, hko, hkc, hpart⟩ := hc.partner
    rw [kindsOf, List.getElem?_map] at hko hkc
    obtain ⟨first, ho, rfl⟩ := Option.map_eq_some_iff.1 hko
    obtain ⟨last, hl, rfl⟩ := Option.map_eq_some_iff.1 hkc
    refine ⟨hc.lt, first, last, ho, hl, hpart, ?_, ?_⟩
    · rw [bracketLink_tie ho, pairOf?_opener hpairs hc]
      rfl
    · rw [bracketLink_tie hl, pairOf?_closer hpairs hc]
      rfl

/-! ## Settling changes no bracket -/

theorem settledKind_bracket? (kind : Kind) (rest : List Token) :
    (settledKind kind rest).bracket? = kind.bracket? := by
  rcases settledKind_cases kind rest with h | ⟨rfl, h⟩ | ⟨rfl, h⟩
  · rw [h]
  · rw [h]
    rfl
  · rw [h]
    rfl

theorem settle_brackets (tokens : List Token) :
    (kindsOf (settle tokens)).map Kind.bracket? = (kindsOf tokens).map Kind.bracket? := by
  induction tokens with
  | nil => rfl
  | cons token rest ih =>
    simp only [kindsOf, settle, List.map_cons, settledKind_bracket?] at ih ⊢
    rw [ih]

theorem closes_settle {tokens : List Token} {o c : Nat} :
    Closes (kindsOf (settle tokens)) o c ↔ Closes (kindsOf tokens) o c :=
  ⟨fun h => h.congr (settle_brackets tokens), fun h => h.congr (settle_brackets tokens).symm⟩

theorem opensAt_settle {tokens : List Token} {i : Nat} (h : OpensAt (kindsOf tokens) i) :
    OpensAt (kindsOf (settle tokens)) i := by
  obtain ⟨kind, hk, hs⟩ := h
  have hb : kind.isBracket = true := by simp [Kind.isBracket, hs]
  exact ⟨kind, getElem?_bracket_congr (settle_brackets tokens).symm hb hk, hs⟩

theorem closesAt_settle {tokens : List Token} {i : Nat} (h : ClosesAt (kindsOf tokens) i) :
    ClosesAt (kindsOf (settle tokens)) i := by
  obtain ⟨kind, hk, hc⟩ := h
  have hb : kind.isBracket = true := by simp [Kind.isBracket, hc]
  exact ⟨kind, getElem?_bracket_congr (settle_brackets tokens).symm hb hk, hc⟩

/-- A bracket is the same token before and after settling. -/
theorem getElem?_of_settle {tokens : List Token} {i : Nat} {token : Token}
    (hi : (settle tokens)[i]? = some token) (hb : token.kind.isBracket = true) :
    tokens[i]? = some token := by
  rw [settle_getElem?] at hi
  obtain ⟨before, hbefore, rfl⟩ := Option.map_eq_some_iff.1 hi
  rcases settledKind_cases before.kind (tokens.drop (i + 1)) with h | ⟨-, h⟩ | ⟨-, h⟩
  · simp only [h]
    exact hbefore
  · simp only [h] at hb
    cases hb
  · simp only [h] at hb
    cases hb

/-- A fault of the settled tokens is one of the tokens themselves. -/
theorem matchFault_of_settle {tokens : List Token} {error : LexError}
    (h : MatchFault (settle tokens) error) : MatchFault tokens error := by
  rcases h with ⟨i, token, hu, rfl⟩ | ⟨i, token, hu, rfl⟩
  · have hb : token.kind.isBracket = true := by simp [Kind.isBracket, hu.isCloser]
    refine Or.inl ⟨i, token, ⟨getElem?_of_settle hu.token_at hb, hu.isCloser, fun o hc => ?_,
      fun c hlt hc => ?_⟩, rfl⟩
    · exact hu.no_opener o (closes_settle.2 hc)
    · obtain ⟨o, ho⟩ := hu.first c hlt (closesAt_settle hc)
      exact ⟨o, closes_settle.1 ho⟩
  · have hb : token.kind.isBracket = true := by simp [Kind.isBracket, hu.isOpener]
    refine Or.inr ⟨i, token, ⟨getElem?_of_settle hu.token_at hb, hu.isOpener, fun c hc => ?_,
      fun o hlt ho => ?_, fun c hc => ?_⟩, rfl⟩
    · exact hu.no_closer c (closes_settle.2 hc)
    · obtain ⟨c, hc⟩ := hu.last o hlt (opensAt_settle ho)
      exact ⟨c, closes_settle.1 hc⟩
    · obtain ⟨o, ho⟩ := hu.closed c (closesAt_settle hc)
      exact ⟨o, closes_settle.1 ho⟩

/-- Tokens can be paired exactly if their brackets are balanced. -/
theorem pair_isOk (tokens : List Token) :
    (∃ paired, pair tokens = .ok paired) ↔ Balanced (brackets (kindsOf tokens)) := by
  rw [← brackets_congr (settle_brackets tokens), ← matchBrackets_isOk]
  constructor
  · rintro ⟨paired, h⟩
    obtain ⟨pairs, hm, -⟩ := pair_eq_ok.1 h
    exact ⟨pairs, hm⟩
  · rintro ⟨pairs, hm⟩
    exact ⟨_, pair_eq_ok.2 ⟨pairs, hm, rfl⟩⟩

/-- Every bracket of paired tokens has a partner. -/
theorem exists_partners {tokens paired : List Token} (h : pair tokens = .ok paired) {i : Nat}
    {token : Token} (hi : paired[i]? = some token) (hb : token.kind.isBracket = true) :
    ∃ o c, (i = o ∨ i = c) ∧ Partners paired o c := by
  obtain ⟨-, -, -, hall⟩ := exists_pairsOf h
  have hk := kindsOf_getElem? hi
  rcases Bool.or_eq_true_iff.1 hb with hs | hc
  · obtain ⟨c, hcl⟩ := hall.opened i ⟨token.kind, hk, hs⟩
    exact ⟨i, c, Or.inl rfl, (partners_iff h).2 hcl⟩
  · obtain ⟨o, hcl⟩ := hall.closed i ⟨token.kind, hk, hc⟩
    exact ⟨o, i, Or.inr rfl, (partners_iff h).2 hcl⟩

/-- Pairing matches brackets as in balanced words.

* It succeeds exactly if the brackets are balanced.
* Then every bracket has a partner, both carry the same link, and no two pairs cross.
* While declarations look for their parameters and bodies, every opening bracket is found in the
  table of pairs.
* Otherwise the fault is at the first closing bracket that closes nothing, and if there is none, at
  the last opening bracket that is never closed. -/
theorem pair_matches_brackets (tokens : List Token) :
    ((∃ paired, pair tokens = .ok paired) ↔ Balanced (brackets (kindsOf tokens))) ∧
    (∀ paired, pair tokens = .ok paired →
      (∀ (i : Nat) (token : Token), paired[i]? = some token → token.kind.isBracket = true →
        ∃ o c, (i = o ∨ i = c) ∧ Partners paired o c) ∧
      ∀ o c o' c', Partners paired o c → Partners paired o' c' → o < o' → o' < c → c' < c) ∧
    (∀ pairs, matchBrackets (settle tokens) = .ok pairs →
      ∀ i, OpensAt (kindsOf tokens) i → ∃ c, pairOf? pairs i = some ⟨i, c⟩) ∧
    ∀ error, pair tokens = .error error → MatchFault tokens error := by
  refine ⟨pair_isOk tokens, fun paired h => ⟨fun i token hi hb => exists_partners h hi hb, ?_⟩, ?_, ?_⟩
  · intro o c o' c' hp hp' ho hc
    exact ((partners_iff h).1 hp).nested ((partners_iff h).1 hp') ho hc
  · intro pairs hm i hi
    obtain ⟨c, hc⟩ := (allMatched_of_matchBrackets hm).opened i (opensAt_settle hi)
    exact ⟨c, pairOf?_opener (mem_matchBrackets hm) hc⟩
  · intro error h
    exact matchFault_of_settle (matchFault_of_matchBrackets (pair_eq_error.1 h))

/-- An attribute with a call in it, where the parenthesis has its partner, and a parenthesis that a
square bracket cannot close. -/
theorem pair_matches_brackets_attribute :
    (∃ paired, pair (layout (scan "<?php #[a(1)]".toList).pieces) = .ok paired ∧
      ∃ o c, (4 = o ∨ 4 = c) ∧ Partners paired o c) ∧
    ∃ error, pair (layout (scan "<?php #[(]".toList).pieces) = .error error ∧
      MatchFault (layout (scan "<?php #[(]".toList).pieces) error := by
  refine ⟨?_, ?_⟩
  · obtain ⟨-, hok, -, -⟩ :=
      pair_matches_brackets (layout (scan "<?php #[a(1)]".toList).pieces)
    have hparen : (pair (layout (scan "<?php #[a(1)]".toList).pieces)).toOption.any
        (fun paired => paired[4]?.any (·.kind.isBracket)) = true := by decide +kernel
    obtain ⟨paired, h, hat⟩ := exists_eq_ok_of_any hparen
    obtain ⟨token, hi, hb⟩ := (Option.any_eq_true _ _).1 hat
    exact ⟨paired, h, (hok paired h).1 4 token hi hb⟩
  · obtain ⟨-, -, -, hfault⟩ := pair_matches_brackets (layout (scan "<?php #[(]".toList).pieces)
    have hrefused : (pair (layout (scan "<?php #[(]".toList).pieces)).isOk = false := by
      decide +kernel
    cases h : pair (layout (scan "<?php #[(]".toList).pieces) with
    | error error => exact ⟨error, rfl, hfault error h⟩
    | ok paired =>
      rw [h] at hrefused
      cases hrefused

end DocLint
