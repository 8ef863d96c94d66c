import DocLint.Proofs.FramedText
import DocLint.Proofs.Partners

/-!
# Pairing appended tokens

Tokens that end with the end of a statement (`Ended`) are paired in the same way if more tokens follow. A
search for a parameter list or a body stops at that end; brackets that match leave none open; and no pair of
the tokens that follow reaches back.
-/

namespace DocLint

/-- The last token ends a statement. -/
def Ended (tokens : List Token) : Prop :=
  ∃ last, tokens.getLast? = some last ∧ last.kind.endsStatement = true

namespace Ended

variable {token : Token} {tokens rest : List Token}

theorem ne_nil (h : Ended tokens) : tokens ≠ [] := by
  rintro rfl
  obtain ⟨last, hlast, -⟩ := h
  cases hlast

theorem of_cons (h : Ended (token :: rest)) :
    rest = [] ∧ token.kind.endsStatement = true ∨ Ended rest := by
  obtain ⟨last, hlast, hk⟩ := h
  cases rest with
  | nil =>
    obtain rfl : token = last := Option.some.inj hlast
    exact Or.inl ⟨rfl, hk⟩
  | cons next rest =>
    rw [List.getLast?_cons_cons] at hlast
    exact Or.inr ⟨last, hlast, hk⟩

theorem tail (h : Ended (token :: rest)) (hk : token.kind.endsStatement = false) : Ended rest := by
  rcases h.of_cons with ⟨-, hend⟩ | hrest
  · rw [hk] at hend
    cases hend
  · exact hrest

theorem cons (token : Token) (h : Ended rest) : Ended (token :: rest) := by
  obtain ⟨last, hlast, hk⟩ := h
  refine ⟨last, ?_, hk⟩
  cases rest with
  | nil => cases hlast
  | cons next rest => rwa [List.getLast?_cons_cons]

end Ended

variable {tokens rest more : List Token}

/-! ## Settling -/

theorem heard_silent {token : Token} (h : token.kind.isSilent = true) (rest : List Token) :
    heard (token :: rest) = heard rest := by
  rw [heard, heard, List.dropWhile_cons, if_pos h]

theorem heard_cons {token : Token} (h : ¬ token.kind.isSilent = true) (rest : List Token) :
    heard (token :: rest) = token :: rest := by
  rw [heard, List.dropWhile_cons, if_neg h]

/-- The end of a statement is heard. -/
theorem Ended.heard_append (h : Ended tokens) (more : List Token) :
    heard (tokens ++ more) = heard tokens ++ more ∧ Ended (heard tokens) := by
  induction tokens with
  | nil => exact absurd rfl h.ne_nil
  | cons token rest ih =>
    rw [List.cons_append]
    by_cases hsilent : token.kind.isSilent = true
    · have hend : ∀ kind : Kind, kind.isSilent = true → kind.endsStatement = false := by
        intro kind
        cases kind <;> decide
      rw [heard_silent hsilent, heard_silent hsilent]
      exact ih (h.tail (hend _ hsilent))
    · rw [heard_cons hsilent, heard_cons hsilent]
      exact ⟨rfl, h⟩

theorem Ended.opensParameters_append (h : Ended tokens) :
    opensParameters (tokens ++ more) = opensParameters tokens := by
  obtain ⟨hheard, hended⟩ := h.heard_append more
  rw [opensParameters, opensParameters, hheard]
  cases hfirst : heard tokens with
  | nil => exact absurd hfirst hended.ne_nil
  | cons token rest =>
    rw [hfirst] at hended
    by_cases hamp : token.kind = .ampersand
    · have hrest := hended.tail (by rw [hamp]; rfl)
      obtain ⟨hheard', hended'⟩ := hrest.heard_append more
      simp only [List.cons_append, hamp, hheard']
      cases hnext : heard rest with
      | nil => exact absurd hnext hended'.ne_nil
      | cons next rest => rfl
    · have hbeq : (token.kind == .ampersand) = false := by simpa using hamp
      simp only [List.cons_append, hbeq]
      rfl

theorem Ended.settledKind_append {token : Token} (h : Ended (token :: rest)) :
    settledKind token.kind (rest ++ more) = settledKind token.kind rest := by
  rcases h.of_cons with ⟨-, hend⟩ | hrest
  · have hf : token.kind ≠ .function := fun hk => by rw [hk] at hend; cases hend
    have ha : token.kind ≠ .arrow := fun hk => by rw [hk] at hend; cases hend
    rw [settledKind_eq hf ha, settledKind_eq hf ha]
  · unfold settledKind
    rw [hrest.opensParameters_append]

theorem Ended.settle_append (h : Ended tokens) : settle (tokens ++ more) = settle tokens ++ settle more := by
  induction tokens with
  | nil => exact absurd rfl h.ne_nil
  | cons token rest ih =>
    rw [List.cons_append, settle, settle, List.cons_append, h.settledKind_append]
    rcases h.of_cons with ⟨rfl, -⟩ | hrest
    · rfl
    · rw [ih hrest]

theorem Ended.settled (h : Ended tokens) : Ended (settle tokens) := by
  induction tokens with
  | nil => exact absurd rfl h.ne_nil
  | cons token rest ih =>
    rw [settle]
    rcases h.of_cons with ⟨rfl, hend⟩ | hrest
    · refine ⟨_, rfl, ?_⟩
      have hf : token.kind ≠ .function := fun hk => by rw [hk] at hend; cases hend
      have ha : token.kind ≠ .arrow := fun hk => by rw [hk] at hend; cases hend
      exact (congrArg Kind.endsStatement (settledKind_eq hf ha [])).trans hend
    · exact (ih hrest).cons _

/-! ## Brackets -/

/-- What one token does in a match: it changes the brackets that are open, or closes the last of them. Either
way it does so whatever follows it. -/
theorem matchFrom_cons_eq_ok {index : Nat} {stack : List (Nat × Token)} {token : Token} {pairs : List Pair}
    (h : matchFrom index stack (token :: rest) = .ok pairs) :
    (∃ next, (next = (index, token) :: stack ∨ next = stack) ∧
      (∀ tail, matchFrom index stack (token :: tail) = matchFrom (index + 1) next tail) ∧
      matchFrom (index + 1) next rest = .ok pairs) ∨
    ∃ entry next later, stack = entry :: next ∧
      (∀ tail, matchFrom index stack (token :: tail) =
        (matchFrom (index + 1) next tail).map (⟨entry.1, index⟩ :: ·)) ∧
      matchFrom (index + 1) next rest = .ok later ∧ pairs = ⟨entry.1, index⟩ :: later := by
  by_cases hopener : token.kind.closedBy.isSome = true
  · have hstep : ∀ tail, matchFrom index stack (token :: tail) =
        matchFrom (index + 1) ((index, token) :: stack) tail := by
      intro tail
      rw [matchFrom_cons, if_pos hopener]
    exact Or.inl ⟨_, Or.inl rfl, hstep, by rw [← hstep, h]⟩
  · by_cases hcloser : token.kind.isCloser = true
    · rw [matchFrom_cons, if_neg hopener, if_pos hcloser] at h
      cases stack with
      | nil => cases h
      | cons entry next =>
        by_cases hpartner : entry.2.kind.closedBy = some token.kind
        · have hstep : ∀ tail, matchFrom index (entry :: next) (token :: tail) =
              (matchFrom (index + 1) next tail).map (⟨entry.1, index⟩ :: ·) := by
            intro tail
            rw [matchFrom_cons, if_neg hopener, if_pos hcloser]
            exact if_pos hpartner
          replace h : (matchFrom (index + 1) next rest).map (⟨entry.1, index⟩ :: ·) = .ok pairs :=
            (if_pos hpartner).symm.trans h
          cases hlater : matchFrom (index + 1) next rest with
          | error error =>
            rw [hlater] at h
            cases h
          | ok later =>
            rw [hlater] at h
            exact Or.inr ⟨entry, next, later, rfl, hstep, hlater, (Except.ok.inj h).symm⟩
        · cases (if_neg hpartner).symm.trans h
    · have hstep : ∀ tail, matchFrom index stack (token :: tail) = matchFrom (index + 1) stack tail := by
        intro tail
        rw [matchFrom_cons, if_neg hopener, if_neg hcloser]
      exact Or.inl ⟨_, Or.inr rfl, hstep, by rw [← hstep, h]⟩

/-- At the end of the tokens no bracket is open. -/
theorem matchFrom_nil_eq_ok {index : Nat} {stack : List (Nat × Token)} {pairs : List Pair}
    (h : matchFrom index stack [] = .ok pairs) : stack = [] ∧ pairs = [] := by
  cases stack with
  | nil => exact ⟨rfl, (Except.ok.inj h).symm⟩
  | cons entry stack => cases h

/-- Tokens that leave no bracket open are matched by themselves. -/
theorem matchFrom_append {index : Nat} {stack : List (Nat × Token)} {pairs : List Pair}
    (h : matchFrom index stack tokens = .ok pairs) :
    matchFrom index stack (tokens ++ more) =
      (matchFrom (index + tokens.length) [] more).map (pairs ++ ·) := by
  induction tokens generalizing index stack pairs with
  | nil =>
    obtain ⟨rfl, rfl⟩ := matchFrom_nil_eq_ok h
    rw [List.nil_append, List.length_nil, Nat.add_zero]
    cases matchFrom index [] more with
    | error error => rfl
    | ok found => rfl
  | cons token rest ih =>
    have hlength : index + (token :: rest).length = index + 1 + rest.length := by
      rw [List.length_cons]
      omega
    rw [List.cons_append, hlength]
    rcases matchFrom_cons_eq_ok h with ⟨next, -, hstep, hrest⟩ | ⟨entry, next, later, -, hstep, hrest, rfl⟩
    · rw [hstep, ih hrest]
    · rw [hstep, ih hrest]
      cases matchFrom (index + 1 + rest.length) [] more with
      | error error => rfl
      | ok found => rfl

/-- A pair does not reach back before the brackets that are open. -/
theorem matchFrom_le {first index : Nat} {stack : List (Nat × Token)} {pairs : List Pair}
    (h : matchFrom index stack tokens = .ok pairs) (hfirst : first ≤ index)
    (hstack : ∀ entry ∈ stack, first ≤ entry.1) :
    ∀ pair ∈ pairs, first ≤ pair.opener ∧ first ≤ pair.closer := by
  induction tokens generalizing index stack pairs with
  | nil =>
    obtain ⟨-, rfl⟩ := matchFrom_nil_eq_ok h
    intro pair hm
    cases hm
  | cons token rest ih =>
    rcases matchFrom_cons_eq_ok h with ⟨next, hnext, -, hrest⟩ | ⟨entry, next, later, rfl, -, hrest, rfl⟩
    · refine ih hrest (by omega) ?_
      rcases hnext with rfl | rfl
      · intro entry hm
        rcases List.mem_cons.1 hm with rfl | hm
        · exact hfirst
        · exact hstack entry hm
      · exact hstack
    · intro pair hm
      rcases List.mem_cons.1 hm with rfl | hm
      · exact ⟨hstack entry List.mem_cons_self, hfirst⟩
      · exact ih hrest (by omega) (fun entry hm => hstack entry (List.mem_cons_of_mem _ hm)) pair hm

/-- The pairs of tokens that more tokens follow: those of the tokens, and others behind them. -/
structure Extends (count : Nat) (pairs all : List Pair) : Prop where
  split : ∃ later, all = pairs ++ later ∧ ∀ pair ∈ later, count ≤ pair.opener ∧ count ≤ pair.closer
  inside : ∀ pair ∈ pairs, pair.opener < count ∧ pair.closer < count

theorem matchBrackets_append {pairs all : List Pair} (h : matchBrackets tokens = .ok pairs)
    (hall : matchBrackets (tokens ++ more) = .ok all) : Extends tokens.length pairs all := by
  constructor
  · rw [matchBrackets, matchFrom_append h, Nat.zero_add] at hall
    cases hlater : matchFrom tokens.length [] more with
    | error error =>
      rw [hlater] at hall
      cases hall
    | ok later =>
      rw [hlater] at hall
      obtain rfl := Except.ok.inj hall
      exact ⟨later, rfl, matchFrom_le hlater (Nat.le_refl _) fun entry hm => absurd hm List.not_mem_nil⟩
  · intro pair hm
    have hc : Closes (kindsOf tokens) pair.opener pair.closer := (mem_matchBrackets h _ _).1 hm
    have hlt := hc.closer.lt_length
    rw [kindsOf_length] at hlt
    exact ⟨Nat.lt_trans hc.lt hlt, hlt⟩

namespace Extends

variable {count : Nat} {pairs all : List Pair}

/-- An index among the tokens has the pair that it has without more tokens. -/
theorem pairOf?_before (h : Extends count pairs all) {i : Nat} (hi : i < count) :
    pairOf? all i = pairOf? pairs i := by
  obtain ⟨later, rfl, hlater⟩ := h.split
  have hnone : pairOf? later i = none := by
    rw [pairOf?, List.find?_eq_none]
    intro pair hm hhas
    have hbound := hlater pair hm
    have hor : pair.opener = i ∨ pair.closer = i := by simpa [Pair.has] using hhas
    omega
  rw [pairOf?, List.find?_append, ← pairOf?, ← pairOf?, hnone, Option.or_none]

/-- The pair of an index behind the tokens is behind them. -/
theorem le_of_pairOf? (h : Extends count pairs all) {i : Nat} (hi : count ≤ i) {pair : Pair}
    (hp : pairOf? all i = some pair) : count ≤ pair.opener ∧ count ≤ pair.closer := by
  obtain ⟨later, rfl, hlater⟩ := h.split
  have hhas := List.find?_some hp
  have hor : pair.opener = i ∨ pair.closer = i := by simpa [Pair.has] using hhas
  rcases List.mem_append.1 (List.mem_of_find?_eq_some hp) with hm | hm
  · have := h.inside pair hm
    omega
  · exact hlater pair hm

end Extends

/-! ## Bodies and parameter lists -/

/-- What closes a parenthesis does not end a statement. -/
theorem Ended.closer_lt (h : Ended tokens) {o c : Nat} (hc : Closes (kindsOf tokens) o c)
    (ho : (kindsOf tokens)[o]? = some .openParen) : c + 1 < tokens.length := by
  have hlt := hc.closer.lt_length
  rw [kindsOf_length] at hlt
  by_contra hnot
  obtain rfl : c = tokens.length - 1 := by omega
  obtain ⟨last, hlast, hend⟩ := h
  rw [List.getLast?_eq_getElem?] at hlast
  obtain ⟨opener, closer, hopener, hcloser, hpartner⟩ := hc.partner
  obtain rfl := Option.some.inj (ho.symm.trans hopener)
  obtain rfl := Option.some.inj ((kindsOf_getElem? hlast).symm.trans hcloser)
  obtain hk : last.kind = .closeParen := (Option.some.inj hpartner).symm
  rw [hk] at hend
  cases hend

/-- The search for what a declaration owns does not get beyond the end of a statement. -/
theorem ownedFrom_append {pairs all : List Pair} {wanted : Bool} {resume index : Nat}
    (hpairs : PairsOf (kindsOf tokens) pairs) (hall : Extends tokens.length pairs all)
    (htokens : Ended tokens) (hended : Ended rest) (hrest : tokens.drop index = rest)
    (hresume : resume < tokens.length) :
    ownedFrom all wanted resume index (rest ++ more) = ownedFrom pairs wanted resume index rest := by
  induction rest generalizing wanted resume index with
  | nil => exact absurd rfl hended.ne_nil
  | cons token rest ih =>
    obtain ⟨ht, htail⟩ := getElem?_of_drop hrest
    have hlt : index < tokens.length := (List.getElem?_eq_some_iff.1 ht).1
    rw [List.cons_append, ownedFrom, ownedFrom, hall.pairOf?_before hlt]
    by_cases hskip : index < resume
    · rw [if_pos hskip, if_pos hskip]
      have hne : rest ≠ [] := by
        rintro rfl
        have hend := List.drop_eq_nil_iff.1 htail
        omega
      rcases hended.of_cons with ⟨hnil, -⟩ | hlater
      · exact absurd hnil hne
      · exact ih hlater htail hresume
    · rw [if_neg hskip, if_neg hskip]
      by_cases hend : token.kind.endsStatement = true
      · rcases (by simpa [Kind.endsStatement] using hend : token.kind = .semicolon ∨ token.kind = .closeBrace)
          with hk | hk
        · simp only [hk]
        · simp only [hk]
      · have hkind := kindsOf_getElem? ht
        have hlater := hended.tail (by simpa using hend)
        split
        · next hk =>
          cases hp : pairOf? pairs index with
          | none => exact ih hlater htail hresume
          | some pair =>
            rw [hk] at hkind
            obtain ⟨hc, heq | heq⟩ := (pairOf?_eq_some hpairs).1 hp
            · have hcloser := htokens.closer_lt hc (by rw [heq]; exact hkind)
              dsimp only
              rw [ih hlater htail hcloser]
            · have hopens : OpensAt (kindsOf tokens) index := (opensAt_iff hkind).2 rfl
              exact absurd (heq ▸ hc.closer) hopens.not_closesAt
        · rfl
        · rfl
        · rfl
        · exact ih hlater htail hresume

theorem ownedOf_append {pairs all : List Pair} {index : Nat} {token : Token}
    (hpairs : PairsOf (kindsOf tokens) pairs) (hall : Extends tokens.length pairs all)
    (htokens : Ended tokens) (hended : Ended (token :: rest)) (hrest : tokens.drop index = token :: rest) :
    token.ownedOf all (index + 1) (rest ++ more) = token.ownedOf pairs (index + 1) rest := by
  rw [Token.ownedOf, Token.ownedOf]
  by_cases howns : token.kind.ownsScope = true
  · have hkinds : ∀ kind : Kind, kind.ownsScope = true → kind.endsStatement = false := by
      intro kind
      cases kind <;> decide
    rw [if_pos howns, if_pos howns]
    exact ownedFrom_append hpairs hall htokens (hended.tail (hkinds _ howns)) (getElem?_of_drop hrest).2
      (List.length_pos_iff.2 htokens.ne_nil)
  · rw [if_neg howns, if_neg howns]

theorem ownedAll_cons (pairs : List Pair) (index : Nat) (token : Token) (rest : List Token) :
    ownedAll pairs index (token :: rest) =
      token.ownedOf pairs (index + 1) rest :: ownedAll pairs (index + 1) rest := rfl

theorem ownedAll_append {pairs all : List Pair} {index : Nat}
    (hpairs : PairsOf (kindsOf tokens) pairs) (hall : Extends tokens.length pairs all)
    (htokens : Ended tokens) (hended : Ended rest) (hrest : tokens.drop index = rest) :
    ownedAll all index (rest ++ more) =
      ownedAll pairs index rest ++ ownedAll all (index + rest.length) more := by
  induction rest generalizing index with
  | nil => exact absurd rfl hended.ne_nil
  | cons token rest ih =>
    rw [List.cons_append, ownedAll_cons, ownedAll_cons, List.cons_append,
      ownedOf_append hpairs hall htokens hended hrest]
    rcases hended.of_cons with ⟨rfl, -⟩ | hlater
    · rfl
    · rw [ih hlater (getElem?_of_drop hrest).2, List.length_cons, Nat.add_assoc, Nat.add_comm 1]

/-- A body that is found is the pair of an index that is looked at. -/
theorem ownedFrom_body {pairs : List Pair} {wanted : Bool} {resume index : Nat} {body : Pair}
    (h : (ownedFrom pairs wanted resume index tokens).body = some body) :
    ∃ i, index ≤ i ∧ pairOf? pairs i = some body := by
  induction tokens generalizing wanted resume index with
  | nil => cases h
  | cons token rest ih =>
    have hlater : (∃ i, index + 1 ≤ i ∧ pairOf? pairs i = some body) →
        ∃ i, index ≤ i ∧ pairOf? pairs i = some body := by
      rintro ⟨i, hi, hp⟩
      exact ⟨i, by omega, hp⟩
    rw [ownedFrom] at h
    split at h
    · exact hlater (ih h)
    · split at h
      · split at h
        · exact hlater (ih h)
        · next pair hp =>
          cases wanted with
          | true => exact hlater (ih h)
          | false => exact hlater (ih h)
      · exact ⟨index, Nat.le_refl _, h⟩
      · cases h
      · cases h
      · exact hlater (ih h)

theorem ownedAll_body {pairs : List Pair} {index : Nat} {body : Pair}
    (h : body ∈ (ownedAll pairs index tokens).filterMap (·.body)) :
    ∃ i, index ≤ i ∧ pairOf? pairs i = some body := by
  obtain ⟨owned, hm, hbody⟩ := List.mem_filterMap.1 h
  obtain ⟨j, hj⟩ := List.mem_iff_getElem?.1 hm
  rw [ownedAll_getElem?] at hj
  obtain ⟨token, -, rfl⟩ := Option.map_eq_some_iff.1 hj
  rw [Token.ownedOf] at hbody
  split at hbody
  · obtain ⟨i, hi, hp⟩ := ownedFrom_body hbody
    exact ⟨i, by omega, hp⟩
  · cases hbody

/-- The bodies of the tokens stay, and those of the tokens that follow are behind them. -/
theorem bodies_append {pairs all : List Pair} (hpairs : PairsOf (kindsOf tokens) pairs)
    (hall : Extends tokens.length pairs all) (h : Ended tokens) :
    Extends tokens.length (bodies pairs tokens) (bodies all (tokens ++ more)) := by
  constructor
  · rw [bodies, ownedAll_append hpairs hall h h List.drop_zero, List.filterMap_append, ← bodies]
    refine ⟨_, rfl, fun pair hm => ?_⟩
    obtain ⟨i, hi, hp⟩ := ownedAll_body hm
    exact hall.le_of_pairOf? (by omega) hp
  · intro pair hm
    obtain ⟨i, -, hp⟩ := ownedAll_body hm
    exact hall.inside pair (List.mem_of_find?_eq_some hp)

/-! ## The whole pass -/

theorem tied_congr {pairs all bodies allBodies : List Pair} {i : Nat} (token : Token) (owned : Owned)
    (hpair : pairOf? all i = pairOf? pairs i) (hbody : pairOf? allBodies i = pairOf? bodies i) :
    token.tied i owned all allBodies = token.tied i owned pairs bodies := by
  rw [Token.tied, Token.tied, hpair, hbody]

theorem tie_append {pairs all : List Pair} (hpairs : PairsOf (kindsOf tokens) pairs)
    (hall : Extends tokens.length pairs all) (h : Ended tokens) {i : Nat} (hi : i < tokens.length) :
    (tie all (tokens ++ more))[i]? = (tie pairs tokens)[i]? := by
  have hdrop : tokens.drop i = tokens[i] :: tokens.drop (i + 1) := List.drop_eq_getElem_cons hi
  have hended : Ended (tokens[i] :: tokens.drop (i + 1)) := by
    obtain ⟨last, hlast, hk⟩ := h
    refine ⟨last, ?_, hk⟩
    rw [← hdrop, List.getLast?_drop, if_neg (by omega), hlast]
  have hbodies : Extends tokens.length (bodies pairs tokens) (bodies all (tokens ++ more)) :=
    bodies_append hpairs hall h
  rw [tie_getElem?, tie_getElem?, List.getElem?_append_left hi, List.getElem?_eq_getElem hi,
    List.drop_append_of_le_length (by omega), Option.map_some, Option.map_some,
    ownedOf_append hpairs hall h hended hdrop,
    tied_congr _ _ (hall.pairOf?_before hi) (hbodies.pairOf?_before hi)]

/-- Tokens behind the end of a statement do not change how the tokens before are paired. -/
theorem Ended.pair_append {paired all : List Token} (h : Ended tokens) (hp : pair tokens = .ok paired)
    (hall : pair (tokens ++ more) = .ok all) : paired <+: all := by
  obtain ⟨pairs, hm, rfl⟩ := pair_eq_ok.1 hp
  obtain ⟨allPairs, hm', rfl⟩ := pair_eq_ok.1 hall
  rw [h.settle_append] at hm' ⊢
  have hpairs : PairsOf (kindsOf (settle tokens)) pairs := mem_matchBrackets hm
  rw [List.prefix_iff_getElem?]
  intro i hi
  have hlt : i < (settle tokens).length := by simpa [tie, tieFrom_length] using hi
  rw [tie_append hpairs (matchBrackets_append hm hm') h.settled hlt]
  exact List.getElem?_eq_getElem hi

end DocLint
