import DocLint.Proofs.Partners

/-!
# Bodies and parameter lists

A declaration looks for its body from left to right: it passes over parentheses as a whole, takes the
first opening brace it comes to, and gives up at a semicolon or a closing brace (`Reaches`). All that is
known about bodies comes from this walk and from the nesting of brackets.

* A body is a pair of braces, so any two bodies are equal, apart or one inside the other.
* The walk cannot leave the braces it starts in: it gives up at their end, and parentheses that open
  inside them also close there (`Reaches.le_closer`). So what is declared in a body has its own body
  in there.
* The parameters of a function are found on the way to its body, so they stand before it
  (`FindsParameters.closer_lt`).
-/

namespace DocLint

/-! ## The walk to a body -/

/-- The kinds that a walk does not simply step over. -/
def Kind.haltsWalk : Kind → Bool
  | openParen | openBrace | semicolon | closeBrace => true
  | _ => false

theorem Kind.haltsWalk_eq_false {kind : Kind} (hparen : kind ≠ .openParen)
    (hbrace : kind ≠ .openBrace) (hsemicolon : kind ≠ .semicolon) (hclose : kind ≠ .closeBrace) :
    kind.haltsWalk = false := by
  unfold haltsWalk
  split
  · exact absurd rfl hparen
  · exact absurd rfl hbrace
  · exact absurd rfl hsemicolon
  · exact absurd rfl hclose
  · rfl

theorem Kind.ownsScope_of_function {kind : Kind} (h : kind = .function ∨ kind = .closure) :
    kind.ownsScope = true := by
  rcases h with rfl | rfl
  · rfl
  · rfl

/-- Looking for a body from the index `i` on comes to the index `j`. -/
inductive Reaches (kinds : List Kind) : (i j : Nat) → Prop where
  /-- Where it starts. -/
  | here (i : Nat) : Reaches kinds i i
  /-- Past one token. -/
  | step {i j : Nat} {kind : Kind} (h : kinds[i]? = some kind) (hk : kind.haltsWalk = false)
      (next : Reaches kinds (i + 1) j) : Reaches kinds i j
  /-- Past parentheses and all that is in them. -/
  | jump {i j c : Nat} (h : kinds[i]? = some .openParen) (hc : Closes kinds i c)
      (next : Reaches kinds (c + 1) j) : Reaches kinds i j

namespace Reaches

variable {kinds : List Kind} {i j : Nat}

theorem le (h : Reaches kinds i j) : i ≤ j := by
  induction h with
  | here => exact Nat.le_refl _
  | step _ _ _ ih => omega
  | jump _ hc _ ih =>
    have := hc.lt
    omega

/-- The ways to go on from a token. -/
theorem cases_at {kind : Kind} (h : Reaches kinds i j) (hk : kinds[i]? = some kind) :
    j = i ∨ (kind.haltsWalk = false ∧ Reaches kinds (i + 1) j) ∨
      (kind = .openParen ∧ ∃ c, Closes kinds i c ∧ Reaches kinds (c + 1) j) := by
  cases h with
  | here => exact Or.inl rfl
  | step h hh next =>
    obtain rfl := Option.some.inj (hk.symm.trans h)
    exact Or.inr (Or.inl ⟨hh, next⟩)
  | jump h hc next =>
    obtain rfl := Option.some.inj (hk.symm.trans h)
    exact Or.inr (Or.inr ⟨rfl, _, hc, next⟩)

/-- A walk that starts between braces stays there. -/
theorem le_closer (h : Reaches kinds i j) {o c : Nat} (hb : Closes kinds o c)
    (hclose : kinds[c]? = some .closeBrace) (ho : o < i) (hi : i ≤ c) : j ≤ c := by
  induction h with
  | here => exact hi
  | @step i j kind h hk _ ih =>
    have hne : i ≠ c := by
      rintro rfl
      obtain rfl : kind = .closeBrace := Option.some.inj (h.symm.trans hclose)
      cases hk
    exact ih (by omega) (by omega)
  | @jump i j c' h hc _ ih =>
    have hne : i ≠ c := by
      rintro rfl
      have := Option.some.inj (h.symm.trans hclose)
      cases this
    have := hb.nested hc ho (by omega)
    have := hc.lt
    exact ih (by omega) (by omega)

end Reaches

/-! ## What a declaration owns -/

/-- Looking from the index `start` on finds the braces of a body. -/
structure FindsBody (kinds : List Kind) (start : Nat) (body : Pair) : Prop where
  walk : Reaches kinds start body.opener
  brace : kinds[body.opener]? = some .openBrace
  closes : Closes kinds body.opener body.closer

/-- Looking from the index `start` on finds the parentheses of parameters: they are the first thing
at which a walk does not simply step on. -/
structure FindsParameters (kinds : List Kind) (start : Nat) (parameters : Pair) : Prop where
  le : start ≤ parameters.opener
  steps : ∀ k, start ≤ k → k < parameters.opener →
    ∃ kind, kinds[k]? = some kind ∧ kind.haltsWalk = false
  paren : kinds[parameters.opener]? = some .openParen
  closes : Closes kinds parameters.opener parameters.closer

section Finds

variable {kinds : List Kind} {i c : Nat} {kind : Kind} {found : Pair}

theorem findsBody_step (hk : kinds[i]? = some kind) (hh : kind.haltsWalk = false) :
    FindsBody kinds i found ↔ FindsBody kinds (i + 1) found := by
  constructor
  · intro h
    rcases h.walk.cases_at hk with hi | ⟨-, hnext⟩ | ⟨rfl, -⟩
    · have hbrace := h.brace
      rw [hi, hk] at hbrace
      obtain rfl := Option.some.inj hbrace
      cases hh
    · exact ⟨hnext, h.brace, h.closes⟩
    · cases hh
  · intro h
    exact ⟨.step hk hh h.walk, h.brace, h.closes⟩

theorem findsBody_jump (hk : kinds[i]? = some .openParen) (hc : Closes kinds i c) :
    FindsBody kinds i found ↔ FindsBody kinds (c + 1) found := by
  constructor
  · intro h
    rcases h.walk.cases_at hk with hi | ⟨hh, -⟩ | ⟨-, c', hc', hnext⟩
    · have hbrace := h.brace
      rw [hi, hk] at hbrace
      cases hbrace
    · cases hh
    · rw [hc.closer_unique hc']
      exact ⟨hnext, h.brace, h.closes⟩
  · intro h
    exact ⟨.jump hk hc h.walk, h.brace, h.closes⟩

theorem findsBody_brace (hk : kinds[i]? = some .openBrace) (hc : Closes kinds i c) :
    FindsBody kinds i found ↔ found = ⟨i, c⟩ := by
  constructor
  · intro h
    rcases h.walk.cases_at hk with hi | ⟨hh, -⟩ | ⟨hparen, -⟩
    · obtain ⟨opener, closer⟩ := found
      obtain rfl : opener = i := hi
      rw [hc.closer_unique h.closes]
    · cases hh
    · cases hparen
  · rintro rfl
    exact ⟨.here i, hk, hc⟩

theorem findsParameters_step (hk : kinds[i]? = some kind) (hh : kind.haltsWalk = false) :
    FindsParameters kinds i found ↔ FindsParameters kinds (i + 1) found := by
  constructor
  · intro h
    have hne : i ≠ found.opener := by
      intro heq
      have hparen := h.paren
      rw [← heq, hk] at hparen
      obtain rfl := Option.some.inj hparen
      cases hh
    have hle := h.le
    exact ⟨by omega, fun k hk => h.steps k (by omega), h.paren, h.closes⟩
  · intro h
    have hle := h.le
    refine ⟨by omega, fun k hik hko => ?_, h.paren, h.closes⟩
    rcases Nat.eq_or_lt_of_le hik with rfl | hlt
    · exact ⟨kind, hk, hh⟩
    · exact h.steps k hlt hko

/-- Where a walk does not simply step on, only parentheses can be parameters. -/
theorem FindsParameters.opener_eq (h : FindsParameters kinds i found) (hk : kinds[i]? = some kind)
    (hh : kind.haltsWalk = true) : found.opener = i ∧ kind = .openParen := by
  rcases Nat.eq_or_lt_of_le h.le with heq | hlt
  · have hparen := h.paren
    rw [← heq, hk] at hparen
    exact ⟨heq.symm, Option.some.inj hparen⟩
  · obtain ⟨kind', hk', hh'⟩ := h.steps i (Nat.le_refl i) hlt
    obtain rfl := Option.some.inj (hk.symm.trans hk')
    rw [hh] at hh'
    cases hh'

theorem findsParameters_paren (hk : kinds[i]? = some .openParen) (hc : Closes kinds i c) :
    FindsParameters kinds i found ↔ found = ⟨i, c⟩ := by
  constructor
  · intro h
    obtain ⟨hi, -⟩ := h.opener_eq hk rfl
    obtain ⟨opener, closer⟩ := found
    obtain rfl : opener = i := hi
    rw [hc.closer_unique h.closes]
  · rintro rfl
    exact ⟨Nat.le_refl i, fun k hik hki => absurd hik (Nat.not_le_of_lt hki), hk, hc⟩

/-- Parameters are found before the body. -/
theorem FindsParameters.closer_lt {j : Nat} (h : FindsParameters kinds i found)
    (hr : Reaches kinds i j) (hj : kinds[j]? = some .openBrace) : found.closer < j := by
  induction hr with
  | here =>
    obtain ⟨-, hkind⟩ := h.opener_eq hj rfl
    cases hkind
  | step hk hh _ ih => exact ih ((findsParameters_step hk hh).1 h) hj
  | jump hk hc next _ =>
    obtain rfl := (findsParameters_paren hk hc).1 h
    exact next.le

end Finds

/-- What is found of parameters and body from the index `start` on; parameters only if they are
wanted. -/
structure OwnedBy (kinds : List Kind) (wanted : Bool) (start : Nat) (owned : Owned) : Prop where
  body : ∀ body, owned.body = some body ↔ FindsBody kinds start body
  parameters : ∀ parameters, owned.parameters = some parameters ↔
    wanted = true ∧ FindsParameters kinds start parameters

namespace OwnedBy

variable {kinds : List Kind} {wanted : Bool} {i : Nat} {owned : Owned}

/-- Nothing is found from the end on, or from where the walk gives up. -/
theorem nothing (h : ∀ kind, kinds[i]? = some kind → kind = .semicolon ∨ kind = .closeBrace) :
    OwnedBy kinds wanted i {} := by
  refine ⟨fun body => iff_of_false nofun ?_, fun parameters => iff_of_false nofun ?_⟩
  · intro hf
    obtain ⟨opener, closer⟩ := body
    obtain ⟨hwalk, hbrace, -⟩ := hf
    cases hwalk with
    | here => rcases h _ hbrace with hk | hk <;> cases hk
    | step hk hh _ => rcases h _ hk with rfl | rfl <;> cases hh
    | jump hk _ _ => rcases h _ hk with hk | hk <;> cases hk
  · rintro ⟨-, hf⟩
    rcases Nat.eq_or_lt_of_le hf.le with heq | hlt
    · have hparen := hf.paren
      rw [← heq] at hparen
      rcases h _ hparen with hk | hk <;> cases hk
    · obtain ⟨kind, hk, hh⟩ := hf.steps i (Nat.le_refl i) hlt
      rcases h _ hk with rfl | rfl <;> cases hh

theorem braces {c : Nat} (hk : kinds[i]? = some .openBrace) (hc : Closes kinds i c) :
    OwnedBy kinds wanted i { body := some ⟨i, c⟩ } := by
  refine ⟨fun body => ?_, fun parameters => iff_of_false nofun ?_⟩
  · rw [findsBody_brace hk hc, Option.some.injEq, eq_comm]
  · rintro ⟨-, hf⟩
    obtain ⟨-, hkind⟩ := hf.opener_eq hk rfl
    cases hkind

theorem step {kind : Kind} (hk : kinds[i]? = some kind) (hh : kind.haltsWalk = false)
    (h : OwnedBy kinds wanted (i + 1) owned) : OwnedBy kinds wanted i owned := by
  refine ⟨fun body => ?_, fun parameters => ?_⟩
  · rw [findsBody_step hk hh, h.body]
  · rw [findsParameters_step hk hh, h.parameters]

/-- Parentheses are passed over, and are the parameters if these are wanted. -/
theorem jump {c : Nat} (hk : kinds[i]? = some .openParen) (hc : Closes kinds i c)
    (h : OwnedBy kinds false (c + 1) owned) :
    OwnedBy kinds wanted i (if wanted then { owned with parameters := some ⟨i, c⟩ } else owned) := by
  have hbody : ∀ body, owned.body = some body ↔ FindsBody kinds i body := by
    intro body
    rw [findsBody_jump hk hc, h.body]
  cases wanted with
  | false =>
    refine ⟨hbody, fun parameters => ?_⟩
    -- behind the first parentheses no parameters are wanted
    have hnone := h.parameters parameters
    simpa using hnone
  | true =>
    refine ⟨hbody, fun parameters => ?_⟩
    rw [findsParameters_paren hk hc]
    simp [eq_comm]

end OwnedBy

/-- Looking for parameters and body from any index on. -/
theorem ownedFrom_ownedBy {tokens rest : List Token} {pairs : List Pair} {wanted : Bool}
    {resume index : Nat} (hpairs : PairsOf (kindsOf tokens) pairs)
    (hall : AllMatched (kindsOf tokens)) (hrest : tokens.drop index = rest) :
    OwnedBy (kindsOf tokens) wanted (max index resume)
      (ownedFrom pairs wanted resume index rest) := by
  induction rest generalizing wanted resume index with
  | nil =>
    refine .nothing fun kind hk => ?_
    have hlen : tokens.length ≤ index := List.drop_eq_nil_iff.1 hrest
    obtain ⟨hlt, -⟩ := List.getElem?_eq_some_iff.1 hk
    rw [kindsOf_length] at hlt
    omega
  | cons token rest ih =>
    obtain ⟨ht, htail⟩ := getElem?_of_drop hrest
    have hk := kindsOf_getElem? ht
    rw [ownedFrom]
    by_cases hlt : index < resume
    · rw [if_pos hlt]
      have hmax : max index resume = max (index + 1) resume := by omega
      rw [hmax]
      exact ih htail
    · rw [if_neg hlt]
      have hmax : max index resume = index := by omega
      have hnext : max (index + 1) resume = index + 1 := by omega
      rw [hmax]
      -- every opening bracket is in the table
      have hfound : token.kind.closedBy.isSome = true →
          ∃ c, Closes (kindsOf tokens) index c ∧ pairOf? pairs index = some ⟨index, c⟩ := by
        intro hs
        obtain ⟨c, hc⟩ := hall.opened index ⟨token.kind, hk, hs⟩
        exact ⟨c, hc, pairOf?_opener hpairs hc⟩
      split
      · next hkind =>
        obtain ⟨c, hc, hp⟩ := hfound (by rw [hkind]; rfl)
        rw [hp]
        have hafter := @ih false (c + 1) (index + 1) htail
        have hcmax : max (index + 1) (c + 1) = c + 1 := by
          have := hc.lt
          omega
        rw [hcmax] at hafter
        rw [hkind] at hk
        exact hafter.jump hk hc
      · next hkind =>
        obtain ⟨c, hc, hp⟩ := hfound (by rw [hkind]; rfl)
        rw [hp]
        rw [hkind] at hk
        exact .braces hk hc
      · next hkind =>
        refine .nothing fun kind hk' => Or.inl ?_
        rw [← hkind, Option.some.inj (hk.symm.trans hk')]
      · next hkind =>
        refine .nothing fun kind hk' => Or.inr ?_
        rw [← hkind, Option.some.inj (hk.symm.trans hk')]
      · next hparen hbrace hsemicolon hclose =>
        have hafter := @ih wanted resume (index + 1) htail
        rw [hnext] at hafter
        exact hafter.step hk (Kind.haltsWalk_eq_false hparen hbrace hsemicolon hclose)

/-! ## Links to bodies -/

/-- The tokens at `o` and `c` are a pair of braces, and carry the link that says so. -/
structure Braces (tokens : List Token) (o c : Nat) : Prop where
  partners : Partners tokens o c
  opener : ∃ token, tokens[o]? = some token ∧ token.kind = .openBrace
  closer : ∃ token, tokens[c]? = some token ∧ token.kind = .closeBrace

theorem link_getD_eq_between {pair : Option Pair} {o c : Nat} :
    ((pair.map (·.link)).getD {} : Link) = .between o c ↔ pair = some ⟨o, c⟩ := by
  cases pair with
  | none => simp [Link.between]
  | some pair => simp [Pair.link_inj]

theorem link_getD_ne {pair : Option Pair} (h : ((pair.map (·.link)).getD {} : Link) ≠ {}) :
    ∃ o c, pair = some ⟨o, c⟩ := by
  cases pair with
  | none => exact absurd rfl h
  | some found => exact ⟨found.opener, found.closer, rfl⟩

section Tied

variable {token : Token} {i : Nat} {owned : Owned} {pairs bodies : List Pair}

theorem tied_scope :
    (token.tied i owned pairs bodies).scope =
      ((if token.kind.ownsScope then owned.body else pairOf? bodies i).map (·.link)).getD {} :=
  rfl

/-- The parentheses of a declaration are its parameters. -/
theorem tied_parens (h : token.kind.ownsScope = true) :
    (token.tied i owned pairs bodies).parens = (owned.parameters.map (·.link)).getD {} := by
  have hopen : token.kind ≠ .openParen := by
    intro hk
    rw [hk] at h
    cases h
  have hclose : token.kind ≠ .closeParen := by
    intro hk
    rw [hk] at h
    cases h
  simp [Token.tied, hopen, hclose]

end Tied

section Paired

variable {tokens paired : List Token} {i o c : Nat} {token : Token}

/-- What a declaration among paired tokens owns. -/
theorem exists_ownedBy (h : pair tokens = .ok paired) (hi : paired[i]? = some token)
    (hk : token.kind.ownsScope = true) :
    ∃ owned : Owned, token.scope = (owned.body.map (·.link)).getD {} ∧
      token.parens = (owned.parameters.map (·.link)).getD {} ∧
      OwnedBy (kindsOf paired) (token.kind == .function || token.kind == .closure) (i + 1) owned := by
  obtain ⟨pairs, rfl, hpairs, hall⟩ := exists_pairsOf h
  rw [kindsOf_tie] at hpairs hall ⊢
  rw [tie_getElem?] at hi
  obtain ⟨settled, hs, rfl⟩ := Option.map_eq_some_iff.1 hi
  have hk' : settled.kind.ownsScope = true := hk
  have howned : settled.ownedOf pairs (i + 1) ((settle tokens).drop (i + 1)) =
      ownedFrom pairs (settled.kind == .function || settled.kind == .closure) 0 (i + 1)
        ((settle tokens).drop (i + 1)) := by
    rw [Token.ownedOf, if_pos hk']
  refine ⟨_, ?_, tied_parens hk', ?_⟩
  · rw [tied_scope, if_pos hk']
  · rw [howned]
    exact @ownedFrom_ownedBy (settle tokens) _ pairs _ 0 (i + 1) hpairs hall rfl

/-- A declaration is linked to the body that it finds. -/
theorem scope_eq_between (h : pair tokens = .ok paired) (hi : paired[i]? = some token)
    (hk : token.kind.ownsScope = true) :
    token.scope = .between o c ↔ FindsBody (kindsOf paired) (i + 1) ⟨o, c⟩ := by
  obtain ⟨owned, hscope, -, howned⟩ := exists_ownedBy h hi hk
  rw [hscope, link_getD_eq_between, howned.body]

/-- A function is linked to the parameters that it finds. -/
theorem parens_eq_between (h : pair tokens = .ok paired) (hi : paired[i]? = some token)
    (hk : token.kind = .function ∨ token.kind = .closure) :
    token.parens = .between o c ↔ FindsParameters (kindsOf paired) (i + 1) ⟨o, c⟩ := by
  have howns : token.kind.ownsScope = true := Kind.ownsScope_of_function hk
  have hwanted : (token.kind == .function || token.kind == .closure) = true := by simpa using hk
  obtain ⟨owned, -, hparens, howned⟩ := exists_ownedBy h hi howns
  rw [hparens, link_getD_eq_between, howned.parameters]
  exact and_iff_right hwanted

/-- A body that is found is a pair of braces. -/
theorem FindsBody.braces (h : pair tokens = .ok paired) {start : Nat}
    (hf : FindsBody (kindsOf paired) start ⟨o, c⟩) : Braces paired o c := by
  have hc : Closes (kindsOf paired) o c := hf.closes
  obtain ⟨opener, closer, hko, hkc, hpart⟩ := hc.partner
  obtain rfl : opener = .openBrace := Option.some.inj (hko.symm.trans hf.brace)
  obtain rfl : Kind.closeBrace = closer := Option.some.inj hpart
  rw [kindsOf, List.getElem?_map] at hko hkc
  obtain ⟨first, hfirst, hkfirst⟩ := Option.map_eq_some_iff.1 hko
  obtain ⟨last, hlast, hklast⟩ := Option.map_eq_some_iff.1 hkc
  exact ⟨(partners_iff h).2 hc, ⟨first, hfirst, hkfirst⟩, ⟨last, hlast, hklast⟩⟩

/-- Every link to a body, on a declaration or on a brace, is the body that a declaration finds. -/
theorem exists_findsBody (h : pair tokens = .ok paired) (hi : paired[i]? = some token)
    (hscope : token.scope ≠ {}) :
    ∃ o c start, token.scope = .between o c ∧ FindsBody (kindsOf paired) start ⟨o, c⟩ := by
  by_cases hk : token.kind.ownsScope = true
  · obtain ⟨owned, hs, -, -⟩ := exists_ownedBy h hi hk
    rw [hs] at hscope
    obtain ⟨o, c, hb⟩ := link_getD_ne hscope
    have hlink : token.scope = .between o c := by rw [hs, link_getD_eq_between, hb]
    exact ⟨o, c, i + 1, hlink, (scope_eq_between h hi hk).1 hlink⟩
  -- a brace has the link of the declaration whose body it opens or closes
  · obtain ⟨pairs, rfl, hpairs, hall⟩ := exists_pairsOf h
    rw [kindsOf_tie] at hpairs hall ⊢
    rw [tie_getElem?] at hi
    obtain ⟨settled, -, rfl⟩ := Option.map_eq_some_iff.1 hi
    have hk' : ¬ settled.kind.ownsScope = true := hk
    rw [tied_scope, if_neg hk'] at hscope ⊢
    obtain ⟨o, c, hb⟩ := link_getD_ne hscope
    obtain ⟨k, owner, -, hbody⟩ := mem_bodies.1 (List.mem_of_find?_eq_some hb)
    rw [Token.ownedOf] at hbody
    split at hbody
    · have howned := @ownedFrom_ownedBy (settle tokens) _ pairs
        (owner.kind == .function || owner.kind == .closure) 0 (k + 1) hpairs hall rfl
      exact ⟨o, c, _, link_getD_eq_between.2 hb, (howned.body _).1 hbody⟩
    · cases hbody

theorem exists_braces_of_scope (h : pair tokens = .ok paired) (hi : paired[i]? = some token)
    (hscope : token.scope ≠ {}) : ∃ o c, token.scope = .between o c ∧ Braces paired o c := by
  obtain ⟨o, c, start, hlink, hf⟩ := exists_findsBody h hi hscope
  exact ⟨o, c, hlink, hf.braces h⟩

theorem link_between_inj {o c o' c' : Nat} (h : Link.between o c = .between o' c') :
    o = o' ∧ c = c' := by
  have hpair : (⟨o, c⟩ : Pair) = ⟨o', c'⟩ := Pair.link_inj.1 h
  exact ⟨congrArg Pair.opener hpair, congrArg Pair.closer hpair⟩

theorem link_between_ne {link : Link} (h : link = .between o c) : link ≠ {} := by
  rw [h]
  intro hempty
  cases hempty

theorem braces_of_scope (h : pair tokens = .ok paired) (hi : paired[i]? = some token)
    (hscope : token.scope = .between o c) : Braces paired o c := by
  obtain ⟨o', c', hlink, hb⟩ := exists_braces_of_scope h hi (link_between_ne hscope)
  obtain ⟨rfl, rfl⟩ := link_between_inj (hscope.symm.trans hlink)
  exact hb

/-- The closing brace of a pair of braces, as a kind. -/
theorem Braces.closes (h : pair tokens = .ok paired) (hb : Braces paired o c) :
    Closes (kindsOf paired) o c ∧ (kindsOf paired)[c]? = some .closeBrace := by
  obtain ⟨last, hlast, hklast⟩ := hb.closer
  refine ⟨(partners_iff h).1 hb.partners, ?_⟩
  rw [kindsOf_getElem? hlast, hklast]

/-- What is declared in a body has its own body in there. -/
theorem scope_inside (h : pair tokens = .ok paired) {k o' c' : Nat} {inner : Token}
    (hi : paired[i]? = some token) (hscope : token.scope = .between o c)
    (hk : paired[k]? = some inner) (howns : inner.kind.ownsScope = true)
    (hscope' : inner.scope = .between o' c') (ho : o < k) (hc : k < c) :
    o < o' ∧ o' < c' ∧ c' < c := by
  obtain ⟨hcloses, hbrace⟩ := (braces_of_scope h hi hscope).closes h
  have hf := (scope_eq_between h hk howns).1 hscope'
  have hle : k + 1 ≤ o' := hf.walk.le
  have hle' : o' ≤ c := hf.walk.le_closer hcloses hbrace (by omega) hc
  have hne : o' ≠ c := by
    rintro rfl
    have hopen : (kindsOf paired)[o']? = some .openBrace := hf.brace
    rw [hbrace] at hopen
    cases hopen
  have hcloses' : Closes (kindsOf paired) o' c' := hf.closes
  exact ⟨by omega, hcloses'.lt, hcloses.nested hcloses' (by omega) (by omega)⟩

/-- A function stands before its parameters, and these before its body. -/
theorem parens_before_scope (h : pair tokens = .ok paired) (hi : paired[i]? = some token)
    (hk : token.kind = .function ∨ token.kind = .closure) (hparens : token.parens ≠ {})
    (hscope : token.scope ≠ {}) :
    ∃ po pc so sc, token.parens = .between po pc ∧ token.scope = .between so sc ∧
      i < po ∧ po < pc ∧ pc < so ∧ so < sc := by
  have howns : token.kind.ownsScope = true := Kind.ownsScope_of_function hk
  obtain ⟨so, sc, hs, hb⟩ := exists_braces_of_scope h hi hscope
  obtain ⟨owned, -, hp, -⟩ := exists_ownedBy h hi howns
  rw [hp] at hparens
  obtain ⟨po, pc, hfound⟩ := link_getD_ne hparens
  have hlink : token.parens = .between po pc := by rw [hp, link_getD_eq_between, hfound]
  have hbody := (scope_eq_between h hi howns).1 hs
  have hparams := (parens_eq_between h hi hk).1 hlink
  exact ⟨po, pc, so, sc, hlink, hs, hparams.le, hparams.closes.lt,
    hparams.closer_lt hbody.walk hbody.brace, hbody.closes.lt⟩

end Paired

/-! ## Streams of sources -/

namespace Stream

/-- The bodies in a source.

* A link to a body, on whatever token, is to a pair of braces. Two such bodies are the same, or one is
  before the other, or one is inside the other.
* What is declared in a body has its own body in there.
* A function with parameters and a body stands before its parameters, and these before the body.
* The body of a declaration and the parameters of a function are those that the walk finds. -/
theorem bodies_nested {source : Text} {stream : Stream} (h : ofSource source = .ok stream) :
    (∀ (i : Nat) (token : Token), stream[i]? = some token → token.scope ≠ {} →
      ∃ o c, token.scope = .between o c ∧ Braces stream.toList o c) ∧
    (∀ (i k : Nat) (one other : Token) (o c o' c' : Nat), stream[i]? = some one →
      stream[k]? = some other → one.scope = .between o c → other.scope = .between o' c' →
      (o = o' ∧ c = c') ∨ (c < o' ∨ c' < o) ∨ (o < o' ∧ c' < c) ∨ (o' < o ∧ c < c')) ∧
    (∀ (i k : Nat) (outer inner : Token) (o c o' c' : Nat), stream[i]? = some outer →
      stream[k]? = some inner → inner.kind.ownsScope = true → outer.scope = .between o c →
      inner.scope = .between o' c' → o < k → k < c → o < o' ∧ o' < c' ∧ c' < c) ∧
    (∀ (i : Nat) (token : Token), stream[i]? = some token →
      token.kind = .function ∨ token.kind = .closure → token.parens ≠ {} → token.scope ≠ {} →
      ∃ po pc so sc, token.parens = .between po pc ∧ token.scope = .between so sc ∧
        i < po ∧ po < pc ∧ pc < so ∧ so < sc) ∧
    ∀ (i : Nat) (token : Token) (o c : Nat), stream[i]? = some token →
      (token.kind.ownsScope = true →
        (token.scope = .between o c ↔ FindsBody (kindsOf stream.toList) (i + 1) ⟨o, c⟩)) ∧
      (token.kind = .function ∨ token.kind = .closure →
        (token.parens = .between o c ↔ FindsParameters (kindsOf stream.toList) (i + 1) ⟨o, c⟩)) := by
  have hpair := (ofSource_eq_ok.1 h).2
  simp only [← Array.getElem?_toList]
  refine ⟨?_, ?_, ?_, ?_, ?_⟩
  · intro i token hi hscope
    exact exists_braces_of_scope hpair hi hscope
  · intro i k one other o c o' c' hi hk hscope hscope'
    have hc := ((braces_of_scope hpair hi hscope).closes hpair).1
    have hc' := ((braces_of_scope hpair hk hscope').closes hpair).1
    exact hc.laminar hc'
  · intro i k outer inner o c o' c' hi hk howns hscope hscope' ho hc
    exact scope_inside hpair hi hscope hk howns hscope' ho hc
  · intro i token hi hk hparens hscope
    exact parens_before_scope hpair hi hk hparens hscope
  · intro i token o c hi
    exact ⟨fun howns => scope_eq_between hpair hi howns, fun hk => parens_eq_between hpair hi hk⟩

/-- A closure in a function: its body is inside that of the function, and behind its own
parameters. -/
theorem bodies_nested_closure :
    ∃ stream, ofSource "<?php function f($x) \x7b return function ($y) \x7b \x7d; \x7d".toList =
        .ok stream ∧
      ∃ outer inner : Token, stream[2]? = some outer ∧ stream[13]? = some inner ∧
        inner.kind = .closure ∧ outer.scope = .between 9 24 ∧ inner.scope = .between 19 21 ∧
        Braces stream.toList 9 24 ∧ (9 < 19 ∧ 19 < 21 ∧ 21 < 24) ∧
        FindsBody (kindsOf stream.toList) 14 ⟨19, 21⟩ ∧
        ∃ po pc so sc, inner.parens = .between po pc ∧ inner.scope = .between so sc ∧
          13 < po ∧ po < pc ∧ pc < so ∧ so < sc := by
  have hlinks :
      (ofSource "<?php function f($x) \x7b return function ($y) \x7b \x7d; \x7d".toList).toOption.any
        (fun stream => stream[2]?.any (fun outer => outer.scope = .between 9 24) &&
          stream[13]?.any (fun inner => inner.kind = .closure ∧ inner.parens = .between 15 17 ∧
            inner.scope = .between 19 21)) = true := by
    decide +kernel
  obtain ⟨stream, h, hat⟩ := exists_eq_ok_of_any hlinks
  obtain ⟨houter, hinner⟩ := Bool.and_eq_true_iff.1 hat
  obtain ⟨outer, hi, ho⟩ := (Option.any_eq_true _ _).1 houter
  obtain ⟨inner, hk, hin⟩ := (Option.any_eq_true _ _).1 hinner
  have hscope : outer.scope = .between 9 24 := of_decide_eq_true ho
  obtain ⟨hkind, hparens, hscope'⟩ := of_decide_eq_true hin
  have howns : inner.kind.ownsScope = true := Kind.ownsScope_of_function (Or.inr hkind)
  obtain ⟨hbraces, -, hinside, hbefore, hfinds⟩ := bodies_nested h
  obtain ⟨o, c, hlink, hb⟩ := hbraces 2 outer hi (link_between_ne hscope)
  obtain ⟨rfl, rfl⟩ := link_between_inj (hscope.symm.trans hlink)
  exact ⟨stream, h, outer, inner, hi, hk, hkind, hscope, hscope', hb,
    hinside 2 13 outer inner 9 24 19 21 hi hk howns hscope hscope' (by decide) (by decide),
    ((hfinds 13 inner 19 21 hk).1 howns).1 hscope',
    hbefore 13 inner hk (Or.inr hkind) (link_between_ne hparens) (link_between_ne hscope')⟩

end Stream

end DocLint
