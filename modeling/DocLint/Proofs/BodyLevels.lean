import DocLint.Proofs.Scopes

/-!
# Bodies and the brackets around them

A declaration should find its body among the brackets that are also around itself (`SameLevel`). The walk to a body
sees to a part of this only.

* It gives up at the end of the braces around it, so it never leaves braces.
* It takes the first opening brace, and passes over parentheses as a whole. So what it passes over closes again,
  braces and parentheses alike, and it never enters them (`Reaches.closer_lt`).
* It steps over every other bracket as over any token. So it can leave parentheses, square brackets and attributes
  that were open where it started, and enter square brackets and attributes.

These are the only ways for a body to be on another level than its declaration (`Stream.body_level_iff`).
-/

namespace DocLint

/-! ## What a walk passes over -/

namespace Reaches

variable {kinds : List Kind} {i j o c : Nat}

/-- A walk that starts inside brackets and leaves them goes on behind their end. -/
theorem past_closer (h : Reaches kinds i j) (hb : Closes kinds o c) (ho : o < i) (hi : i ≤ c) (hj : c < j) :
    Reaches kinds (c + 1) j := by
  induction h with
  | here => omega
  | @step i j _ _ _ next ih =>
    rcases Nat.eq_or_lt_of_le hi with rfl | hlt
    · exact next
    · exact ih (by omega) hlt hj
  | @jump i j c' h hc _ ih =>
    have hne : i ≠ c := by
      rintro rfl
      exact hc.opener.not_closesAt hb.closer
    have hinside := hb.nested hc ho (by omega)
    have hlt := hc.lt
    exact ih (by omega) hinside hj

/-- An opening brace on the way stands in parentheses that are passed over. -/
theorem brace_inside (h : Reaches kinds i j) {k : Nat} (hk : kinds[k]? = some .openBrace) (hi : i ≤ k)
    (hj : k < j) : ∃ o c, Closes kinds o c ∧ i ≤ o ∧ o < k ∧ k < c ∧ c < j := by
  induction h with
  | here => omega
  | @step i j kind h hh _ ih =>
    have hne : i ≠ k := by
      rintro rfl
      obtain rfl := Option.some.inj (hk.symm.trans h)
      cases hh
    obtain ⟨o, c, hc, hio, hok, hkc, hcj⟩ := ih (by omega) hj
    exact ⟨o, c, hc, by omega, hok, hkc, hcj⟩
  | @jump i j c' h hc next ih =>
    have hend := next.le
    have hne : i ≠ k := by
      rintro rfl
      cases hk.symm.trans h
    have hne' : k ≠ c' := by
      rintro rfl
      exact absurd hc.closer (OpensAt.not_closesAt ⟨_, hk, rfl⟩)
    rcases Nat.lt_or_ge k c' with hlt | hge
    · exact ⟨i, c', hc, Nat.le_refl i, by omega, hlt, by omega⟩
    · obtain ⟨o, c, hcl, hco, hok, hkc, hcj⟩ := ih (by omega) hj
      have hlt := hc.lt
      exact ⟨o, c, hcl, by omega, hok, hkc, hcj⟩

/-- Parentheses and braces that start on the way also end there. -/
theorem closer_lt (h : Reaches kinds i j) (hb : Closes kinds o c)
    (hk : kinds[o]? = some .openParen ∨ kinds[o]? = some .openBrace) (hi : i ≤ o) (hj : o < j) : c < j := by
  rcases hk with hparen | hbrace
  · induction h with
    | here => omega
    | @step i j kind h hh _ ih =>
      have hne : i ≠ o := by
        rintro rfl
        obtain rfl := Option.some.inj (hparen.symm.trans h)
        cases hh
      exact ih (by omega) hj
    | @jump i j c' h hc next ih =>
      have hend := next.le
      have hne : o ≠ c' := by
        rintro rfl
        exact hb.opener.not_closesAt hc.closer
      rcases Nat.eq_or_lt_of_le hi with rfl | hlt
      · rw [hb.closer_unique hc]
        omega
      · rcases Nat.lt_or_ge o c' with hin | hout
        · have := hc.nested hb hlt hin
          omega
        · exact ih (by omega) hj
  · obtain ⟨o', c', hc, -, ho, hc', hcj⟩ := h.brace_inside hbrace hi hj
    exact Nat.lt_trans (hc.nested hb ho hc') hcj

end Reaches

/-! ## Bodies that are looked for later -/

namespace FindsBody

variable {kinds : List Kind} {start later o c o' c' : Nat}

/-- Looking for a body from any place on the way to one finds nothing behind it. -/
theorem opener_le (h : Reaches kinds start o) (hbrace : kinds[o]? = some .openBrace) (hc : Closes kinds o c)
    (hf : FindsBody kinds later ⟨o', c'⟩) (hstart : start ≤ later) (hle : later ≤ o) : o' ≤ o := by
  induction h generalizing later with
  | here =>
    obtain rfl : later = _ := Nat.le_antisymm hle hstart
    obtain ⟨rfl, -⟩ := Pair.mk.inj ((findsBody_brace hbrace hc).1 hf)
    exact Nat.le_refl _
  | step hk hh next ih =>
    rcases Nat.eq_or_lt_of_le hstart with rfl | hlt
    · exact ih hbrace hc ((findsBody_step hk hh).1 hf) (Nat.le_refl _) next.le
    · exact ih hbrace hc hf hlt hle
  | @jump i o c₁ hk hc₁ next ih =>
    have hend := next.le
    rcases Nat.eq_or_lt_of_le hstart with rfl | hlt
    · exact ih hbrace hc ((findsBody_jump hk hc₁).1 hf) (Nat.le_refl _) hend
    · rcases Nat.lt_or_ge c₁ later with hout | hin
      · exact ih hbrace hc hf hout hle
      · -- from inside the parentheses: a body in there, or on from their end
        rcases Nat.lt_or_ge c₁ o' with hleft | hstay
        · have hwalk := hf.walk.past_closer hc₁ hlt hin hleft
          exact ih hbrace hc ⟨hwalk, hf.brace, hf.closes⟩ (Nat.le_refl _) hend
        · omega

/-- What is looked for later, but before the end of a body, ends no later than the body. -/
theorem closer_le (h : FindsBody kinds start ⟨o, c⟩) (hf : FindsBody kinds later ⟨o', c'⟩)
    (hstart : start ≤ later) (hle : later ≤ c) : c' ≤ c := by
  have hc : Closes kinds o c := h.closes
  have hc' : Closes kinds o' c' := hf.closes
  have hlater : later ≤ o' := hf.walk.le
  rcases Nat.lt_or_ge o later with hin | hout
  · have hend : kinds[c]? = some .closeBrace := by
      obtain ⟨opener, closer, hko, hkc, hpart⟩ := hc.partner
      obtain rfl := Option.some.inj (hko.symm.trans h.brace)
      obtain rfl : Kind.closeBrace = closer := Option.some.inj hpart
      exact hkc
    have hle' : o' ≤ c := hf.walk.le_closer hc hend hin hle
    have hne : o' ≠ c := by
      rintro rfl
      cases hend.symm.trans hf.brace
    exact Nat.le_of_lt (hc.nested hc' (by omega) (by omega))
  · have ho : o' ≤ o := opener_le h.walk h.brace hc hf hstart hout
    rcases Nat.eq_or_lt_of_le ho with rfl | hlt
    · exact Nat.le_of_eq (hc'.closer_unique hc)
    · have hend : c' < o := h.walk.closer_lt hc' (Or.inr hf.brace) (by omega) hlt
      have hlt' := hc.lt
      omega

end FindsBody

/-! ## Levels -/

instance (tokens : List Token) (o c : Nat) : Decidable (Partners tokens o c) :=
  decidable_of_iff (o < c ∧ tokens[o]?.any (fun opener => tokens[c]?.any fun closer =>
      opener.kind.closedBy = some closer.kind ∧ opener.bracketLink = .between o c ∧
        closer.bracketLink = .between o c)) <| by
    constructor
    · rintro ⟨hlt, hany⟩
      obtain ⟨opener, ho, hany⟩ := (Option.any_eq_true _ _).1 hany
      obtain ⟨closer, hc, hlinks⟩ := (Option.any_eq_true _ _).1 hany
      exact ⟨hlt, opener, closer, ho, hc, of_decide_eq_true hlinks⟩
    · rintro ⟨hlt, opener, closer, ho, hc, hlinks⟩
      simp [hlt, ho, hc, hlinks]

/-- The same brackets are around both indices. -/
def SameLevel (tokens : List Token) (i j : Nat) : Prop :=
  ∀ o c, Partners tokens o c → (o < i ∧ i < c ↔ o < j ∧ j < c)

/-- Brackets around the index `i`, other than braces, end before the index `j`. -/
def LeavesBrackets (tokens : List Token) (i j : Nat) : Prop :=
  ∃ o < i, ∃ c < j, i < c ∧ Partners tokens o c ∧ (kindsOf tokens)[c]? ≠ some .closeBrace

/-- Square brackets or an attribute that start behind the index `i` are around the index `j`. -/
def EntersBrackets (tokens : List Token) (i j : Nat) : Prop :=
  ∃ o < j, ∃ c < tokens.length, i < o ∧ j < c ∧ Partners tokens o c ∧ (kindsOf tokens)[c]? = some .closeSquare

instance (tokens : List Token) (i j : Nat) : Decidable (LeavesBrackets tokens i j) :=
  inferInstanceAs (Decidable (∃ o < i, ∃ c < j, i < c ∧ Partners tokens o c ∧
    (kindsOf tokens)[c]? ≠ some .closeBrace))

instance (tokens : List Token) (i j : Nat) : Decidable (EntersBrackets tokens i j) :=
  inferInstanceAs (Decidable (∃ o < j, ∃ c < tokens.length, i < o ∧ j < c ∧ Partners tokens o c ∧
    (kindsOf tokens)[c]? = some .closeSquare))

section Paired

variable {tokens paired : List Token} {i o c : Nat} {token : Token}

/-- Brackets around a declaration that are not around its body are no braces, and end before the body. -/
theorem leavesBrackets_of_around (h : pair tokens = .ok paired) (hf : FindsBody (kindsOf paired) (i + 1) ⟨o, c⟩)
    {o' c' : Nat} (hp : Partners paired o' c') (ho : o' < i) (hc : i < c') (hout : ¬ o < c') :
    LeavesBrackets paired i o := by
  have hcloses := (partners_iff h).1 hp
  have hne : c' ≠ o := by
    rintro rfl
    exact absurd hcloses.closer (OpensAt.not_closesAt ⟨_, hf.brace, rfl⟩)
  refine ⟨o', ho, c', by omega, hc, hp, fun hbrace => ?_⟩
  have hstay : o ≤ c' := hf.walk.le_closer hcloses hbrace (by omega) hc
  omega

/-- Brackets around a body that are not around its declaration are square brackets or an attribute, and start
behind the declaration. -/
theorem entersBrackets_of_around (h : pair tokens = .ok paired) (hi : paired[i]? = some token)
    (howns : token.kind.ownsScope = true) (hf : FindsBody (kindsOf paired) (i + 1) ⟨o, c⟩) {o' c' : Nat}
    (hp : Partners paired o' c') (ho : o' < o) (hc : o < c') (hout : ¬ o' < i) : EntersBrackets paired i o := by
  have hcloses := (partners_iff h).1 hp
  have hne : o' ≠ i := by
    rintro rfl
    obtain ⟨kind, hk, hs⟩ := hcloses.opener
    obtain rfl := Option.some.inj (hk.symm.trans (kindsOf_getElem? hi))
    revert howns hs
    cases token.kind <;> decide
  have hlast : c' < paired.length := by
    have := hcloses.closer.lt_length
    rwa [kindsOf_length] at this
  refine ⟨o', ho, c', hlast, by omega, hc, hp, ?_⟩
  obtain ⟨opener, closer, hko, hkc, hpart⟩ := hcloses.partner
  have hstay : ¬ ((kindsOf paired)[o']? = some .openParen ∨ (kindsOf paired)[o']? = some .openBrace) := by
    intro hk
    have hend : c' < o := hf.walk.closer_lt hcloses hk (by omega) ho
    omega
  rw [hko] at hstay
  rw [hkc]
  revert hpart hstay
  cases opener <;> simp [Kind.closedBy, eq_comm]

end Paired

namespace Stream

/-- The body of a declaration is on its level, unless the way to it leaves brackets other than braces, or enters
square brackets or an attribute. Every opening brace before the body is on another level. -/
theorem body_level_iff {source : Text} {stream : Stream} (h : ofSource source = .ok stream) {i o c : Nat}
    {token : Token} (hi : stream[i]? = some token) (howns : token.kind.ownsScope = true)
    (hscope : token.scope = .between o c) :
    (SameLevel stream.toList i o ↔ ¬ LeavesBrackets stream.toList i o ∧ ¬ EntersBrackets stream.toList i o) ∧
    ∀ (k : Nat) (brace : Token), stream[k]? = some brace → brace.kind = .openBrace → i < k → k < o →
      ¬ SameLevel stream.toList i k := by
  have hpair := (ofSource_eq_ok.1 h).2
  rw [← Array.getElem?_toList] at hi
  have hf := (scope_eq_between hpair hi howns).1 hscope
  have hio : i + 1 ≤ o := hf.walk.le
  constructor
  · constructor
    · intro hlevel
      constructor
      · rintro ⟨o', ho, c', hc', hc, hp, -⟩
        have := ((hlevel o' c' hp).1 ⟨ho, hc⟩).2
        omega
      · rintro ⟨o', ho, c', -, hio', hc, hp, -⟩
        have := ((hlevel o' c' hp).2 ⟨ho, hc⟩).1
        omega
    · rintro ⟨hleaves, henters⟩ o' c' hp
      constructor
      · rintro ⟨ho, hc⟩
        refine ⟨by omega, Decidable.by_contra fun hout => ?_⟩
        exact hleaves (leavesBrackets_of_around hpair hf hp ho hc hout)
      · rintro ⟨ho, hc⟩
        refine ⟨Decidable.by_contra fun hout => ?_, by omega⟩
        exact henters (entersBrackets_of_around hpair hi howns hf hp ho hc hout)
  · intro k brace hk hbrace hik hko hlevel
    rw [← Array.getElem?_toList] at hk
    have hkind : (kindsOf stream.toList)[k]? = some .openBrace := by rw [kindsOf_getElem? hk, hbrace]
    obtain ⟨o', c', hc, hio', ho, hkc, -⟩ := hf.walk.brace_inside hkind hik hko
    have := ((hlevel o' c' ((partners_iff hpair).2 hc)).2 ⟨ho, hkc⟩).1
    omega

/-- A closure in square brackets in a call, with parameters and used variables: its body is on its level. -/
theorem body_level_iff_closure :
    ∃ stream, ofSource "<?php f([function ($x) use ($y) \x7b \x7d]);".toList = .ok stream ∧
      ∃ token : Token, stream[5]? = some token ∧ token.kind = .closure ∧ token.scope = .between 17 19 ∧
        (¬ LeavesBrackets stream.toList 5 17 ∧ ¬ EntersBrackets stream.toList 5 17) ∧
        SameLevel stream.toList 5 17 := by
  have hlinks : (ofSource "<?php f([function ($x) use ($y) \x7b \x7d]);".toList).toOption.any (fun stream =>
      stream[5]?.any (fun token => token.kind = .closure ∧ token.scope = .between 17 19) &&
        decide (¬ LeavesBrackets stream.toList 5 17 ∧ ¬ EntersBrackets stream.toList 5 17)) = true := by
    decide +kernel
  obtain ⟨stream, h, hat⟩ := exists_eq_ok_of_any hlinks
  obtain ⟨htoken, hways⟩ := Bool.and_eq_true_iff.1 hat
  obtain ⟨token, hi, hlinked⟩ := (Option.any_eq_true _ _).1 htoken
  obtain ⟨hkind, hscope⟩ := of_decide_eq_true hlinked
  have howns : token.kind.ownsScope = true := Kind.ownsScope_of_function (Or.inr hkind)
  have hneither := of_decide_eq_true hways
  exact ⟨stream, h, token, hi, hkind, hscope, hneither, (body_level_iff h hi howns hscope).1.2 hneither⟩

/-- The parentheses of a condition with a call of `enum` in it end before the brace that `enum` takes for its
body. -/
theorem body_behind_parentheses :
    ∃ stream, ofSource "<?php if (enum($x)) \x7b \x7d".toList = .ok stream ∧
      ∃ token : Token, stream[5]? = some token ∧ token.kind.ownsScope = true ∧ token.scope = .between 11 13 ∧
        Partners stream.toList 4 9 ∧ ¬ SameLevel stream.toList 5 11 := by
  have hlinks : (ofSource "<?php if (enum($x)) \x7b \x7d".toList).toOption.any (fun stream =>
      stream[5]?.any (fun token => token.kind.ownsScope = true ∧ token.scope = .between 11 13) &&
        decide (Partners stream.toList 4 9)) = true := by
    decide +kernel
  obtain ⟨stream, h, hat⟩ := exists_eq_ok_of_any hlinks
  obtain ⟨htoken, hpartners⟩ := Bool.and_eq_true_iff.1 hat
  obtain ⟨token, hi, hlinked⟩ := (Option.any_eq_true _ _).1 htoken
  obtain ⟨howns, hscope⟩ := of_decide_eq_true hlinked
  have hp := of_decide_eq_true hpartners
  refine ⟨stream, h, token, hi, howns, hscope, hp, fun hlevel => ?_⟩
  have hin := ((hlevel 4 9 hp).1 ⟨by decide, by decide⟩).2
  omega

end Stream

end DocLint
