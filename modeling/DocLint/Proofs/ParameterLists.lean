import DocLint.Proofs.BodyLevels
import DocLint.Proofs.SoundStreams

/-!
# Parameter lists

A parameter list is cut at the commas that stand in no brackets of the list, braces apart (`Separates`), and each
segment declares the first variable that stands in no attribute (`Declares`). Both are said of single tokens, by the
pairs of brackets around them. The functions that read a list never look at what is around a token. They go from left
to right, and pass over brackets as a whole.

* Cutting at commas jumps behind each bracket that it comes to. The invariant is that the brackets that opened on the
  way are closed again (`ClosedBefore`), so the commas it comes to are those that separate.
* Reading a segment keeps the end of the last attribute. The invariant is that an index is not behind this end exactly
  if an attribute that opened on the way covers it (`attributeEnd`).
-/

namespace DocLint

/-! ## Around a token of a list -/

/-- Brackets of the list from `po` to `pc`, other than braces, are around the index. -/
def InNested (tokens : List Token) (po pc j : Nat) : Prop :=
  ∃ o < j, ∃ c < pc, po < o ∧ j < c ∧ Partners tokens o c ∧ (kindsOf tokens)[o]? ≠ some .openBrace

/-- The index is in an attribute of the list from `po` to `pc`, its brackets included. -/
def InAttribute (tokens : List Token) (po pc j : Nat) : Prop :=
  ∃ o < j + 1, ∃ c < pc, po < o ∧ j ≤ c ∧ Partners tokens o c ∧ (kindsOf tokens)[o]? = some .openAttribute

instance (tokens : List Token) (po pc j : Nat) : Decidable (InNested tokens po pc j) :=
  inferInstanceAs (Decidable (∃ o < j, ∃ c < pc, po < o ∧ j < c ∧ Partners tokens o c ∧
    (kindsOf tokens)[o]? ≠ some .openBrace))

instance (tokens : List Token) (po pc j : Nat) : Decidable (InAttribute tokens po pc j) :=
  inferInstanceAs (Decidable (∃ o < j + 1, ∃ c < pc, po < o ∧ j ≤ c ∧ Partners tokens o c ∧
    (kindsOf tokens)[o]? = some .openAttribute))

/-- The token at the index is a comma between two parameters. -/
def Separates (tokens : List Token) (po pc j : Nat) : Prop :=
  (kindsOf tokens)[j]? = some .comma ∧ ¬ InNested tokens po pc j

/-- The token at the index is a variable that a parameter may be named by. -/
def Declares (tokens : List Token) (po pc j : Nat) : Prop :=
  (kindsOf tokens)[j]? = some .variableName ∧ ¬ InAttribute tokens po pc j

instance (tokens : List Token) (po pc j : Nat) : Decidable (Separates tokens po pc j) :=
  inferInstanceAs (Decidable (_ ∧ _))

instance (tokens : List Token) (po pc j : Nat) : Decidable (Declares tokens po pc j) :=
  inferInstanceAs (Decidable (_ ∧ _))

/-- The indices between the parentheses `po` and `pc`, cut at the commas between parameters. -/
def segmentsBetween (tokens : List Token) (po pc : Nat) : List (List Nat) :=
  (List.range' (po + 1) (pc - (po + 1))).splitOnP fun j => decide (Separates tokens po pc j)

/-- The variable that a segment declares: its first one that stands in no attribute. -/
def declared? (tokens : List Token) (po pc : Nat) (segment : List Nat) : Option Nat :=
  segment.find? fun j => decide (Declares tokens po pc j)

/-- What stands in a segment before the variable that it declares. -/
def beforeDeclared (tokens : List Token) (po pc : Nat) (segment : List Nat) : List Nat :=
  segment.takeWhile fun j => !decide (Declares tokens po pc j)

/-- The kinds that are part of a type in front of a variable. -/
def Kind.isTypePart (kind : Kind) : Bool :=
  !kind.isSilent && !kind.isModifier && kind != .ampersand && kind != .ellipsis

/-- The token at the index is part of a type in front of a variable. -/
def TypePart (tokens : List Token) (po pc j : Nat) : Prop :=
  (kindsOf tokens)[j]?.any Kind.isTypePart = true ∧ ¬ InAttribute tokens po pc j

instance (tokens : List Token) (po pc j : Nat) : Decidable (TypePart tokens po pc j) :=
  inferInstanceAs (Decidable (_ ∧ _))

/-- The text of the token at an index. -/
def contentAt (tokens : List Token) (j : Nat) : Text := (tokens[j]?.map (·.content)).getD []

/-- The type that is read from a segment. -/
def hintOf (tokens : List Token) (po pc : Nat) (segment : List Nat) : Text :=
  ((beforeDeclared tokens po pc segment).filter fun j => decide (TypePart tokens po pc j)).flatMap (contentAt tokens)

/-- The parameter that is read from a segment. -/
def parameterOf? (tokens : List Token) (po pc : Nat) (segment : List Nat) : Option Parameter :=
  (declared? tokens po pc segment).map fun k => ⟨contentAt tokens k, k, hintOf tokens po pc segment⟩

/-! ## Cutting at commas -/

section Split

variable {α : Type} {p : α → Bool} {front back : List α}

theorem splitOnP_append_of_forall (h : ∀ x ∈ front, p x = false) :
    (front ++ back).splitOnP p = (back.splitOnP p).modifyHead (front ++ ·) := by
  induction front with
  | nil =>
    obtain ⟨first, rest, hsplit⟩ := List.exists_cons_of_ne_nil (List.splitOnP_ne_nil p back)
    simp [hsplit]
  | cons x front ih =>
    have hx := h x List.mem_cons_self
    obtain ⟨first, rest, hsplit⟩ := List.exists_cons_of_ne_nil (List.splitOnP_ne_nil p back)
    rw [List.cons_append, List.splitOnP_cons_eq_if_modifyHead, hx, ih fun y hy => h y (List.mem_cons_of_mem x hy)]
    simp [hsplit]

theorem flatten_splitOnP (p : α → Bool) (items : List α) :
    (items.splitOnP p).flatten = items.filter fun x => !p x := by
  induction items with
  | nil => rfl
  | cons x rest ih =>
    obtain ⟨first, more, hsplit⟩ := List.exists_cons_of_ne_nil (List.splitOnP_ne_nil p rest)
    rw [List.splitOnP_cons_eq_if_modifyHead]
    by_cases hp : p x = true
    · rw [if_pos hp, List.flatten_cons, List.nil_append, ih, List.filter_cons_of_neg (by simp [hp])]
    · rw [hsplit, List.flatten_cons] at ih
      rw [if_neg hp, hsplit, List.modifyHead_cons, List.flatten_cons, List.cons_append, ih,
        List.filter_cons_of_pos (by simpa using hp)]

end Split

/-- A cut of a stretch of numbers is into stretches, of which each but the first starts behind a separator. -/
theorem splitOnP_range' (p : Nat → Bool) (s n : Nat) :
    ∃ m rest, (List.range' s n).splitOnP p = List.range' s m :: rest ∧ m ≤ n ∧
      ∀ segment ∈ rest, ∃ s' m', segment = List.range' s' m' ∧ s < s' ∧ s' + m' ≤ s + n ∧ p (s' - 1) = true := by
  induction n generalizing s with
  | zero => exact ⟨0, [], rfl, Nat.le_refl 0, fun segment hm => absurd hm List.not_mem_nil⟩
  | succ n ih =>
    obtain ⟨m, rest, hsplit, hm, hrest⟩ := ih (s + 1)
    have hlater : ∀ segment ∈ rest, ∃ s' m', segment = List.range' s' m' ∧ s < s' ∧ s' + m' ≤ s + (n + 1) ∧
        p (s' - 1) = true := by
      intro segment hmem
      obtain ⟨s', m', rfl, hs, hle, hp⟩ := hrest segment hmem
      exact ⟨s', m', rfl, by omega, by omega, hp⟩
    rw [List.range'_succ, List.splitOnP_cons_eq_if_modifyHead, hsplit]
    by_cases hp : p s = true
    · rw [if_pos hp]
      refine ⟨0, _, rfl, Nat.zero_le _, fun segment hmem => ?_⟩
      rcases List.mem_cons.1 hmem with rfl | hmem
      · exact ⟨s + 1, m, rfl, Nat.lt_succ_self s, by omega, hp⟩
      · exact hlater segment hmem
    · rw [if_neg hp]
      refine ⟨m + 1, rest, ?_, by omega, hlater⟩
      rw [List.modifyHead_cons, List.range'_succ]

theorem indices_eq_range' (first last : Nat) :
    indices first last = (List.range' first (last - first)).map (fun n : Nat => (n : Int)) := by
  rw [indices, List.range'_eq_map_range, List.map_map, show ((last : Int) - first).toNat = last - first by omega]
  apply List.map_congr_left
  intro offset _
  simp

section Order

variable {tokens : List Token} {po pc : Nat}

theorem mem_segmentsBetween {segment : List Nat} (hm : segment ∈ segmentsBetween tokens po pc) {k : Nat}
    (hk : k ∈ segment) : po < k ∧ k < pc := by
  have hflat := List.mem_flatten.2 ⟨segment, hm, hk⟩
  rw [segmentsBetween, flatten_splitOnP] at hflat
  have hrange := List.mem_range'_1.1 (List.mem_filter.1 hflat).1
  omega

/-- The variables that segments declare stand in the order of the segments. -/
theorem declared_ordered (tokens : List Token) (po pc : Nat) :
    ((segmentsBetween tokens po pc).filterMap (declared? tokens po pc)).Pairwise (· < ·) := by
  have hflat : (segmentsBetween tokens po pc).flatten.Pairwise (· < ·) := by
    rw [segmentsBetween, flatten_splitOnP]
    exact (List.pairwise_lt_range' ..).filter _
  refine (List.pairwise_flatten.1 hflat).2.filterMap _ fun one other hlt k hk k' hk' => ?_
  exact hlt k (List.mem_of_find?_eq_some hk) k' (List.mem_of_find?_eq_some hk')

end Order

section Paired

variable {tokens paired : List Token} {po pc j : Nat} {token : Token}

/-- Behind a nested bracket, a list goes on behind its end. -/
theorem nextIndex_of_closes (h : pair tokens = .ok paired) (hj : paired[j]? = some token) {c : Nat}
    (hc : Closes (kindsOf paired) j c)
    (hk : token.kind = .openParen ∨ token.kind = .openSquare ∨ token.kind = .openAttribute) :
    token.nextIndex j = ((c + 1 : Nat) : Int) := by
  obtain ⟨hlt, opener, closer, ho, -, -, hlink, -⟩ := (partners_iff h).2 hc
  obtain rfl := Option.some.inj (hj.symm.trans ho)
  have hcloser : token.nestedCloser = some (c : Int) := by
    rcases hk with hk | hk | hk
    · simp [Token.nestedCloser, hk, show token.parens = .between j c by simpa [Token.bracketLink, hk] using hlink,
        Link.between]
    · simp [Token.nestedCloser, hk, show token.brackets = .between j c by simpa [Token.bracketLink, hk] using hlink,
        Link.between]
    · simp [Token.nestedCloser, hk, show token.brackets = .between j c by simpa [Token.bracketLink, hk] using hlink,
        Link.between]
  rw [Token.nextIndex, hcloser]
  dsimp only
  rw [if_pos (by omega)]
  omega

theorem nextIndex_of_other (hparen : token.kind ≠ .openParen) (hsquare : token.kind ≠ .openSquare)
    (hattribute : token.kind ≠ .openAttribute) : token.nextIndex j = ((j + 1 : Nat) : Int) := by
  have hnone : token.nestedCloser = none := by
    unfold Token.nestedCloser
    split
    · next hk => exact absurd hk hparen
    · next hk => exact absurd hk hsquare
    · next hk => exact absurd hk hattribute
    · rfl
  rw [Token.nextIndex, hnone]
  rfl

end Paired

/-- The brackets of a list that open before the index are closed before it, braces apart. -/
def ClosedBefore (kinds : List Kind) (po j : Nat) : Prop :=
  ∀ o c, Closes kinds o c → kinds[o]? ≠ some .openBrace → po < o → o < j → c < j

namespace ClosedBefore

variable {kinds : List Kind} {po j c : Nat}

theorem start (kinds : List Kind) (po : Nat) : ClosedBefore kinds po (po + 1) := by
  intro o c _ _ hpo hlt
  omega

/-- Past a token that opens no bracket, or a brace. -/
theorem step (h : ClosedBefore kinds po j) (hk : ∀ c, Closes kinds j c → kinds[j]? = some .openBrace) :
    ClosedBefore kinds po (j + 1) := by
  intro o c hc hbrace hpo hlt
  have hne : o ≠ j := by
    rintro rfl
    exact hbrace (hk c hc)
  exact Nat.lt_succ_of_lt (h o c hc hbrace hpo (by omega))

/-- Past brackets and all that is in them. -/
theorem jump (h : ClosedBefore kinds po j) (hc : Closes kinds j c) : ClosedBefore kinds po (c + 1) := by
  intro o c' hc' hbrace hpo hlt
  have hjc := hc.lt
  have hne : o ≠ c := by
    rintro rfl
    exact hc'.opener.not_closesAt hc.closer
  rcases Nat.lt_trichotomy o j with hbefore | rfl | hbehind
  · have hend := h o c' hc' hbrace hpo hbefore
    omega
  · rw [hc'.closer_unique hc]
    exact Nat.lt_succ_self c
  · have hend := hc.nested hc' hbehind (by omega)
    omega

end ClosedBefore

namespace Stream

variable {tokens : List Token} {stream : Stream} {po pc j : Nat} {token : Token}

theorem not_inNested_of_closedBefore (h : pair tokens = .ok stream.toList)
    (hclosed : ClosedBefore (kindsOf stream.toList) po j) : ¬ InNested stream.toList po pc j := by
  rintro ⟨o, hoj, c, -, hpo, hjc, hp, hbrace⟩
  have hend := hclosed o c ((partners_iff h).1 hp) hbrace hpo hoj
  omega

/-- Past a token that is no comma: a list goes on with its brackets closed, and nothing on the way separates. -/
theorem exists_nextIndex (h : pair tokens = .ok stream.toList) (hlist : Closes (kindsOf stream.toList) po pc)
    (hj : stream.toList[j]? = some token) (hpo : po < j) (hpc : j < pc)
    (hclosed : ClosedBefore (kindsOf stream.toList) po j) (hk : token.kind ≠ .comma) :
    ∃ next : Nat, token.nextIndex j = next ∧ j < next ∧ next ≤ pc ∧
      ClosedBefore (kindsOf stream.toList) po next ∧ ∀ k, j ≤ k → k < next → ¬ Separates stream.toList po pc k := by
  have hkind := kindsOf_getElem? hj
  by_cases hopens : token.kind = .openParen ∨ token.kind = .openSquare ∨ token.kind = .openAttribute
  · have hsome : token.kind.closedBy.isSome = true := by
      rcases hopens with hk | hk | hk
      · rw [hk]
        rfl
      · rw [hk]
        rfl
      · rw [hk]
        rfl
    obtain ⟨-, -, -, hall⟩ := exists_pairsOf h
    obtain ⟨c, hc⟩ := hall.opened j ⟨token.kind, hkind, hsome⟩
    have hjc := hc.lt
    have hcpc := hlist.nested hc hpo hpc
    refine ⟨c + 1, nextIndex_of_closes h hj hc hopens, by omega, hcpc, hclosed.jump hc, ?_⟩
    rintro k hjk hkc ⟨hcomma, hout⟩
    have hfirst : j ≠ k := by
      rintro rfl
      exact hk (Option.some.inj (hkind.symm.trans hcomma))
    have hlast : k ≠ c := by
      rintro rfl
      have hcloses := (closesAt_iff hcomma).1 hc.closer
      cases hcloses
    refine hout ⟨j, by omega, c, hcpc, hpo, by omega, (partners_iff h).2 hc, ?_⟩
    rw [hkind]
    rcases hopens with hk | hk | hk
    · simp [hk]
    · simp [hk]
    · simp [hk]
  · simp only [not_or] at hopens
    refine ⟨j + 1, nextIndex_of_other hopens.1 hopens.2.1 hopens.2.2, Nat.lt_succ_self j, hpc, ?_, ?_⟩
    · refine hclosed.step fun c hc => ?_
      -- the only opening bracket that is left is a brace
      have hsome := (opensAt_iff hkind).1 hc.opener
      rw [hkind]
      revert hopens hsome
      cases token.kind <;> simp [Kind.closedBy]
    · rintro k hjk hkj ⟨hcomma, -⟩
      obtain rfl : j = k := by omega
      exact hk (Option.some.inj (hkind.symm.trans hcomma))

/-- Cutting a list at its commas cuts it where they separate. -/
theorem segments_eq (h : pair tokens = .ok stream.toList) (hlist : Closes (kindsOf stream.toList) po pc) (j : Nat)
    (hpo : po < j) (hpc : j ≤ pc) (hclosed : ClosedBefore (kindsOf stream.toList) po j) :
    stream.segments pc j = .ok (((List.range' j (pc - j)).splitOnP fun k =>
      decide (Separates stream.toList po pc k)).map (·.map fun n : Nat => (n : Int))) := by
  rw [segments]
  rcases Nat.lt_or_ge j pc with hlt | hge
  · have hsize : pc < stream.size := by
      have := hlist.closer.lt_length
      simpa using this
    obtain ⟨token, ht⟩ := exists_token_at (show j < stream.size by omega)
    have ht' : stream.toList[j]? = some token := by rwa [Array.getElem?_toList]
    rw [dif_pos (by omega), fetch_at ht]
    simp only [bind, Except.bind, pure, Except.pure]
    by_cases hk : token.kind = .comma
    · have hkind : (kindsOf stream.toList)[j]? = some .comma := by rw [kindsOf_getElem? ht', hk]
      have hstep : ClosedBefore (kindsOf stream.toList) po (j + 1) := by
        refine hclosed.step fun c hc => ?_
        have hopens := (opensAt_iff hkind).1 hc.opener
        cases hopens
      have hnext := segments_eq h hlist (j + 1) (by omega) hlt hstep
      have hseparates : Separates stream.toList po pc j := ⟨hkind, not_inNested_of_closedBefore h hclosed⟩
      have hrange : List.range' j (pc - j) = j :: List.range' (j + 1) (pc - (j + 1)) := by
        rw [show pc - j = (pc - (j + 1)) + 1 by omega, List.range'_succ]
      rw [if_pos (by simpa using hk), show (j : Int) + 1 = ((j + 1 : Nat) : Int) by omega, hnext, hrange,
        List.splitOnP_cons_eq_if_modifyHead, if_pos (decide_eq_true hseparates)]
      rfl
    · obtain ⟨next, hindex, hjn, hnpc, hclosed', hnone⟩ := exists_nextIndex h hlist ht' hpo hlt hclosed hk
      have hrest := segments_eq h hlist next (by omega) hnpc hclosed'
      have hrange : List.range' j (pc - j) = List.range' j (next - j) ++ List.range' next (pc - next) := by
        have happend := @List.range'_append j (next - j) (pc - next) 1
        rw [Nat.one_mul, show j + (next - j) = next by omega, show next - j + (pc - next) = pc - j by omega] at happend
        exact happend.symm
      have hfront : ∀ k ∈ List.range' j (next - j), decide (Separates stream.toList po pc k) = false := by
        intro k hm
        have hk := List.mem_range'_1.1 hm
        exact decide_eq_false (hnone k hk.1 (by omega))
      rw [if_neg (by simpa using hk), hindex, hrest, hrange, splitOnP_append_of_forall hfront, indices_eq_range']
      obtain ⟨first, rest, hsplit⟩ := List.exists_cons_of_ne_nil (List.splitOnP_ne_nil
        (fun k => decide (Separates stream.toList po pc k)) (List.range' next (pc - next)))
      simp [hsplit, extendSegment]
  · obtain rfl : j = pc := Nat.le_antisymm hpc hge
    rw [dif_neg (by omega), Nat.sub_self]
    rfl
termination_by pc - j

end Stream

/-! ## Reading a segment -/

/-- From the index `j` on, `last` is the end of what is covered by the attributes of the list that open before `j`. -/
def AttributeEnd (kinds : List Kind) (po pc j : Nat) (last : Int) : Prop :=
  ∀ k : Nat, j ≤ k → k < pc → ((k : Int) ≤ last ↔
    ∃ o c, Closes kinds o c ∧ kinds[o]? = some .openAttribute ∧ po < o ∧ o < j ∧ k ≤ c)

namespace AttributeEnd

variable {kinds : List Kind} {po pc j c : Nat} {last : Int}

/-- Past a token that opens no attribute, or that an attribute covers. -/
theorem step (h : AttributeEnd kinds po pc j last)
    (hj : kinds[j]? = some .openAttribute → j < pc ∧ (j : Int) ≤ last) : AttributeEnd kinds po pc (j + 1) last := by
  intro k hjk hkpc
  rw [h k (by omega) hkpc]
  constructor
  · rintro ⟨o, c, hc, hattribute, hpo, hoj, hkc⟩
    exact ⟨o, c, hc, hattribute, hpo, by omega, hkc⟩
  · rintro ⟨o, c, hc, hattribute, hpo, hoj, hkc⟩
    rcases Nat.eq_or_lt_of_le (Nat.le_of_lt_succ hoj) with rfl | hlt
    · -- an attribute in an attribute ends with it, or before
      obtain ⟨hopc, hlast⟩ := hj hattribute
      obtain ⟨o', c', hc', hattribute', hpo', hoo', hle⟩ := (h o (Nat.le_refl o) hopc).1 hlast
      have hne : o ≠ c' := by
        rintro rfl
        exact hc.opener.not_closesAt hc'.closer
      have hinside := hc'.nested hc hoo' (by omega)
      exact ⟨o', c', hc', hattribute', hpo', hoo', by omega⟩
    · exact ⟨o, c, hc, hattribute, hpo, hlt, hkc⟩

/-- Into an attribute. -/
theorem enter (h : AttributeEnd kinds po pc j last) (hpo : po < j) (hpc : j < pc) (hc : Closes kinds j c)
    (hattribute : kinds[j]? = some .openAttribute) (hout : ¬ (j : Int) ≤ last) :
    AttributeEnd kinds po pc (j + 1) c := by
  intro k hjk hkpc
  constructor
  · intro hle
    exact ⟨j, c, hc, hattribute, hpo, Nat.lt_succ_self j, by omega⟩
  · rintro ⟨o, c', hc', hattribute', hpo', hoj, hkc⟩
    rcases Nat.eq_or_lt_of_le (Nat.le_of_lt_succ hoj) with rfl | hlt
    · rw [hc.closer_unique hc']
      omega
    · exact absurd ((h j (Nat.le_refl j) hpc).2 ⟨o, c', hc', hattribute', hpo', hlt, by omega⟩) hout

end AttributeEnd

section Segment

variable {tokens : List Token} {po pc j : Nat} {rest : List Nat}

theorem declared?_cons_of_not (h : ¬ Declares tokens po pc j) :
    declared? tokens po pc (j :: rest) = declared? tokens po pc rest := by
  rw [declared?, List.find?_cons_of_neg (by simpa using h)]
  rfl

theorem declared?_cons_of_declares (h : Declares tokens po pc j) :
    declared? tokens po pc (j :: rest) = some j := by
  rw [declared?, List.find?_cons_of_pos (by simpa using h)]

theorem hintOf_cons_of_not (h : ¬ Declares tokens po pc j) :
    hintOf tokens po pc (j :: rest) =
      (if TypePart tokens po pc j then contentAt tokens j else []) ++ hintOf tokens po pc rest := by
  rw [hintOf, beforeDeclared, List.takeWhile_cons_of_pos (by simpa using h)]
  by_cases hpart : TypePart tokens po pc j
  · rw [if_pos hpart, List.filter_cons_of_pos (by simpa using hpart), List.flatMap_cons]
    rfl
  · rw [if_neg hpart, List.filter_cons_of_neg (by simpa using hpart)]
    rfl

theorem hintOf_cons_of_declares (h : Declares tokens po pc j) : hintOf tokens po pc (j :: rest) = [] := by
  rw [hintOf, beforeDeclared, List.takeWhile_cons_of_neg (by simpa using h)]
  rfl

end Segment

namespace Stream

variable {tokens : List Token} {stream : Stream} {po pc j : Nat} {last : Int}

/-- A token is in an attribute if it is not behind the end of the attributes before it, or opens one. -/
theorem inAttribute_iff (h : pair tokens = .ok stream.toList) (hlist : Closes (kindsOf stream.toList) po pc)
    (hpo : po < j) (hpc : j < pc) (hend : AttributeEnd (kindsOf stream.toList) po pc j last) :
    InAttribute stream.toList po pc j ↔
      (j : Int) ≤ last ∨ (kindsOf stream.toList)[j]? = some .openAttribute := by
  constructor
  · rintro ⟨o, hoj, c, -, hpo', hjc, hp, hattribute⟩
    rcases Nat.eq_or_lt_of_le (Nat.le_of_lt_succ hoj) with rfl | hlt
    · exact Or.inr hattribute
    · exact Or.inl ((hend j (Nat.le_refl j) hpc).2 ⟨o, c, (partners_iff h).1 hp, hattribute, hpo', hlt, hjc⟩)
  · rintro (hle | hattribute)
    · obtain ⟨o, c, hc, hattribute, hpo', hoj, hjc⟩ := (hend j (Nat.le_refl j) hpc).1 hle
      exact ⟨o, by omega, c, hlist.nested hc hpo' (by omega), hpo', hjc, (partners_iff h).2 hc, hattribute⟩
    · obtain ⟨-, -, -, hall⟩ := exists_pairsOf h
      obtain ⟨c, hc⟩ := hall.opened j ⟨_, hattribute, rfl⟩
      have hlt := hc.lt
      exact ⟨j, by omega, c, hlist.nested hc hpo hpc, hpo, by omega, (partners_iff h).2 hc, hattribute⟩

section Read

variable {token : Token} {rest : List Int} {hint : Text} (ht : stream[j]? = some token)
include ht

theorem parameterFrom_covered (hle : (j : Int) ≤ last) :
    stream.parameterFrom last hint (j :: rest) = stream.parameterFrom last hint rest := by
  rw [parameterFrom, fetch_at ht]
  simp only [bind, Except.bind]
  rw [if_pos hle]

variable (hout : ¬ (j : Int) ≤ last)
include hout

theorem parameterFrom_attribute (h : pair tokens = .ok stream.toList) (hk : token.kind = .openAttribute) {c : Nat}
    (hc : Closes (kindsOf stream.toList) j c) :
    stream.parameterFrom last hint (j :: rest) = stream.parameterFrom c hint rest := by
  obtain ⟨-, opener, -, ho, -, -, hlink, -⟩ := (partners_iff h).2 hc
  rw [Array.getElem?_toList] at ho
  obtain rfl := Option.some.inj (ht.symm.trans ho)
  have hbrackets : token.brackets = .between j c := by simpa [Token.bracketLink, hk] using hlink
  rw [parameterFrom, fetch_at ht]
  simp only [bind, Except.bind, hk, hbrackets]
  rw [if_neg hout]
  rfl

theorem parameterFrom_variable (hk : token.kind = .variableName) :
    stream.parameterFrom last hint (j :: rest) = .ok (some ⟨token.content, j, hint⟩) := by
  rw [parameterFrom, fetch_at ht]
  simp only [bind, Except.bind, hk]
  rw [if_neg hout]

/-- A token behind the attributes that neither opens one nor is a variable. -/
theorem parameterFrom_other (hattribute : token.kind ≠ .openAttribute) (hvariable : token.kind ≠ .variableName) :
    stream.parameterFrom last hint (j :: rest) =
      stream.parameterFrom last (hint ++ if token.kind.isTypePart then token.content else []) rest := by
  rw [parameterFrom, fetch_at ht]
  simp only [bind, Except.bind]
  rw [if_neg hout]
  split
  · next hk => exact absurd hk hattribute
  · next hk => exact absurd hk hvariable
  · next hk => simp [Kind.isTypePart, hk]
  · next hk => simp [Kind.isTypePart, hk]
  · next hampersand hellipsis =>
    split
    · next hsilent =>
      have hnone : token.kind.isTypePart = false := by
        rcases Bool.or_eq_true_iff.1 hsilent with hs | hs
        · simp [Kind.isTypePart, hs]
        · simp [Kind.isTypePart, hs]
      simp [hnone]
    · next hsilent =>
      obtain ⟨hs, hm⟩ := not_or.1 (mt Bool.or_eq_true_iff.2 hsilent)
      have hpart : token.kind.isTypePart = true := by
        simp only [Kind.isTypePart, Bool.and_eq_true, Bool.not_eq_true', bne_iff_ne]
        exact ⟨⟨⟨by simpa using hs, by simpa using hm⟩, hampersand⟩, hellipsis⟩
      simp [hpart]

end Read

/-- Reading a stretch of a list gives the variable that it declares, and the type before it. -/
theorem parameterFrom_eq (h : pair tokens = .ok stream.toList) (hlist : Closes (kindsOf stream.toList) po pc)
    (n : Nat) (hpo : po < j) (hpc : j + n ≤ pc) (hend : AttributeEnd (kindsOf stream.toList) po pc j last)
    (hint : Text) :
    stream.parameterFrom last hint ((List.range' j n).map fun k : Nat => (k : Int)) =
      .ok ((declared? stream.toList po pc (List.range' j n)).map fun k =>
        ⟨contentAt stream.toList k, k, hint ++ hintOf stream.toList po pc (List.range' j n)⟩) := by
  induction n generalizing j last hint with
  | zero => rfl
  | succ n ih =>
    have hsize : pc < stream.size := by
      have := hlist.closer.lt_length
      simpa using this
    obtain ⟨token, ht⟩ := exists_token_at (show j < stream.size by omega)
    have ht' : stream.toList[j]? = some token := by rwa [Array.getElem?_toList]
    have hkind := kindsOf_getElem? ht'
    have hcontent : contentAt stream.toList j = token.content := by rw [contentAt, ht']; rfl
    have hin := inAttribute_iff h hlist hpo (by omega) hend
    rw [List.range'_succ, List.map_cons]
    by_cases hle : (j : Int) ≤ last
    · have hnot : ¬ Declares stream.toList po pc j := fun hd => hd.2 (hin.2 (Or.inl hle))
      have hpart : ¬ TypePart stream.toList po pc j := fun hp => hp.2 (hin.2 (Or.inl hle))
      rw [parameterFrom_covered ht hle, ih (by omega) (by omega) (hend.step fun _ => ⟨by omega, hle⟩),
        declared?_cons_of_not hnot, hintOf_cons_of_not hnot, if_neg hpart, List.nil_append]
    by_cases hattribute : token.kind = .openAttribute
    · rw [hattribute] at hkind
      have hnot : ¬ Declares stream.toList po pc j := fun hd => hd.2 (hin.2 (Or.inr hkind))
      have hpart : ¬ TypePart stream.toList po pc j := fun hp => hp.2 (hin.2 (Or.inr hkind))
      obtain ⟨-, -, -, hall⟩ := exists_pairsOf h
      obtain ⟨c, hc⟩ := hall.opened j ⟨_, hkind, rfl⟩
      rw [parameterFrom_attribute ht hle h hattribute hc,
        ih (by omega) (by omega) (hend.enter hpo (by omega) hc hkind hle), declared?_cons_of_not hnot,
        hintOf_cons_of_not hnot, if_neg hpart, List.nil_append]
    have hout : ¬ InAttribute stream.toList po pc j := by
      rw [hin, hkind]
      rintro (hle' | hopens)
      · exact hle hle'
      · exact hattribute (Option.some.inj hopens)
    by_cases hvariable : token.kind = .variableName
    · have hdeclares : Declares stream.toList po pc j := ⟨by rw [hkind, hvariable], hout⟩
      rw [parameterFrom_variable ht hle hvariable, declared?_cons_of_declares hdeclares,
        hintOf_cons_of_declares hdeclares, List.append_nil, Option.map_some, hcontent]
    · have hnot : ¬ Declares stream.toList po pc j := by
        rintro ⟨hd, -⟩
        exact hvariable (Option.some.inj (hkind.symm.trans hd))
      have hpart : TypePart stream.toList po pc j ↔ token.kind.isTypePart = true := by
        rw [TypePart, hkind, Option.any_some]
        exact and_iff_left hout
      have hstep := hend.step fun hopens => absurd (Option.some.inj (hkind.symm.trans hopens)) hattribute
      rw [parameterFrom_other ht hle hattribute hvariable, ih (by omega) (by omega) hstep,
        declared?_cons_of_not hnot, hintOf_cons_of_not hnot, hcontent, List.append_assoc]
      simp only [hpart]

/-! ## Whole lists -/

/-- A segment starts outside the attributes of the list that open before it. -/
theorem attributeEnd_of_mem (h : pair tokens = .ok stream.toList) (hlist : Closes (kindsOf stream.toList) po pc)
    {segment : List Nat} (hm : segment ∈ segmentsBetween stream.toList po pc) :
    ∃ s n, segment = List.range' s n ∧ po < s ∧ s + n ≤ pc ∧
      AttributeEnd (kindsOf stream.toList) po pc s (-1) := by
  have hlt := hlist.lt
  obtain ⟨m, rest, hsplit, hle, hrest⟩ := splitOnP_range' (fun j => decide (Separates stream.toList po pc j))
    (po + 1) (pc - (po + 1))
  rw [segmentsBetween, hsplit] at hm
  rcases List.mem_cons.1 hm with rfl | hm
  · refine ⟨po + 1, m, rfl, by omega, by omega, fun k hk _ => iff_of_false (by omega) ?_⟩
    rintro ⟨o, c, -, -, hpo, ho, -⟩
    omega
  · obtain ⟨s, n, rfl, hs, hsn, hcomma⟩ := hrest segment hm
    obtain ⟨hkind, hout⟩ := of_decide_eq_true hcomma
    refine ⟨s, n, rfl, by omega, by omega, fun k hk _ => iff_of_false (by omega) ?_⟩
    -- an attribute around the start of the segment would be around the comma before it
    rintro ⟨o, c, hc, hattribute, hpo, ho, hkc⟩
    have hne : o ≠ s - 1 := by
      rintro rfl
      rw [hkind] at hattribute
      cases hattribute
    refine hout ⟨o, by omega, c, hlist.nested hc hpo (by omega), hpo, by omega, (partners_iff h).2 hc, ?_⟩
    rw [hattribute]
    decide

theorem parametersIn_eq {segments : List (List Nat)}
    (h : ∀ segment ∈ segments, stream.parameterFrom (-1) [] (segment.map fun k : Nat => (k : Int)) =
      .ok (parameterOf? stream.toList po pc segment)) :
    stream.parametersIn (segments.map (·.map fun k : Nat => (k : Int))) =
      .ok (segments.filterMap (parameterOf? stream.toList po pc)) := by
  induction segments with
  | nil => rfl
  | cons segment rest ih =>
    rw [List.map_cons, parametersIn, h segment List.mem_cons_self,
      ih fun later hm => h later (List.mem_cons_of_mem _ hm), List.filterMap_cons]
    cases parameterOf? stream.toList po pc segment with
    | none => rfl
    | some parameter => rfl

/-- The parameters of a function are those that are read from the segments of its list. -/
theorem parameters_eq {source : Text} {i : Nat} {token : Token} (h : ofSource source = .ok stream)
    (hi : stream[i]? = some token) (hk : token.kind = .function ∨ token.kind = .closure)
    (hparens : token.parens = .between po pc) :
    Closes (kindsOf stream.toList) po pc ∧ stream.parameters i =
      .ok ((segmentsBetween stream.toList po pc).filterMap (parameterOf? stream.toList po pc)) := by
  have hpair := (ofSource_eq_ok.1 h).2
  have hfinds := (parens_eq_between hpair (by rwa [Array.getElem?_toList]) hk).1 hparens
  have hlist : Closes (kindsOf stream.toList) po pc := hfinds.closes
  have hsegments := segments_eq hpair hlist (po + 1) (Nat.lt_succ_self po) hlist.lt (.start _ po)
  refine ⟨hlist, ?_⟩
  rw [Stream.parameters, fetch_at hi]
  have hkind : (token.kind != .function && token.kind != .closure) = false := by
    rcases hk with hk | hk
    · simp [hk]
    · simp [hk]
  simp only [bind, Except.bind, hkind, hparens, Link.between]
  rw [if_neg Bool.false_ne_true, show (po : Int) + 1 = ((po + 1 : Nat) : Int) by omega, hsegments]
  refine parametersIn_eq fun segment hm => ?_
  obtain ⟨s, n, rfl, hpo, hpc, hend⟩ := attributeEnd_of_mem hpair hlist hm
  exact parameterFrom_eq hpair hlist n hpo hpc hend []

/-- The parameters of a function or closure, read from its list.

* There is one for each segment of the list that has a variable outside attributes, in the order of the segments. The
  first such variable names it. The segments are what lies between the commas that are in no brackets of the list,
  braces apart.
* The variables stand in the list, one behind the other. -/
theorem parameters_exact {source : Text} {i : Nat} {token : Token} (h : ofSource source = .ok stream)
    (hi : stream[i]? = some token) (hk : token.kind = .function ∨ token.kind = .closure)
    (hparens : token.parens = .between po pc) :
    ∃ parameters, stream.parameters i = .ok parameters ∧
      parameters.map (fun parameter => (parameter.name, parameter.index)) =
        ((segmentsBetween stream.toList po pc).filterMap (declared? stream.toList po pc)).map
          (fun k => (contentAt stream.toList k, (k : Int))) ∧
      (parameters.map (·.index)).Pairwise (· < ·) ∧
      ∀ parameter ∈ parameters, (po : Int) < parameter.index ∧ parameter.index < pc := by
  obtain ⟨-, hread⟩ := parameters_eq h hi hk hparens
  have hindices : ((segmentsBetween stream.toList po pc).filterMap (parameterOf? stream.toList po pc)).map
      (·.index) = ((segmentsBetween stream.toList po pc).filterMap (declared? stream.toList po pc)).map
        fun k : Nat => (k : Int) := by
    simp only [List.map_filterMap, parameterOf?, Option.map_map]
    rfl
  refine ⟨_, hread, ?_, ?_, fun parameter hm => ?_⟩
  · simp only [List.map_filterMap, parameterOf?, Option.map_map]
    rfl
  · rw [hindices, List.pairwise_map]
    exact (declared_ordered stream.toList po pc).imp fun hlt => by omega
  · obtain ⟨segment, hsegment, hparameter⟩ := List.mem_filterMap.1 hm
    obtain ⟨k, hk', rfl⟩ := Option.map_eq_some_iff.1 hparameter
    have hin := mem_segmentsBetween hsegment (List.mem_of_find?_eq_some hk')
    dsimp only
    omega

/-- A variable and a comma in an attribute, commas in a default, a comma at the end. -/
def listedParameters : Text :=
  "<?php function f(#[A($v, 1)] int $a = [1, g(2, 3)], B|C &...$b,) \x7b\x7d".toList

/-- Three segments, of which the last declares nothing. -/
theorem parameters_exact_listed :
    ∃ stream, ofSource listedParameters = .ok stream ∧
      ∃ token : Token, stream[2]? = some token ∧ token.kind = .function ∧ token.parens = .between 5 44 ∧
        segmentsBetween stream.toList 5 44 = [List.range' 6 28, List.range' 35 8, []] ∧
        ∃ parameters, stream.parameters (2 : Nat) = .ok parameters ∧
          parameters.map (fun parameter => (parameter.name, parameter.index)) =
            [("$a".toList, 18), ("$b".toList, 42)] := by
  have hrun : (ofSource listedParameters).toOption.any (fun stream =>
      stream[2]?.any (fun token => token.kind = .function ∧ token.parens = .between 5 44) &&
        segmentsBetween stream.toList 5 44 == [List.range' 6 28, List.range' 35 8, []] &&
        (([List.range' 6 28, List.range' 35 8, []].filterMap (declared? stream.toList 5 44)).map fun k =>
          (contentAt stream.toList k, (k : Int))) == [("$a".toList, 18), ("$b".toList, 42)]) = true := by
    decide +kernel
  obtain ⟨stream, h, hat⟩ := exists_eq_ok_of_any hrun
  simp only [Bool.and_eq_true, Option.any_eq_true, decide_eq_true_eq, beq_iff_eq] at hat
  obtain ⟨⟨⟨token, hi, hk, hparens⟩, hsegments⟩, hdeclared⟩ := hat
  obtain ⟨parameters, hread, hnames, -⟩ := parameters_exact h hi (Or.inl hk) hparens
  rw [hsegments, hdeclared] at hnames
  exact ⟨stream, h, token, hi, hk, hparens, hsegments, parameters, hread, hnames⟩

end Stream

end DocLint
