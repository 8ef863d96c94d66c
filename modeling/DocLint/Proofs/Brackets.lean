import DocLint.Proofs.Balance
import DocLint.Proofs.Pairing

/-!
# Matching brackets

Matching reads the tokens from left to right with a stack of the brackets that are open. The invariant
is that the brackets between one open bracket and the next, and between the last one and the place
that is reached, are balanced (`Pending`). So the bracket on top of the stack is the only one that the
next closing bracket can close, and a closing bracket that does not fit it closes nothing at all.

Matching therefore finds exactly the pairs of `Closes` (`matchBrackets_outcome`), and it fails exactly
if the brackets are not balanced.
-/

namespace DocLint

/-- The kinds of tokens. -/
def kindsOf (tokens : List Token) : List Kind := tokens.map (·.kind)

theorem kindsOf_getElem? {tokens : List Token} {i : Nat} {token : Token}
    (h : tokens[i]? = some token) : (kindsOf tokens)[i]? = some token.kind := by
  rw [kindsOf, List.getElem?_map, h, Option.map_some]

@[simp] theorem kindsOf_length (tokens : List Token) : (kindsOf tokens).length = tokens.length :=
  List.length_map _

/-! ## The invariant -/

/-- The stack holds the brackets that are open before `index`, the innermost first. -/
def Pending (tokens : List Token) : (index : Nat) → (stack : List (Nat × Token)) → Prop
  | index, [] => Balanced (brackets ((kindsOf tokens).take index))
  | index, (o, token) :: stack =>
    o < index ∧ tokens[o]? = some token ∧ token.kind.closedBy.isSome = true ∧
      Balanced (brackets (between (kindsOf tokens) o index)) ∧ Pending tokens o stack

namespace Pending

variable {tokens : List Token} {index o : Nat} {stack : List (Nat × Token)} {token last : Token}

/-- A token that is no bracket leaves the stack as it is. -/
theorem skip (h : Pending tokens index stack) (ht : tokens[index]? = some token)
    (hb : token.kind.isBracket = false) : Pending tokens (index + 1) stack := by
  have hk := kindsOf_getElem? ht
  cases stack with
  | nil =>
    show Balanced _
    rw [List.take_add_one, hk, Option.toList_some, brackets_append, brackets_cons_other hb,
      brackets_nil, List.append_nil]
    exact h
  | cons entry stack =>
    obtain ⟨o, last⟩ := entry
    obtain ⟨hlt, hl, hs, hbal, hrest⟩ := h
    refine ⟨Nat.lt_succ_of_lt hlt, hl, hs, ?_, hrest⟩
    rw [between_succ hlt hk, brackets_append, brackets_cons_other hb, brackets_nil, List.append_nil]
    exact hbal

/-- An opening bracket goes onto the stack. -/
theorem push (h : Pending tokens index stack) (ht : tokens[index]? = some token)
    (hs : token.kind.closedBy.isSome = true) :
    Pending tokens (index + 1) ((index, token) :: stack) := by
  refine ⟨Nat.lt_succ_self index, ht, hs, ?_, h⟩
  rw [between_self]
  exact .nil

/-- A closing bracket that fits takes the innermost bracket from the stack. -/
theorem pop (h : Pending tokens index ((o, last) :: stack)) (ht : tokens[index]? = some token)
    (hp : last.kind.closedBy = some token.kind) : Pending tokens (index + 1) stack := by
  obtain ⟨hlt, hl, hs, hbal, hrest⟩ := h
  have hk := kindsOf_getElem? ht
  have hko := kindsOf_getElem? hl
  have hbo : last.kind.isBracket = true := by simp [Kind.isBracket, hs]
  have hbc : token.kind.isBracket = true := by simp [Kind.isBracket, Kind.closedBy_isCloser hp]
  -- the pair that is closed now, with what is inside
  have hpair : Balanced (brackets (last.kind :: (between (kindsOf tokens) o index ++ [token.kind]))) := by
    rw [brackets_cons_bracket hbo, brackets_append, brackets_cons_bracket hbc, brackets_nil]
    exact .wrap hp hbal .nil
  cases stack with
  | nil =>
    show Balanced _
    rw [List.take_add_one, hk, Option.toList_some, take_eq_append_between hlt hko, List.append_assoc,
      brackets_append]
    exact Balanced.append hrest hpair
  | cons entry stack =>
    obtain ⟨o', outer⟩ := entry
    obtain ⟨hlt', hl', hs', hbal', hrest'⟩ := hrest
    refine ⟨by omega, hl', hs', ?_, hrest'⟩
    rw [between_succ (by omega) hk, between_eq_append hlt' hlt hko, List.append_assoc, brackets_append]
    exact hbal'.append hpair

/-- The innermost open bracket is closed by a closing bracket that fits it. -/
theorem closes (h : Pending tokens index ((o, last) :: stack)) (ht : tokens[index]? = some token)
    (hp : last.kind.closedBy = some token.kind) : Closes (kindsOf tokens) o index := by
  obtain ⟨hlt, hl, -, hbal, -⟩ := h
  exact ⟨hlt, ⟨last.kind, token.kind, kindsOf_getElem? hl, kindsOf_getElem? ht, hp⟩, hbal⟩

/-- With nothing open, no bracket before the index is closed at it. -/
theorem not_closes_nil (h : Pending tokens index []) : ¬ Closes (kindsOf tokens) o index := by
  intro hc
  have hd : depthAt (kindsOf tokens) index = 0 := by
    rw [depthAt, ← depth_brackets]
    exact Balanced.depth_eq_zero h
  have ho : 0 ≤ depthAt (kindsOf tokens) o := by
    rw [depthAt, ← depth_brackets]
    exact Balanced.depth_prefix h ((List.take_prefix_take_left (Nat.le_of_lt hc.lt)).filter _)
  have := hc.depthAt_closer
  omega

/-- The depth is one more than before the innermost open bracket, and never less since. -/
theorem depthAt_top (h : Pending tokens index ((o, last) :: stack)) :
    depthAt (kindsOf tokens) index = depthAt (kindsOf tokens) o + 1 ∧
      ∀ i, o < i → i ≤ index → depthAt (kindsOf tokens) o + 1 ≤ depthAt (kindsOf tokens) i := by
  obtain ⟨hlt, hl, hs, hbal, -⟩ := h
  have hko := kindsOf_getElem? hl
  have hw := Kind.weight_opener hs
  refine ⟨?_, fun i hi hle => ?_⟩
  · have hz := hbal.depth_eq_zero
    rw [depth_brackets] at hz
    rw [depthAt_between hlt hko, hw, hz, Int.add_zero]
  · have := depthAt_le_of_balanced hbal hko hi hle
    omega

/-- Only the innermost open bracket can be closed at the index. -/
theorem eq_top_of_closes (h : Pending tokens index ((o, last) :: stack)) {o' : Nat}
    (hc : Closes (kindsOf tokens) o' index) : o' = o := by
  obtain ⟨htop, hmin⟩ := h.depthAt_top
  have hclose := hc.depthAt_closer
  rcases Nat.lt_trichotomy o' o with hlt | heq | hgt
  · have := hc.depthAt_inner hlt (Nat.le_of_lt h.1)
    omega
  · exact heq
  · have := hmin o' hgt (Nat.le_of_lt hc.lt)
    omega

/-- The stack holds earlier indices only. -/
theorem lt_of_mem (h : Pending tokens index stack) {entry : Nat × Token} (hm : entry ∈ stack) :
    entry.1 < index := by
  induction stack generalizing index with
  | nil => cases hm
  | cons top stack ih =>
    obtain ⟨o, last⟩ := top
    obtain ⟨hlt, -, -, -, hrest⟩ := h
    rcases List.mem_cons.1 hm with rfl | hm
    · exact hlt
    · exact Nat.lt_trans (ih hrest hm) hlt

end Pending

/-- What is known when matching has come to `index`: the open brackets are on the stack, and all other
brackets before the index have their partners. -/
structure Reading (tokens : List Token) (index : Nat) (stack : List (Nat × Token)) : Prop where
  pending : Pending tokens index stack
  closed : ∀ c < index, ClosesAt (kindsOf tokens) c → ∃ o, Closes (kindsOf tokens) o c
  opened : ∀ o < index, OpensAt (kindsOf tokens) o →
    (∃ token, (o, token) ∈ stack) ∨ ∃ c, Closes (kindsOf tokens) o c

namespace Reading

variable {tokens : List Token} {index o : Nat} {stack : List (Nat × Token)} {token last : Token}

theorem start (tokens : List Token) : Reading tokens 0 [] := by
  refine ⟨?_, fun c hc => absurd hc (Nat.not_lt_zero c), fun o ho => absurd ho (Nat.not_lt_zero o)⟩
  show Balanced _
  rw [List.take_zero]
  exact .nil

theorem skip (h : Reading tokens index stack) (ht : tokens[index]? = some token)
    (hb : token.kind.isBracket = false) : Reading tokens (index + 1) stack := by
  have hk := kindsOf_getElem? ht
  obtain ⟨hs, hc⟩ : token.kind.closedBy.isSome = false ∧ token.kind.isCloser = false := by
    simpa [Kind.isBracket] using hb
  refine ⟨h.pending.skip ht hb, fun c hlt hat => ?_, fun o hlt hat => ?_⟩
  · rcases Nat.lt_succ_iff_lt_or_eq.1 hlt with hlt | rfl
    · exact h.closed c hlt hat
    · rw [closesAt_iff hk, hc] at hat
      cases hat
  · rcases Nat.lt_succ_iff_lt_or_eq.1 hlt with hlt | rfl
    · exact h.opened o hlt hat
    · rw [opensAt_iff hk, hs] at hat
      cases hat

theorem push (h : Reading tokens index stack) (ht : tokens[index]? = some token)
    (hs : token.kind.closedBy.isSome = true) :
    Reading tokens (index + 1) ((index, token) :: stack) := by
  have hat : OpensAt (kindsOf tokens) index := (opensAt_iff (kindsOf_getElem? ht)).2 hs
  refine ⟨h.pending.push ht hs, fun c hlt hc => ?_, fun o hlt ho => ?_⟩
  · rcases Nat.lt_succ_iff_lt_or_eq.1 hlt with hlt | rfl
    · exact h.closed c hlt hc
    · exact absurd hc hat.not_closesAt
  · rcases Nat.lt_succ_iff_lt_or_eq.1 hlt with hlt | rfl
    · rcases h.opened o hlt ho with ⟨entry, hm⟩ | hc
      · exact Or.inl ⟨entry, List.mem_cons_of_mem _ hm⟩
      · exact Or.inr hc
    · exact Or.inl ⟨token, List.mem_cons_self⟩

theorem pop (h : Reading tokens index ((o, last) :: stack)) (ht : tokens[index]? = some token)
    (hp : last.kind.closedBy = some token.kind) : Reading tokens (index + 1) stack := by
  have hcloses := h.pending.closes ht hp
  refine ⟨h.pending.pop ht hp, fun c hlt hc => ?_, fun o' hlt ho => ?_⟩
  · rcases Nat.lt_succ_iff_lt_or_eq.1 hlt with hlt | rfl
    · exact h.closed c hlt hc
    · exact ⟨o, hcloses⟩
  · rcases Nat.lt_succ_iff_lt_or_eq.1 hlt with hlt | rfl
    · rcases h.opened o' hlt ho with ⟨entry, hm⟩ | hc
      · rcases List.mem_cons.1 hm with heq | hm
        · obtain ⟨rfl, -⟩ := Prod.mk.inj heq
          exact Or.inr ⟨index, hcloses⟩
        · exact Or.inl ⟨entry, hm⟩
      · exact Or.inr hc
    · exact absurd hcloses.closer ho.not_closesAt

end Reading

/-! ## Outcomes -/

/-- The token at `i` is the first closing bracket that closes nothing. -/
structure UnmatchedAt (tokens : List Token) (i : Nat) (token : Token) : Prop where
  token_at : tokens[i]? = some token
  isCloser : token.kind.isCloser = true
  no_opener : ∀ o, ¬ Closes (kindsOf tokens) o i
  first : ∀ c < i, ClosesAt (kindsOf tokens) c → ∃ o, Closes (kindsOf tokens) o c

/-- Every closing bracket closes something, and the token at `i` is the last opening bracket that is
never closed. -/
structure UnclosedAt (tokens : List Token) (i : Nat) (token : Token) : Prop where
  token_at : tokens[i]? = some token
  isOpener : token.kind.closedBy.isSome = true
  no_closer : ∀ c, ¬ Closes (kindsOf tokens) i c
  last : ∀ o, i < o → OpensAt (kindsOf tokens) o → ∃ c, Closes (kindsOf tokens) o c
  closed : ∀ c, ClosesAt (kindsOf tokens) c → ∃ o, Closes (kindsOf tokens) o c

/-- The fault of brackets that do not match: at the first closing bracket that closes nothing, and if
there is none, at the last opening bracket that is never closed. -/
def MatchFault (tokens : List Token) (error : LexError) : Prop :=
  (∃ i token, UnmatchedAt tokens i token ∧ error = token.error (.unmatched token.content)) ∨
    ∃ i token, UnclosedAt tokens i token ∧ error = token.error (.unclosed token.content)

/-- Every bracket has its partner. -/
structure AllMatched (kinds : List Kind) : Prop where
  balanced : Balanced (brackets kinds)
  opened : ∀ o, OpensAt kinds o → ∃ c, Closes kinds o c
  closed : ∀ c, ClosesAt kinds c → ∃ o, Closes kinds o c

/-- What matching may give from `index` on: all pairs that close there or later, or a fault. -/
def MatchOutcome (tokens : List Token) (index : Nat) : Except LexError (List Pair) → Prop
  | .ok pairs => AllMatched (kindsOf tokens) ∧
    ∀ o c, ⟨o, c⟩ ∈ pairs ↔ index ≤ c ∧ Closes (kindsOf tokens) o c
  | .error error => MatchFault tokens error

namespace MatchOutcome

variable {tokens : List Token} {index o : Nat} {result : Except LexError (List Pair)}

/-- A token that closes nothing adds no pair. -/
theorem of_not_closesAt (h : MatchOutcome tokens (index + 1) result)
    (hn : ¬ ClosesAt (kindsOf tokens) index) : MatchOutcome tokens index result := by
  cases result with
  | error error => exact h
  | ok pairs =>
    refine ⟨h.1, fun o c => (h.2 o c).trans ⟨fun hc => ⟨Nat.le_of_succ_le hc.1, hc.2⟩, ?_⟩⟩
    rintro ⟨hle, hc⟩
    refine ⟨Nat.lt_of_le_of_ne hle ?_, hc⟩
    rintro rfl
    exact hn hc.closer

/-- A closing bracket adds its pair. -/
theorem of_closes (h : MatchOutcome tokens (index + 1) result) (hc : Closes (kindsOf tokens) o index) :
    MatchOutcome tokens index (result.map (⟨o, index⟩ :: ·)) := by
  cases result with
  | error error => exact h
  | ok pairs =>
    refine ⟨h.1, fun o' c => ?_⟩
    rw [List.mem_cons, h.2 o' c, Pair.mk.injEq]
    constructor
    · rintro (⟨rfl, rfl⟩ | ⟨hle, hc'⟩)
      · exact ⟨Nat.le_refl _, hc⟩
      · exact ⟨Nat.le_of_succ_le hle, hc'⟩
    · rintro ⟨hle, hc'⟩
      rcases Nat.eq_or_lt_of_le hle with rfl | hlt
      · exact Or.inl ⟨hc'.opener_unique hc, rfl⟩
      · exact Or.inr ⟨hlt, hc'⟩

end MatchOutcome

theorem matchFrom_cons (index : Nat) (stack : List (Nat × Token)) (token : Token)
    (rest : List Token) :
    matchFrom index stack (token :: rest) =
      if token.kind.closedBy.isSome then matchFrom (index + 1) ((index, token) :: stack) rest
      else if token.kind.isCloser then
        match stack with
        | [] => .error (token.error (.unmatched token.content))
        | (opener, last) :: stack =>
          if last.kind.closedBy = some token.kind then
            (matchFrom (index + 1) stack rest).map (⟨opener, index⟩ :: ·)
          else .error (token.error (.unmatched token.content))
      else matchFrom (index + 1) stack rest := by
  cases stack <;> rfl

/-- At the end of the tokens, the last bracket that is still open is the fault. -/
theorem Reading.unclosedAt {tokens : List Token} {index o : Nat} {stack : List (Nat × Token)}
    {last : Token} (h : Reading tokens index ((o, last) :: stack)) (hend : tokens.length ≤ index) :
    UnclosedAt tokens o last := by
  rw [← kindsOf_length] at hend
  have hp := h.pending
  obtain ⟨hlt, hl, hs, -, hrest⟩ := hp
  refine ⟨hl, hs, fun c hc => ?_, fun o' hgt ho => ?_, fun c hc => ?_⟩
  · have hin : c < index := Nat.lt_of_lt_of_le hc.closer.lt_length hend
    have hmin := h.pending.depthAt_top.2 (c + 1) (Nat.lt_succ_of_lt hc.lt) hin
    have hafter := hc.depthAt_after
    omega
  · rcases h.opened o' (Nat.lt_of_lt_of_le ho.lt_length hend) ho with ⟨token, hm⟩ | hc
    · exfalso
      rcases List.mem_cons.1 hm with heq | hm
      · obtain ⟨rfl, -⟩ := Prod.mk.inj heq
        omega
      · have := hrest.lt_of_mem hm
        omega
    · exact hc
  · exact h.closed c (Nat.lt_of_lt_of_le hc.lt_length hend) hc

/-- At the end of the tokens with nothing open, every bracket has its partner. -/
theorem Reading.allMatched {tokens : List Token} {index : Nat} (h : Reading tokens index [])
    (hend : tokens.length ≤ index) : AllMatched (kindsOf tokens) := by
  rw [← kindsOf_length] at hend
  refine ⟨?_, fun o ho => ?_, fun c hc => ?_⟩
  · have hbal : Balanced (brackets ((kindsOf tokens).take index)) := h.pending
    rwa [List.take_of_length_le hend] at hbal
  · rcases h.opened o (Nat.lt_of_lt_of_le ho.lt_length hend) ho with ⟨token, hm⟩ | hc
    · cases hm
    · exact hc
  · exact h.closed c (Nat.lt_of_lt_of_le hc.lt_length hend) hc

/-- A closing bracket that does not fit the innermost open bracket closes nothing. -/
theorem Reading.unmatchedAt {tokens : List Token} {index : Nat} {stack : List (Nat × Token)}
    {token : Token} (h : Reading tokens index stack) (ht : tokens[index]? = some token)
    (hc : token.kind.isCloser = true)
    (hfit : ∀ o last rest, stack = (o, last) :: rest → last.kind.closedBy ≠ some token.kind) :
    UnmatchedAt tokens index token := by
  refine ⟨ht, hc, fun o hcl => ?_, h.closed⟩
  have hp := h.pending
  cases stack with
  | nil => exact hp.not_closes_nil hcl
  | cons entry rest =>
    obtain ⟨top, last⟩ := entry
    obtain rfl := hp.eq_top_of_closes hcl
    obtain ⟨opener, closer, hko, hkc, hpart⟩ := hcl.partner
    have hl := kindsOf_getElem? hp.2.1
    have hk := kindsOf_getElem? ht
    obtain rfl : last.kind = opener := Option.some.inj (hl.symm.trans hko)
    obtain rfl : token.kind = closer := Option.some.inj (hk.symm.trans hkc)
    exact hfit o last rest rfl hpart

/-- Matching from any index on. -/
theorem matchFrom_outcome {tokens rest : List Token} {index : Nat} {stack : List (Nat × Token)}
    (h : Reading tokens index stack) (hrest : tokens.drop index = rest) :
    MatchOutcome tokens index (matchFrom index stack rest) := by
  induction rest generalizing index stack with
  | nil =>
    have hend : tokens.length ≤ index := List.drop_eq_nil_iff.1 hrest
    cases stack with
    | nil =>
      refine ⟨h.allMatched hend, fun o c => ⟨fun hm => absurd hm List.not_mem_nil, ?_⟩⟩
      rintro ⟨hle, hc⟩
      have := hc.closer.lt_length
      rw [kindsOf_length] at this
      omega
    | cons entry stack =>
      obtain ⟨o, last⟩ := entry
      exact Or.inr ⟨o, last, h.unclosedAt hend, rfl⟩
  | cons token rest ih =>
    obtain ⟨ht, htail⟩ := getElem?_of_drop hrest
    have hk := kindsOf_getElem? ht
    rw [matchFrom_cons]
    by_cases hs : token.kind.closedBy.isSome = true
    · rw [if_pos hs]
      have hopens : OpensAt (kindsOf tokens) index := (opensAt_iff hk).2 hs
      exact (ih (h.push ht hs) htail).of_not_closesAt hopens.not_closesAt
    · rw [if_neg hs]
      by_cases hc : token.kind.isCloser = true
      · rw [if_pos hc]
        cases stack with
        | nil =>
          refine Or.inl ⟨index, token, h.unmatchedAt ht hc ?_, rfl⟩
          intro o last rest heq
          cases heq
        | cons entry stack =>
          obtain ⟨o, last⟩ := entry
          by_cases hp : last.kind.closedBy = some token.kind
          · simp only [hp, if_true]
            exact (ih (h.pop ht hp) htail).of_closes (h.pending.closes ht hp)
          · simp only [hp, if_false]
            refine Or.inl ⟨index, token, h.unmatchedAt ht hc ?_, rfl⟩
            intro o' last' rest' heq
            obtain ⟨hentry, -⟩ := List.cons.inj heq
            obtain ⟨-, rfl⟩ := Prod.mk.inj hentry
            exact hp
      · rw [if_neg hc]
        have hb : token.kind.isBracket = false := by simp [Kind.isBracket, hs, hc]
        refine (ih (h.skip ht hb) htail).of_not_closesAt ?_
        rwa [closesAt_iff hk]

/-- Matching finds all pairs, or the fault. -/
theorem matchBrackets_outcome (tokens : List Token) :
    MatchOutcome tokens 0 (matchBrackets tokens) :=
  matchFrom_outcome (Reading.start tokens) List.drop_zero

/-- The pairs that matching finds are those of brackets that belong together. -/
theorem mem_matchBrackets {tokens : List Token} {pairs : List Pair}
    (h : matchBrackets tokens = .ok pairs) (o c : Nat) :
    ⟨o, c⟩ ∈ pairs ↔ Closes (kindsOf tokens) o c := by
  have hout := matchBrackets_outcome tokens
  rw [h] at hout
  simpa using hout.2 o c

theorem allMatched_of_matchBrackets {tokens : List Token} {pairs : List Pair}
    (h : matchBrackets tokens = .ok pairs) : AllMatched (kindsOf tokens) := by
  have hout := matchBrackets_outcome tokens
  rw [h] at hout
  exact hout.1

theorem matchFault_of_matchBrackets {tokens : List Token} {error : LexError}
    (h : matchBrackets tokens = .error error) : MatchFault tokens error := by
  have hout := matchBrackets_outcome tokens
  rw [h] at hout
  exact hout

/-! ## Balanced brackets are matched -/

/-- The brackets that are open after a word of brackets, the innermost first; none if one of the word
closes nothing. -/
def openAfter : (stack : List Kind) → (word : List Kind) → Option (List Kind)
  | stack, [] => some stack
  | stack, kind :: rest =>
    if kind.closedBy.isSome then openAfter (kind :: stack) rest
    else match stack with
      | [] => none
      | last :: stack => if last.closedBy = some kind then openAfter stack rest else none

theorem openAfter_opener {kind : Kind} (h : kind.closedBy.isSome = true) (stack rest : List Kind) :
    openAfter stack (kind :: rest) = openAfter (kind :: stack) rest := by
  cases stack <;> simp [openAfter, h]

theorem openAfter_closer {kind last : Kind} (h : ¬ kind.closedBy.isSome = true)
    (stack rest : List Kind) :
    openAfter (last :: stack) (kind :: rest) =
      if last.closedBy = some kind then openAfter stack rest else none := by
  simp [openAfter, h]

/-- A balanced word leaves open what was open before it. -/
theorem Balanced.openAfter_append {word : List Kind} (h : Balanced word) (stack rest : List Kind) :
    openAfter stack (word ++ rest) = openAfter stack rest := by
  induction h generalizing stack rest with
  | nil => rfl
  | @wrap opener closer inner more hp _ _ ihi ihm =>
    have hs : opener.closedBy.isSome = true := by simp [hp]
    have hc : ¬ closer.closedBy.isSome = true := by
      simp [Kind.isCloser_closedBy (Kind.closedBy_isCloser hp)]
    calc openAfter stack (opener :: (inner ++ closer :: more) ++ rest)
        = openAfter (opener :: stack) (inner ++ (closer :: (more ++ rest))) := by
          rw [List.cons_append, openAfter_opener hs, List.append_assoc, List.cons_append]
      _ = openAfter (opener :: stack) (closer :: (more ++ rest)) := ihi _ _
      _ = openAfter stack (more ++ rest) := by rw [openAfter_closer hc, if_pos hp]
      _ = openAfter stack rest := ihm _ _

/-- Matching succeeds exactly if it ends with nothing open. -/
theorem matchFrom_isOk (index : Nat) (stack : List (Nat × Token)) (tokens : List Token) :
    (matchFrom index stack tokens).isOk = true ↔
      openAfter (stack.map (·.2.kind)) (brackets (kindsOf tokens)) = some [] := by
  induction tokens generalizing index stack with
  | nil =>
    cases stack with
    | nil => exact ⟨fun _ => rfl, fun _ => rfl⟩
    | cons entry stack => constructor <;> intro h <;> cases h
  | cons token rest ih =>
    rw [matchFrom_cons, kindsOf, List.map_cons]
    by_cases hs : token.kind.closedBy.isSome = true
    · have hb : token.kind.isBracket = true := by simp [Kind.isBracket, hs]
      rw [if_pos hs, ih, brackets_cons_bracket hb, openAfter_opener hs]
      rfl
    · rw [if_neg hs]
      by_cases hc : token.kind.isCloser = true
      · have hb : token.kind.isBracket = true := by simp [Kind.isBracket, hc]
        rw [if_pos hc, brackets_cons_bracket hb]
        cases stack with
        | nil =>
          rw [List.map_nil, openAfter, if_neg hs]
          constructor <;> intro h <;> cases h
        | cons entry stack =>
          obtain ⟨o, last⟩ := entry
          rw [List.map_cons, openAfter_closer hs]
          by_cases hp : last.kind.closedBy = some token.kind
          · simp only [hp, if_true]
            rw [← kindsOf, ← ih (index + 1)]
            cases matchFrom (index + 1) stack rest with
            | error error => rfl
            | ok pairs => rfl
          · simp only [hp, if_false]
            constructor <;> intro h <;> cases h
      · have hb : token.kind.isBracket = false := by simp [Kind.isBracket, hs, hc]
        rw [if_neg hc, ih, brackets_cons_other hb]
        rfl

/-- Matching succeeds exactly on balanced brackets. -/
theorem matchBrackets_isOk (tokens : List Token) :
    (∃ pairs, matchBrackets tokens = .ok pairs) ↔ Balanced (brackets (kindsOf tokens)) := by
  constructor
  · rintro ⟨pairs, h⟩
    exact (allMatched_of_matchBrackets h).balanced
  · intro h
    apply exists_eq_ok
    rw [matchBrackets, matchFrom_isOk]
    have := h.openAfter_append [] []
    rwa [List.append_nil] at this

end DocLint
