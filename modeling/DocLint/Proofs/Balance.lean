import DocLint.Token.Kind

/-!
# Balanced brackets

A word of brackets is balanced if every bracket in it has its partner (`Balanced`). In a list of kinds,
where brackets stand among other tokens, the closing bracket at `c` closes the opening bracket at `o`
if the two belong together and the brackets between them are balanced (`Closes`).

How far brackets are open is a count, the depth: one more for each opening bracket, one less for each
closing one. Between the two ends of a pair the depth stays above what it is at either end, and all
that is said here about two pairs follows from this (`Closes.depthAt_inner`): no bracket is in two of
them, and of two pairs that overlap one is inside the other.
-/

namespace DocLint

namespace Kind

/-- An opening or a closing bracket. -/
def isBracket (kind : Kind) : Bool := kind.closedBy.isSome || kind.isCloser

/-- A bracket, and nothing for any other kind. -/
def bracket? (kind : Kind) : Option Kind := if kind.isBracket then some kind else none

theorem closedBy_isCloser {opener closer : Kind} (h : opener.closedBy = some closer) :
    closer.isCloser = true := by
  cases opener <;> simp [closedBy] at h <;> subst h <;> rfl

theorem isCloser_closedBy {kind : Kind} (h : kind.isCloser = true) : kind.closedBy = none := by
  cases kind <;> first | rfl | cases h

/-- How a kind changes the depth. -/
def weight (kind : Kind) : Int :=
  if kind.closedBy.isSome then 1 else if kind.isCloser then -1 else 0

theorem weight_opener {kind : Kind} (h : kind.closedBy.isSome = true) : kind.weight = 1 := by
  simp [weight, h]

theorem weight_closer {kind : Kind} (h : kind.isCloser = true) : kind.weight = -1 := by
  simp [weight, h, isCloser_closedBy h]

theorem weight_other {kind : Kind} (h : kind.isBracket = false) : kind.weight = 0 := by
  simp only [isBracket, Bool.or_eq_false_iff] at h
  simp [weight, h.1, h.2]

end Kind

/-- The brackets among kinds, in their order. -/
def brackets (kinds : List Kind) : List Kind := kinds.filter Kind.isBracket

@[simp] theorem brackets_nil : brackets [] = [] := rfl

@[simp] theorem brackets_append (front back : List Kind) :
    brackets (front ++ back) = brackets front ++ brackets back := by
  simp [brackets]

theorem brackets_cons_bracket {kind : Kind} (h : kind.isBracket = true) (rest : List Kind) :
    brackets (kind :: rest) = kind :: brackets rest := by
  simp [brackets, h]

theorem brackets_cons_other {kind : Kind} (h : kind.isBracket = false) (rest : List Kind) :
    brackets (kind :: rest) = brackets rest := by
  simp [brackets, h]

/-- Words of brackets in which every bracket has its partner. -/
inductive Balanced : List Kind → Prop where
  /-- No bracket at all. -/
  | nil : Balanced []
  /-- A pair of brackets around a balanced word, before another one. -/
  | wrap {opener closer : Kind} {inner rest : List Kind} (h : opener.closedBy = some closer)
      (hinner : Balanced inner) (hrest : Balanced rest) :
      Balanced (opener :: (inner ++ closer :: rest))

theorem Balanced.append {front back : List Kind} (hf : Balanced front) (hb : Balanced back) :
    Balanced (front ++ back) := by
  induction hf with
  | nil => exact hb
  | wrap h hinner _ _ ih =>
    simp only [List.cons_append, List.append_assoc]
    exact .wrap h hinner ih

/-! ## Depth -/

/-- The number of brackets that kinds open, less the number of those that they close. -/
def depth : List Kind → Int
  | [] => 0
  | kind :: rest => kind.weight + depth rest

@[simp] theorem depth_nil : depth [] = 0 := rfl

@[simp] theorem depth_cons (kind : Kind) (rest : List Kind) :
    depth (kind :: rest) = kind.weight + depth rest := rfl

@[simp] theorem depth_append (front back : List Kind) :
    depth (front ++ back) = depth front + depth back := by
  induction front with
  | nil => simp
  | cons kind rest ih => rw [List.cons_append, depth_cons, depth_cons, ih, Int.add_assoc]

/-- Only brackets count. -/
theorem depth_brackets (kinds : List Kind) : depth (brackets kinds) = depth kinds := by
  induction kinds with
  | nil => rfl
  | cons kind rest ih =>
    by_cases h : kind.isBracket = true
    · rw [brackets_cons_bracket h, depth_cons, depth_cons, ih]
    · have h' : kind.isBracket = false := by simpa using h
      rw [brackets_cons_other h', depth_cons, Kind.weight_other h', ih, Int.zero_add]

theorem Balanced.depth_eq_zero {word : List Kind} (h : Balanced word) : depth word = 0 := by
  induction h with
  | nil => rfl
  | @wrap opener closer inner rest h _ _ ihi ihr =>
    have ho := Kind.weight_opener (by simp [h] : opener.closedBy.isSome = true)
    have hc := Kind.weight_closer (Kind.closedBy_isCloser h)
    simp only [depth_cons, depth_append]
    omega

/-- A balanced word never closes more than it has opened. -/
theorem Balanced.depth_prefix {word front : List Kind} (h : Balanced word) (hf : front <+: word) :
    0 ≤ depth front := by
  induction h generalizing front with
  | nil =>
    obtain rfl : front = [] := List.prefix_nil.1 hf
    simp
  | @wrap opener closer inner rest h hinner _ ihi ihr =>
    have ho := Kind.weight_opener (by simp [h] : opener.closedBy.isSome = true)
    have hc := Kind.weight_closer (Kind.closedBy_isCloser h)
    rcases List.prefix_cons_iff.1 hf with rfl | ⟨tail, rfl, ht⟩
    · simp
    -- the part behind the opening bracket ends inside the pair or goes beyond its end
    · rcases List.prefix_or_prefix_of_prefix ht (List.prefix_append inner _) with hin | ⟨beyond, rfl⟩
      · have := ihi hin
        rw [depth_cons]
        omega
      · have hb := (List.prefix_append_right_inj inner).1 ht
        have hi := hinner.depth_eq_zero
        rcases List.prefix_cons_iff.1 hb with rfl | ⟨last, rfl, hl⟩
        · simp only [depth_cons, depth_append, depth_nil]
          omega
        · have := ihr hl
          simp only [depth_cons, depth_append]
          omega

/-! ## Pairs in a list of kinds -/

/-- The kinds strictly between two indices. -/
def between (kinds : List Kind) (o c : Nat) : List Kind := (kinds.take c).drop (o + 1)

/-- The depth before an index. -/
def depthAt (kinds : List Kind) (i : Nat) : Int := depth (kinds.take i)

/-- There is an opening bracket at an index. -/
def OpensAt (kinds : List Kind) (i : Nat) : Prop :=
  ∃ kind, kinds[i]? = some kind ∧ kind.closedBy.isSome = true

/-- There is a closing bracket at an index. -/
def ClosesAt (kinds : List Kind) (i : Nat) : Prop :=
  ∃ kind, kinds[i]? = some kind ∧ kind.isCloser = true

/-- The bracket at `c` closes the bracket at `o`. -/
structure Closes (kinds : List Kind) (o c : Nat) : Prop where
  lt : o < c
  partner : ∃ opener closer, kinds[o]? = some opener ∧ kinds[c]? = some closer ∧
    opener.closedBy = some closer
  inner : Balanced (brackets (between kinds o c))

section At

variable {kinds : List Kind} {i : Nat} {kind : Kind}

theorem opensAt_iff (h : kinds[i]? = some kind) :
    OpensAt kinds i ↔ kind.closedBy.isSome = true := by
  constructor
  · rintro ⟨other, hk, hs⟩
    rwa [Option.some.inj (h.symm.trans hk)]
  · intro hs
    exact ⟨kind, h, hs⟩

theorem closesAt_iff (h : kinds[i]? = some kind) : ClosesAt kinds i ↔ kind.isCloser = true := by
  constructor
  · rintro ⟨other, hk, hs⟩
    rwa [Option.some.inj (h.symm.trans hk)]
  · intro hs
    exact ⟨kind, h, hs⟩

theorem OpensAt.lt_length (h : OpensAt kinds i) : i < kinds.length := by
  obtain ⟨kind, hk, -⟩ := h
  exact (List.getElem?_eq_some_iff.1 hk).1

theorem ClosesAt.lt_length (h : ClosesAt kinds i) : i < kinds.length := by
  obtain ⟨kind, hk, -⟩ := h
  exact (List.getElem?_eq_some_iff.1 hk).1

/-- No bracket both opens and closes. -/
theorem OpensAt.not_closesAt (h : OpensAt kinds i) : ¬ ClosesAt kinds i := by
  obtain ⟨opener, hk, hs⟩ := h
  intro hc
  have hnone := Kind.isCloser_closedBy ((closesAt_iff hk).1 hc)
  rw [hnone] at hs
  cases hs

end At

section Between

variable {kinds : List Kind} {o c i : Nat} {kind : Kind}

theorem between_self (kinds : List Kind) (i : Nat) : between kinds i (i + 1) = [] := by
  simp [between]

theorem between_succ (hlt : o < i) (h : kinds[i]? = some kind) :
    between kinds o (i + 1) = between kinds o i ++ [kind] := by
  obtain ⟨hi, -⟩ := List.getElem?_eq_some_iff.1 h
  have hle : o + 1 ≤ (kinds.take i).length := by
    rw [List.length_take]
    omega
  rw [between, List.take_add_one, h, Option.toList_some, List.drop_append_of_le_length hle, between]

/-- A stretch of kinds is cut in two by any index in it. -/
theorem take_eq_append_between (hlt : o < c) (h : kinds[o]? = some kind) :
    kinds.take c = kinds.take o ++ kind :: between kinds o c := by
  have hto : (kinds.take c)[o]? = some kind := by rw [List.getElem?_take_of_lt hlt, h]
  obtain ⟨ho, hk⟩ := List.getElem?_eq_some_iff.1 hto
  have hsplit := List.take_append_drop o (kinds.take c)
  rw [List.drop_eq_getElem_cons ho, hk, List.take_take, Nat.min_eq_left (Nat.le_of_lt hlt)] at hsplit
  exact hsplit.symm

theorem between_eq_append (hm : o < i) (hlt : i < c) (h : kinds[i]? = some kind) :
    between kinds o c = between kinds o i ++ kind :: between kinds i c := by
  obtain ⟨hi, -⟩ := List.getElem?_eq_some_iff.1 h
  have hle : o + 1 ≤ (kinds.take i).length := by
    rw [List.length_take]
    omega
  rw [between, take_eq_append_between hlt h, List.drop_append_of_le_length hle]
  rfl

theorem between_isPrefix (kinds : List Kind) (o : Nat) (h : i ≤ c) :
    between kinds o i <+: between kinds o c := by
  obtain ⟨tail, ht⟩ : kinds.take i <+: kinds.take c := List.take_prefix_take_left h
  rw [between, between, ← ht, List.drop_append]
  exact List.prefix_append _ _

theorem depthAt_succ (h : kinds[i]? = some kind) :
    depthAt kinds (i + 1) = depthAt kinds i + kind.weight := by
  simp [depthAt, List.take_add_one, h]

theorem depthAt_between (hlt : o < i) (h : kinds[o]? = some kind) :
    depthAt kinds i = depthAt kinds o + kind.weight + depth (between kinds o i) := by
  rw [depthAt, take_eq_append_between hlt h, depth_append, depth_cons, depthAt, Int.add_assoc]

/-- If all that is between is balanced, the depth never falls below what it was. -/
theorem depthAt_le_of_balanced (hbal : Balanced (brackets (between kinds o c))) (h : kinds[o]? = some kind)
    (ho : o < i) (hi : i ≤ c) : depthAt kinds o + kind.weight ≤ depthAt kinds i := by
  have hp : brackets (between kinds o i) <+: brackets (between kinds o c) :=
    (between_isPrefix kinds o hi).filter _
  have hd := hbal.depth_prefix hp
  rw [depth_brackets] at hd
  rw [depthAt_between ho h]
  omega

end Between

namespace Closes

variable {kinds : List Kind} {o c o' c' : Nat}

theorem opener (h : Closes kinds o c) : OpensAt kinds o := by
  obtain ⟨opener, closer, ho, -, hp⟩ := h.partner
  exact ⟨opener, ho, by simp [hp]⟩

theorem closer (h : Closes kinds o c) : ClosesAt kinds c := by
  obtain ⟨opener, closer, -, hc, hp⟩ := h.partner
  exact ⟨closer, hc, Kind.closedBy_isCloser hp⟩

/-- Inside a pair the depth is above what it is before the pair. -/
theorem depthAt_inner (h : Closes kinds o c) {i : Nat} (ho : o < i) (hi : i ≤ c) :
    depthAt kinds o + 1 ≤ depthAt kinds i := by
  obtain ⟨opener, hk, hs⟩ := h.opener
  have := depthAt_le_of_balanced h.inner hk ho hi
  rw [Kind.weight_opener hs] at this
  exact this

/-- At the closing bracket, only the pair itself is open. -/
theorem depthAt_closer (h : Closes kinds o c) : depthAt kinds c = depthAt kinds o + 1 := by
  obtain ⟨opener, hk, hs⟩ := h.opener
  have hz := h.inner.depth_eq_zero
  rw [depth_brackets] at hz
  rw [depthAt_between h.lt hk, Kind.weight_opener hs, hz, Int.add_zero]

/-- Behind a pair the depth is what it was before. -/
theorem depthAt_after (h : Closes kinds o c) : depthAt kinds (c + 1) = depthAt kinds o := by
  obtain ⟨closer, hk, hs⟩ := h.closer
  rw [depthAt_succ hk, Kind.weight_closer hs, h.depthAt_closer]
  omega

/-- Of two pairs that overlap, one is inside the other. -/
theorem nested (h : Closes kinds o c) (h' : Closes kinds o' c') (ho : o < o') (hc : o' < c) :
    c' < c := by
  refine Nat.lt_of_not_le fun hcon => ?_
  -- behind `c` the depth is that before `o`, and still it is inside the pair of `o'`
  have h1 := h.depthAt_inner ho (Nat.le_of_lt hc)
  rcases Nat.lt_or_ge c c' with hlt | hge
  · have h2 : depthAt kinds o' + 1 ≤ depthAt kinds (c + 1) := h'.depthAt_inner (by omega) hlt
    have h3 := h.depthAt_after
    omega
  · have hcc : c = c' := by omega
    subst hcc
    have h2 := h.depthAt_after
    have h3 := h'.depthAt_after
    omega

/-- An opening bracket has one partner. -/
theorem closer_unique (h : Closes kinds o c) (h' : Closes kinds o c') : c = c' := by
  have key : ∀ {c c' : Nat}, Closes kinds o c → Closes kinds o c' → ¬ c < c' := by
    intro c c' h h' hlt
    have h1 : depthAt kinds o + 1 ≤ depthAt kinds (c + 1) :=
      h'.depthAt_inner (Nat.lt_succ_of_lt h.lt) hlt
    have h2 := h.depthAt_after
    omega
  have h1 := key h h'
  have h2 := key h' h
  omega

/-- A closing bracket has one partner. -/
theorem opener_unique (h : Closes kinds o c) (h' : Closes kinds o' c) : o = o' := by
  have key : ∀ {o o' : Nat}, Closes kinds o c → Closes kinds o' c → ¬ o < o' := by
    intro o o' h h' hlt
    have := h.nested h' hlt h'.lt
    omega
  have h1 := key h h'
  have h2 := key h' h
  omega

end Closes

/-! ## Only brackets matter -/

theorem brackets_eq_filterMap (kinds : List Kind) : brackets kinds = kinds.filterMap Kind.bracket? := by
  induction kinds with
  | nil => rfl
  | cons kind rest ih =>
    by_cases h : kind.isBracket = true
    · rw [brackets_cons_bracket h, ih]
      simp [Kind.bracket?, h]
    · have h' : kind.isBracket = false := by simpa using h
      rw [brackets_cons_other h', ih]
      simp [Kind.bracket?, h]

section Congr

variable {kinds kinds' : List Kind}

theorem brackets_congr (h : kinds.map Kind.bracket? = kinds'.map Kind.bracket?) :
    brackets kinds = brackets kinds' := by
  have hid : ∀ kinds : List Kind, brackets kinds = (kinds.map Kind.bracket?).filterMap id := by
    intro kinds
    rw [brackets_eq_filterMap, List.filterMap_map]
    rfl
  rw [hid, hid, h]

theorem getElem?_bracket_congr (h : kinds.map Kind.bracket? = kinds'.map Kind.bracket?) {i : Nat}
    {kind : Kind} (hb : kind.isBracket = true) (hi : kinds[i]? = some kind) :
    kinds'[i]? = some kind := by
  have hm := congrArg (fun list => list[i]?) h
  simp only [List.getElem?_map, hi, Option.map_some] at hm
  obtain ⟨other, ho, he⟩ := Option.map_eq_some_iff.1 hm.symm
  simp only [Kind.bracket?, hb, if_true] at he
  split at he
  · rw [ho, Option.some.inj he]
  · cases he

/-- Lists with the same brackets at the same indices have the same pairs. -/
theorem Closes.congr (h : kinds.map Kind.bracket? = kinds'.map Kind.bracket?) {o c : Nat}
    (hc : Closes kinds o c) : Closes kinds' o c := by
  obtain ⟨opener, closer, hko, hkc, hp⟩ := hc.partner
  have hbo : opener.isBracket = true := by simp [Kind.isBracket, hp]
  have hbc : closer.isBracket = true := by simp [Kind.isBracket, Kind.closedBy_isCloser hp]
  refine ⟨hc.lt, ⟨opener, closer, getElem?_bracket_congr h hbo hko, getElem?_bracket_congr h hbc hkc,
    hp⟩, ?_⟩
  have hbetween : brackets (between kinds o c) = brackets (between kinds' o c) := by
    apply brackets_congr
    simp only [between, List.map_drop, List.map_take, h]
  rw [← hbetween]
  exact hc.inner

end Congr

end DocLint
