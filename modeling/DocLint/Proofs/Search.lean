import DocLint.Rule.DocComment

/-!
# What a search finds

A search gives the nearest index at which its query accepts the token, and nothing if there is no such
index between its bounds. All later proofs use a search only through this.
-/

namespace DocLint

section Index

variable {p : Nat → Bool}

theorem firstIndex_eq_some {first count i : Nat} :
    firstIndex p first count = some i ↔
      first ≤ i ∧ i < first + count ∧ p i = true ∧ ∀ j, first ≤ j → j < i → p j = false := by
  induction count generalizing first with
  | zero =>
    simp only [firstIndex]
    constructor
    · intro h
      cases h
    · rintro ⟨h1, h2, -⟩
      omega
  | succ count ih =>
    rw [firstIndex]
    by_cases hp : p first = true
    · rw [if_pos hp]
      constructor
      · intro h
        obtain rfl := Option.some.inj h
        exact ⟨Nat.le_refl _, by omega, hp, fun j h1 h2 => absurd h1 (Nat.not_le_of_lt h2)⟩
      · rintro ⟨h1, -, -, hbefore⟩
        rcases Nat.eq_or_lt_of_le h1 with rfl | hlt
        · rfl
        · rw [hbefore first (Nat.le_refl _) hlt] at hp
          cases hp
    · rw [if_neg hp, ih]
      constructor
      · rintro ⟨h1, h2, hi, hbefore⟩
        refine ⟨by omega, by omega, hi, fun j hj hji => ?_⟩
        rcases Nat.eq_or_lt_of_le hj with rfl | hlt
        · simpa using hp
        · exact hbefore j hlt hji
      · rintro ⟨h1, h2, hi, hbefore⟩
        have hne : first ≠ i := by
          rintro rfl
          exact hp hi
        exact ⟨by omega, by omega, hi, fun j hj hji => hbefore j (by omega) hji⟩

theorem exists_firstIndex {first count i : Nat} (h : first ≤ i) (hlt : i < first + count)
    (hi : p i = true) : ∃ found, firstIndex p first count = some found ∧ found ≤ i := by
  induction count generalizing first with
  | zero => omega
  | succ count ih =>
    rw [firstIndex]
    by_cases hp : p first = true
    · exact ⟨first, by rw [if_pos hp], h⟩
    · have hne : first ≠ i := by
        rintro rfl
        exact hp hi
      rw [if_neg hp]
      exact ih (by omega) (by omega)

theorem lastIndex_eq_some {low high i : Nat} :
    lastIndex p low high = some i ↔
      low ≤ i ∧ i < high ∧ p i = true ∧ ∀ j, i < j → j < high → p j = false := by
  induction high with
  | zero =>
    simp only [lastIndex]
    constructor
    · intro h
      cases h
    · rintro ⟨-, h2, -⟩
      omega
  | succ high ih =>
    rw [lastIndex]
    by_cases hlow : high < low
    · rw [if_pos hlow]
      constructor
      · intro h
        cases h
      · rintro ⟨h1, h2, -⟩
        omega
    · rw [if_neg hlow]
      by_cases hp : p high = true
      · rw [if_pos hp]
        constructor
        · intro h
          obtain rfl := Option.some.inj h
          exact ⟨by omega, by omega, hp, fun j h1 h2 => by omega⟩
        · rintro ⟨-, h2, -, hafter⟩
          rcases Nat.eq_or_lt_of_le (Nat.le_of_lt_succ h2) with rfl | hlt
          · rfl
          · rw [hafter high hlt (Nat.lt_succ_self _)] at hp
            cases hp
      · rw [if_neg hp, ih]
        constructor
        · rintro ⟨h1, h2, hi, hafter⟩
          refine ⟨h1, by omega, hi, fun j hj hjh => ?_⟩
          rcases Nat.eq_or_lt_of_le (Nat.le_of_lt_succ hjh) with rfl | hlt
          · simpa using hp
          · exact hafter j hj hlt
        · rintro ⟨h1, h2, hi, hafter⟩
          have hne : i ≠ high := by
            rintro rfl
            exact hp hi
          exact ⟨h1, by omega, hi, fun j hj hjh => hafter j hj (by omega)⟩

end Index

namespace Stream

variable {stream : Stream} {query : Query} {i : Nat}

/-- Forwards: the least index that is accepted, from the start on and before both ends. -/
theorem findNext_eq_some {start : Int} {stop : Option Int} :
    stream.findNext query start stop = some i ↔
      0 ≤ start ∧ start ≤ i ∧ (i : Int) < stop.getD stream.size ∧ i < stream.size ∧
        stream.accepts query i = true ∧
        ∀ j : Nat, start ≤ j → j < i → stream.accepts query j = false := by
  rw [findNext]
  by_cases hneg : start < 0
  · rw [if_pos hneg]
    constructor
    · intro h
      cases h
    · rintro ⟨h0, -⟩
      omega
  · rw [if_neg hneg, firstIndex_eq_some]
    constructor
    · rintro ⟨h1, h2, hi, hbefore⟩
      exact ⟨by omega, by omega, by omega, by omega, hi, fun j hj hji => hbefore j (by omega) hji⟩
    · rintro ⟨h0, h1, h2, h3, hi, hbefore⟩
      exact ⟨by omega, by omega, hi, fun j hj hji => hbefore j (by omega) hji⟩

/-- Backwards: the greatest index that is accepted, from the start down to the end. -/
theorem findPrevious_eq_some {start : Int} {stop : Option Int} :
    stream.findPrevious query start stop = some i ↔
      0 ≤ start ∧ start < stream.size ∧ stop.getD 0 ≤ i ∧ (i : Int) ≤ start ∧
        stream.accepts query i = true ∧
        ∀ j : Nat, i < j → (j : Int) ≤ start → stream.accepts query j = false := by
  rw [findPrevious]
  by_cases hout : start < 0 ∨ stream.size ≤ start
  · rw [if_pos (by simpa using hout)]
    constructor
    · intro h
      cases h
    · rintro ⟨h0, h1, -⟩
      omega
  · rw [if_neg (by simpa using hout), lastIndex_eq_some]
    constructor
    · rintro ⟨h1, h2, hi, hafter⟩
      exact ⟨by omega, by omega, by omega, by omega, hi, fun j hj hjs => hafter j hj (by omega)⟩
    · rintro ⟨h0, h1, h2, h3, hi, hafter⟩
      exact ⟨by omega, by omega, hi, fun j hj hjs => hafter j hj (by omega)⟩

/-- Before an index of the stream: the nearest token that is accepted. -/
theorem findPrevious_before {index : Nat} (h : index ≤ stream.size) :
    stream.findPrevious query ((index : Int) - 1) = some i ↔
      i < index ∧ stream.accepts query i = true ∧
        ∀ j, i < j → j < index → stream.accepts query j = false := by
  rw [findPrevious_eq_some]
  constructor
  · rintro ⟨h0, h1, -, h3, hi, hafter⟩
    exact ⟨by omega, hi, fun j hj hji => hafter j hj (by omega)⟩
  · rintro ⟨h1, hi, hafter⟩
    refine ⟨by omega, by omega, ?_, by omega, hi, fun j hj hji => hafter j hj (by omega)⟩
    simp

theorem accepts_eq_true :
    stream.accepts query i = true ↔
      ∃ token, stream[i]? = some token ∧ query.accepts token = true := by
  rw [accepts, Option.any_eq_true]

/-- A search for kinds only looks at kinds. -/
theorem accepts_kinds {kinds : List Kind} {exclude : Bool} :
    stream.accepts { kinds, exclude } i = true ↔
      ∃ token, stream[i]? = some token ∧ (kinds.contains token.kind != exclude) = true := by
  rw [accepts_eq_true]
  cases exclude with
  | false => simp [Query.accepts]
  | true => simp [Query.accepts]

/-- A search comes to a token that is accepted, or stops before it. -/
theorem exists_findNext {start : Nat} {stop : Option Int} (h : start ≤ i)
    (hstop : (i : Int) < stop.getD stream.size) (hi : stream.accepts query i = true) :
    ∃ found, stream.findNext query start stop = some found ∧ start ≤ found ∧ found ≤ i := by
  obtain ⟨token, ht, -⟩ := accepts_eq_true.1 hi
  have hlt : i < stream.size := (Array.getElem?_eq_some_iff.1 ht).1
  obtain ⟨found, hf, hle⟩ : ∃ found, firstIndex (stream.accepts query) (start : Int).toNat
      (min (stop.getD stream.size) stream.size - (start : Int)).toNat = some found ∧ found ≤ i :=
    exists_firstIndex (by omega) (by omega) hi
  have hfind : stream.findNext query start stop = some found := by
    rw [findNext, if_neg (by omega)]
    exact hf
  have hge := (findNext_eq_some.1 hfind).2.1
  exact ⟨found, hfind, by omega, hle⟩

end Stream

end DocLint
