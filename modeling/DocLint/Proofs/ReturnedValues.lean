import DocLint.Proofs.BodyLevels
import DocLint.Proofs.ReturnScan
import Mathlib.Data.List.Chain

/-!
# Which functions return a value

The scan for a returned value jumps over each closure it comes to, so it never looks at the closures in there. But
what is declared behind a closure and before the end of its body ends no later than this body
(`Stream.closer_le_of_inside`). So the tokens that the scan looks at are those that no closure covers, however
deep closures are nested (`Visits.exists_cursors`), and a function returns a value if and only if it has a `return`
with a value that no closure covers (`Stream.returnsValue_iff`).
-/

namespace DocLint

/-! ## Values behind a `return` -/

/-- The first token behind the index that is no white space is there, and is no semicolon. -/
def HasValue (stream : Stream) (i : Nat) : Prop :=
  ∃ (j : Nat) (token : Token), i < j ∧ stream[j]? = some token ∧ token.kind ≠ .gap ∧ token.kind ≠ .semicolon ∧
    ∀ k, i < k → k < j → ∃ gap, stream[k]? = some gap ∧ gap.kind = .gap

namespace Stream

theorem valueFollows_eq_true (stream : Stream) (i : Nat) :
    stream.valueFollows ((i + 1 : Nat) : Int) = .ok true ↔ HasValue stream i := by
  rcases Nat.lt_or_ge (i + 1) stream.size with hlt | hge
  · obtain ⟨token, ht⟩ := exists_token_at hlt
    by_cases hk : token.kind = .gap
    · rw [valueFollows_gap ht hk, valueFollows_eq_true stream (i + 1)]
      constructor
      · rintro ⟨j, found, hj, hfound, hgap, hsemicolon, hbetween⟩
        refine ⟨j, found, by omega, hfound, hgap, hsemicolon, fun k hik hkj => ?_⟩
        rcases Nat.eq_or_lt_of_le hik with rfl | hlt
        · exact ⟨token, ht, hk⟩
        · exact hbetween k hlt hkj
      · rintro ⟨j, found, hj, hfound, hgap, hsemicolon, hbetween⟩
        have hne : j ≠ i + 1 := by
          rintro rfl
          obtain rfl := Option.some.inj (ht.symm.trans hfound)
          exact hgap hk
        exact ⟨j, found, by omega, hfound, hgap, hsemicolon, fun k hik hkj => hbetween k (by omega) hkj⟩
    · rw [valueFollows_token ht hk]
      constructor
      · intro h
        refine ⟨i + 1, token, Nat.lt_succ_self i, ht, hk, ?_, fun k hik hkj => by omega⟩
        simpa using Except.ok.inj h
      · rintro ⟨j, found, hj, hfound, hgap, hsemicolon, hbetween⟩
        have hj' : j = i + 1 := by
          by_contra hne
          obtain ⟨gap, hg, hkind⟩ := hbetween (i + 1) (Nat.lt_succ_self i) (by omega)
          obtain rfl := Option.some.inj (ht.symm.trans hg)
          exact hk hkind
        subst hj'
        obtain rfl := Option.some.inj (ht.symm.trans hfound)
        simpa using hsemicolon
  · rw [valueFollows_end hge]
    constructor
    · intro h
      cases h
    · rintro ⟨j, found, hj, hfound, -⟩
      have := lt_size hfound
      omega
termination_by stream.size - i

theorem returnsValueAt_eq_true {stream : Stream} {i : Nat} :
    stream.returnsValueAt i = .ok true ↔ HasValue stream i :=
  valueFollows_eq_true stream i

/-! ## Closures in closures -/

variable {source : Text} {stream : Stream} {i k o c : Nat} {token inner : Token}

theorem Sound.exists_scope (hs : stream.Sound) (hi : stream[i]? = some token) (hk : token.kind = .closure)
    (hc : token.scope.closer = some (c : Int)) : ∃ o, token.scope = .between o c := by
  have hne : token.scope ≠ {} := by
    intro hempty
    rw [hempty] at hc
    cases hc
  obtain ⟨o, c', hscope, -⟩ := hs.body hi (Or.inr hk) hne
  rw [hscope] at hc
  have heq : (c' : Int) = c := Option.some.inj hc
  obtain rfl : c' = c := by omega
  exact ⟨o, hscope⟩

/-- A body ends with a brace. -/
theorem kind_of_closer (h : ofSource source = .ok stream) (hi : stream[i]? = some token)
    (hscope : token.scope = .between o c) {brace : Token} (hc : stream[c]? = some brace) :
    brace.kind = .closeBrace := by
  have hpair := (ofSource_eq_ok.1 h).2
  obtain ⟨last, hlast, hbrace⟩ := (braces_of_scope hpair (by rwa [Array.getElem?_toList]) hscope).closer
  rw [Array.getElem?_toList] at hlast
  obtain rfl := Option.some.inj (hc.symm.trans hlast)
  exact hbrace

/-- What is declared behind a declaration and before the end of its body has a body that ends no later. If it is
declared in the body, its own body ends before. -/
theorem closer_le_of_inside (h : ofSource source = .ok stream) (hi : stream[i]? = some token)
    (howns : token.kind.ownsScope = true) (hscope : token.scope = .between o c) (hk : stream[k]? = some inner)
    (howns' : inner.kind.ownsScope = true) {o' c' : Nat} (hscope' : inner.scope = .between o' c') (hik : i < k)
    (hkc : k < c) : c' ≤ c ∧ (o < k → c' < c) := by
  have hpair := (ofSource_eq_ok.1 h).2
  rw [← Array.getElem?_toList] at hi hk
  have hf := (scope_eq_between hpair hi howns).1 hscope
  have hf' := (scope_eq_between hpair hk howns').1 hscope'
  refine ⟨hf.closer_le hf' (by omega) hkc, fun hok => ?_⟩
  exact (scope_inside hpair hi hscope hk howns' hscope' hok hkc).2.2

end Stream

/-! ## The tokens that are looked at -/

/-- The scan before `stop` goes on from the token at the first index to the token at the second. -/
inductive Advances (stream : Stream) (stop : Nat) : Nat → Nat → Prop where
  /-- Past a token that is no closure and returns no value. -/
  | token {i : Nat} {token : Token} (lt : i < stop) (h : stream[i]? = some token) (kind : token.kind ≠ .closure)
      (value : token.kind = .returnWord → stream.returnsValueAt i = .ok false) : Advances stream stop i (i + 1)
  /-- Past the body of a closure. -/
  | closure {i c : Nat} {token : Token} (lt : i < stop) (h : stream[i]? = some token)
      (kind : token.kind = .closure) (closer : token.scope.closer = some (c : Int)) :
      Advances stream stop i (c + 1)

/-- Every closure from the index `first` on and before the index `j` also ends before `j`. -/
def OutsideClosures (stream : Stream) (first j : Nat) : Prop :=
  ∀ (k c : Nat) (token : Token), first ≤ k → k < j → stream[k]? = some token → token.kind = .closure →
    token.scope.closer = some (c : Int) → c < j

section Cursors

variable {source : Text} {stream : Stream} {stop i j last : Nat} {token : Token}

theorem outsideClosures_of_token (ht : stream[i]? = some token) (hk : token.kind ≠ .closure) :
    OutsideClosures stream i j ↔ OutsideClosures stream (i + 1) j := by
  constructor
  · intro h k c other hik
    exact h k c other (by omega)
  · intro h k c other hik hkj hother hkind
    have hne : i ≠ k := by
      rintro rfl
      obtain rfl := Option.some.inj (ht.symm.trans hother)
      exact hk hkind
    exact h k c other (by omega) hkj hother hkind

/-- The closures in a closure need not be looked at. -/
theorem outsideClosures_of_closure (h : Stream.ofSource source = .ok stream) (ht : stream[i]? = some token)
    (hk : token.kind = .closure) {c : Nat} (hc : token.scope.closer = some (c : Int)) (hij : i < j) :
    OutsideClosures stream i j ↔ c < j ∧ OutsideClosures stream (c + 1) j := by
  have hs := Stream.sound h
  have hic := hs.lt_closer ht hk hc
  constructor
  · intro hout
    exact ⟨hout i c token (Nat.le_refl i) hij ht hk hc, fun k c' other hck => hout k c' other (by omega)⟩
  · rintro ⟨hcj, hout⟩ k c' other hik hkj hother hkind hcloser
    rcases Nat.lt_or_ge c k with hbehind | hinside
    · exact hout k c' other hbehind hkj hother hkind hcloser
    · obtain ⟨o, hscope⟩ := hs.exists_scope ht hk hc
      obtain ⟨o', hscope'⟩ := hs.exists_scope hother hkind hcloser
      rcases Nat.eq_or_lt_of_le hik with rfl | hlt
      · obtain rfl := Option.some.inj (ht.symm.trans hother)
        obtain ⟨-, rfl⟩ := link_between_inj (hscope.symm.trans hscope')
        exact hcj
      · have hne : k ≠ c := by
          rintro rfl
          rw [Stream.kind_of_closer h ht hscope hother] at hkind
          cases hkind
        have hle := (Stream.closer_le_of_inside h ht (Kind.ownsScope_of_function (Or.inr hk)) hscope hother
          (Kind.ownsScope_of_function (Or.inr hkind)) hscope' hlt (by omega)).1
        omega

/-- The scan looks at the tokens that no closure covers, and at no others. -/
theorem Visits.exists_cursors (h : Stream.ofSource source = .ok stream) (hv : Visits stream stop i last) :
    ∃ cursors : List Nat, (i :: cursors).IsChain (Advances stream stop) ∧ (i :: cursors).getLast? = some last ∧
      ∀ j, j ∈ i :: cursors ↔ i ≤ j ∧ j ≤ last ∧ OutsideClosures stream i j := by
  have hself : ∀ {i : Nat}, OutsideClosures stream i i := by
    intro i k c other hik hki
    omega
  induction hv with
  | here i =>
    refine ⟨[], .singleton i, rfl, fun j => ?_⟩
    rw [List.mem_singleton]
    constructor
    · rintro rfl
      exact ⟨Nat.le_refl j, Nat.le_refl j, hself⟩
    · rintro ⟨hij, hji, -⟩
      omega
  | @step i last token hlt ht hk hvalue next ih =>
    obtain ⟨cursors, hchain, hlast, hmem⟩ := ih
    have hle := ((hmem last).1 (List.mem_of_getLast? hlast)).1
    refine ⟨(i + 1) :: cursors, .cons_cons (.token hlt ht hk hvalue) hchain, ?_, fun j => ?_⟩
    · rw [List.getLast?_cons_cons]
      exact hlast
    · rw [List.mem_cons, hmem, ← outsideClosures_of_token ht hk]
      constructor
      · rintro (rfl | ⟨hij, hjl, hout⟩)
        · exact ⟨Nat.le_refl j, by omega, hself⟩
        · exact ⟨by omega, hjl, hout⟩
      · rintro ⟨hij, hjl, hout⟩
        rcases Nat.eq_or_lt_of_le hij with rfl | hlt'
        · exact Or.inl rfl
        · exact Or.inr ⟨hlt', hjl, hout⟩
  | @skip i last c token hlt ht hk hc next ih =>
    obtain ⟨cursors, hchain, hlast, hmem⟩ := ih
    have hle := ((hmem last).1 (List.mem_of_getLast? hlast)).1
    have hic := (Stream.sound h).lt_closer ht hk hc
    refine ⟨(c + 1) :: cursors, .cons_cons (.closure hlt ht hk hc) hchain, ?_, fun j => ?_⟩
    · rw [List.getLast?_cons_cons]
      exact hlast
    · rw [List.mem_cons, hmem]
      constructor
      · rintro (rfl | ⟨hcj, hjl, hout⟩)
        · exact ⟨Nat.le_refl j, by omega, hself⟩
        · exact ⟨by omega, hjl, (outsideClosures_of_closure h ht hk hc (by omega)).2 ⟨hcj, hout⟩⟩
      · rintro ⟨hij, hjl, hout⟩
        rcases Nat.eq_or_lt_of_le hij with rfl | hlt'
        · exact Or.inl rfl
        · obtain ⟨hcj, hrest⟩ := (outsideClosures_of_closure h ht hk hc hlt').1 hout
          exact Or.inr ⟨hcj, hjl, hrest⟩

end Cursors

/-! ## Functions -/

/-- The token at `b` is the first opening brace behind the index. -/
structure FirstBrace (stream : Stream) (i b : Nat) : Prop where
  behind : i < b
  brace : ∃ token, stream[b]? = some token ∧ token.kind = .openBrace
  first : ∀ (j : Nat) (token : Token), i < j → j < b → stream[j]? = some token → token.kind ≠ .openBrace

/-- The token at `r` is a `return` with a value, and no closure from the index `first` on covers it. -/
structure OwnReturn (stream : Stream) (first r : Nat) : Prop where
  word : ∃ token, stream[r]? = some token ∧ token.kind = .returnWord
  value : HasValue stream r
  own : ∀ (k c : Nat) (token : Token), first ≤ k → k < r → stream[k]? = some token → token.kind = .closure →
    token.scope.closer = some (c : Int) → ¬ r < c

theorem OwnReturn.outside {source : Text} {stream : Stream} {b r : Nat} (h : Stream.ofSource source = .ok stream)
    (hr : OwnReturn stream b r) : OutsideClosures stream b r := by
  intro k c token hbk hkr hk hkind hc
  have hle := hr.own k c token hbk hkr hk hkind hc
  have hne : c ≠ r := by
    rintro rfl
    obtain ⟨word, hw, hword⟩ := hr.word
    obtain ⟨o, hscope⟩ := (Stream.sound h).exists_scope hk hkind hc
    rw [Stream.kind_of_closer h hk hscope hw] at hword
    cases hword
  omega

namespace Stream

variable {source : Text} {stream : Stream} {i k o c b stop last : Nat} {token : Token}

theorem firstBrace_of_findNext (hi : stream[i]? = some token) (hk : token.kind = .function)
    (h : stream.findNext { kinds := [.openBrace] } i (some (c : Int)) = some b) : FirstBrace stream i b := by
  obtain ⟨-, hib, -, -, hbrace, hfirst⟩ := findNext_eq_some.1 h
  obtain ⟨brace, hb, hkind⟩ := accepts_kinds.1 hbrace
  have hkind' : brace.kind = .openBrace := by simpa using hkind
  have hne : i ≠ b := by
    rintro rfl
    obtain rfl := Option.some.inj (hi.symm.trans hb)
    rw [hk] at hkind'
    cases hkind'
  refine ⟨by omega, ⟨brace, hb, hkind'⟩, fun j other hij hjb hj hother => ?_⟩
  have hno := hfirst j (by omega) hjb
  rw [accepts_kinds.2 ⟨other, hj, by simp [hother]⟩] at hno
  cases hno

/-- The scan goes on from every token that it looks at but the last. -/
theorem exists_advances {cursors : List Nat} (hchain : cursors.IsChain (Advances stream stop))
    (hlast : cursors.getLast? = some last) {r : Nat} (hr : r ∈ cursors) (hne : r ≠ last) :
    ∃ j, Advances stream stop r j := by
  obtain ⟨front, back, rfl⟩ := List.append_of_mem hr
  cases back with
  | nil =>
    rw [List.getLast?_concat] at hlast
    exact absurd (Option.some.inj hlast) hne
  | cons j back => exact ⟨j, (List.isChain_append_cons_cons.1 hchain).2.1⟩

/-- The answer of a scan is whether there is a `return` with a value that no closure covers. -/
theorem answer_iff (h : ofSource source = .ok stream) {cursors : List Nat} {answer : Bool}
    (hchain : cursors.IsChain (Advances stream stop)) (hlast : cursors.getLast? = some last)
    (hmem : ∀ j, j ∈ cursors ↔ b ≤ j ∧ j ≤ last ∧ OutsideClosures stream b j)
    (hh : Halts stream stop last (.ok answer)) :
    answer = true ↔ ∃ r, b ≤ r ∧ r < stop ∧ OwnReturn stream b r := by
  cases hh with
  | value hlt ht hk hvalue =>
    refine iff_of_true rfl ⟨last, ?_⟩
    obtain ⟨hle, -, hout⟩ := (hmem last).1 (List.mem_of_getLast? hlast)
    refine ⟨hle, hlt, ⟨_, ht, hk⟩, returnsValueAt_eq_true.1 hvalue, fun k c token hbk hkr hk' hkind hc => ?_⟩
    have := hout k c token hbk hkr hk' hkind hc
    omega
  | done hle =>
    refine iff_of_false nofun ?_
    rintro ⟨r, hbr, hrs, hr⟩
    have hseen : r ∈ cursors := (hmem r).2 ⟨hbr, by omega, hr.outside h⟩
    obtain ⟨word, hw, hword⟩ := hr.word
    obtain ⟨j, hadvances⟩ := exists_advances hchain hlast hseen (by omega)
    cases hadvances with
    | token _ ht _ hvalue =>
      obtain rfl := Option.some.inj (hw.symm.trans ht)
      have htrue := returnsValueAt_eq_true.2 hr.value
      rw [hvalue hword] at htrue
      cases htrue
    | closure _ ht hk _ =>
      obtain rfl := Option.some.inj (hw.symm.trans ht)
      rw [hk] at hword
      cases hword

end Stream

end DocLint
