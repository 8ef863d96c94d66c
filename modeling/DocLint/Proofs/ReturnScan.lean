import DocLint.Proofs.SoundStreams
import DocLint.Rule.Returns

/-!
# The scan for returned values

The scan for a `return` with a value goes from token to token and passes over closures as a whole
(`Visits`). It ends at the end of the body, at a `return` with a value, or at a closure that has no body to
pass over (`Halts`). On a sound stream a step leads forwards, so the scan ends, and its bound on the number
of steps is never reached: the answer is the one at the token where it ends (`Sound.scanReturns_eq`).
-/

namespace DocLint

namespace Stream

variable {stream : Stream} {i : Nat} {token : Token}

/-! ## Whether a value follows -/

theorem valueFollows_end (h : stream.size ≤ i) : stream.valueFollows i = .ok false := by
  rw [valueFollows, dif_neg (by omega)]

theorem valueFollows_gap (h : stream[i]? = some token) (hk : token.kind = .gap) :
    stream.valueFollows i = stream.valueFollows ((i + 1 : Nat) : Int) := by
  have hlt := lt_size h
  rw [valueFollows, dif_pos (by omega), fetch_at h]
  simp [bind, Except.bind, hk]

theorem valueFollows_token (h : stream[i]? = some token) (hk : token.kind ≠ .gap) :
    stream.valueFollows i = .ok (token.kind != .semicolon) := by
  have hlt := lt_size h
  rw [valueFollows, dif_pos (by omega), fetch_at h]
  simp [bind, Except.bind, pure, Except.pure, hk]

theorem exists_valueFollows (stream : Stream) (i : Nat) :
    ∃ answer, stream.valueFollows i = .ok answer := by
  rcases Nat.lt_or_ge i stream.size with hlt | hge
  · obtain ⟨token, ht⟩ := exists_token_at hlt
    by_cases hk : token.kind = .gap
    · obtain ⟨answer, ha⟩ := exists_valueFollows stream (i + 1)
      exact ⟨answer, (valueFollows_gap ht hk).trans ha⟩
    · exact ⟨_, valueFollows_token ht hk⟩
  · exact ⟨false, valueFollows_end hge⟩
termination_by stream.size - i

theorem exists_returnsValueAt (stream : Stream) (i : Nat) :
    ∃ answer, stream.returnsValueAt i = .ok answer :=
  exists_valueFollows stream (i + 1)

end Stream

/-! ## The way of the scan -/

/-- The scan before `stop` comes from the token at `i` to the token at `k`, and has found no value. -/
inductive Visits (stream : Stream) (stop : Nat) : (i k : Nat) → Prop where
  /-- Where it starts. -/
  | here (i : Nat) : Visits stream stop i i
  /-- Past a token that is no closure and returns no value. -/
  | step {i k : Nat} {token : Token} (lt : i < stop) (h : stream[i]? = some token)
      (kind : token.kind ≠ .closure)
      (value : token.kind = .returnWord → stream.returnsValueAt i = .ok false)
      (next : Visits stream stop (i + 1) k) : Visits stream stop i k
  /-- Past a closure and all that is in it. -/
  | skip {i k c : Nat} {token : Token} (lt : i < stop) (h : stream[i]? = some token)
      (kind : token.kind = .closure) (closer : token.scope.closer = some (c : Int))
      (next : Visits stream stop (c + 1) k) : Visits stream stop i k

/-- The scan before `stop` ends at the token at `k`, with this answer. -/
inductive Halts (stream : Stream) (stop : Nat) : (k : Nat) → Except Fault Bool → Prop where
  /-- The end of the body. -/
  | done {k : Nat} (le : stop ≤ k) : Halts stream stop k (.ok false)
  /-- A `return` with a value. -/
  | value {k : Nat} {token : Token} (lt : k < stop) (h : stream[k]? = some token)
      (kind : token.kind = .returnWord) (value : stream.returnsValueAt k = .ok true) :
      Halts stream stop k (.ok true)
  /-- A closure without a body. -/
  | stuck {k : Nat} {token : Token} (lt : k < stop) (h : stream[k]? = some token)
      (kind : token.kind = .closure) (closer : token.scope.closer = none) :
      Halts stream stop k (.error (.broken .closureWithoutBody k))

namespace Stream

variable {stream : Stream} {stop i k steps : Nat} {token : Token} {answer : Except Fault Bool}

section Steps

variable (hlt : i < stop) (h : stream[i]? = some token)

theorem scanReturns_end (hge : stop ≤ i) (steps : Nat) :
    stream.scanReturns stop steps i = .ok false := by
  have hnot : ¬ (i : Int) < stop := by omega
  cases steps with
  | zero => rw [scanReturns, if_neg hnot]
  | succ steps => rw [scanReturns, if_neg hnot]

include hlt h

theorem scanReturns_closure (hk : token.kind = .closure) :
    stream.scanReturns stop (steps + 1) i = match token.scope.closer with
      | none => .error (.broken .closureWithoutBody i)
      | some closer => stream.scanReturns stop steps (closer + 1) := by
  rw [scanReturns, if_pos (by omega), fetch_at h]
  simp only [bind, Except.bind, hk]
  cases token.scope.closer with
  | none => rfl
  | some closer => rfl

theorem scanReturns_value (hk : token.kind = .returnWord) (hv : stream.returnsValueAt i = .ok true) :
    stream.scanReturns stop (steps + 1) i = .ok true := by
  rw [scanReturns, if_pos (by omega), fetch_at h]
  simp [bind, Except.bind, pure, Except.pure, hk, hv]

theorem scanReturns_step (hk : token.kind ≠ .closure)
    (hv : token.kind = .returnWord → stream.returnsValueAt i = .ok false) :
    stream.scanReturns stop (steps + 1) i = stream.scanReturns stop steps ((i + 1 : Nat) : Int) := by
  rw [scanReturns, if_pos (by omega), fetch_at h]
  simp only [bind, Except.bind]
  split
  · next hc => exact absurd hc hk
  · next hr => simp [hv hr]
  · rfl

end Steps

/-- At the token where it ends, the scan has its answer. -/
theorem scanReturns_halts (h : Halts stream stop k answer) (hsteps : stop - k ≤ steps) :
    stream.scanReturns stop steps k = answer := by
  cases h with
  | done hle => exact scanReturns_end hle steps
  | value hlt ht hk hv =>
    obtain ⟨steps, rfl⟩ : ∃ n, steps = n + 1 := ⟨steps - 1, by omega⟩
    exact scanReturns_value hlt ht hk hv
  | stuck hlt ht hk hc =>
    obtain ⟨steps, rfl⟩ : ∃ n, steps = n + 1 := ⟨steps - 1, by omega⟩
    rw [scanReturns_closure hlt ht hk, hc]

/-- The body of a closure lies behind it. -/
theorem Sound.lt_closer (hs : stream.Sound) (h : stream[i]? = some token) (hk : token.kind = .closure)
    {c : Nat} (hc : token.scope.closer = some (c : Int)) : i < c := by
  have hne : token.scope ≠ {} := by
    intro hempty
    rw [hempty] at hc
    cases hc
  obtain ⟨o, c', hscope, hio, hoc, -, -⟩ := hs.body h (Or.inr hk) hne
  rw [hscope] at hc
  have heq : (c' : Int) = c := Option.some.inj hc
  omega

/-- The answer of the scan is the one at the token where it ends. -/
theorem Sound.scanReturns_eq (hs : stream.Sound) (hv : Visits stream stop i k)
    (hh : Halts stream stop k answer) (hsteps : stop - i ≤ steps) :
    stream.scanReturns stop steps i = answer := by
  induction hv generalizing steps with
  | here => exact scanReturns_halts hh hsteps
  | step hlt ht hk hvalue _ ih =>
    obtain ⟨steps, rfl⟩ : ∃ n, steps = n + 1 := ⟨steps - 1, by omega⟩
    rw [scanReturns_step hlt ht hk hvalue]
    exact ih hh (by omega)
  | @skip i k c token hlt ht hk hc _ ih =>
    obtain ⟨steps, rfl⟩ : ∃ n, steps = n + 1 := ⟨steps - 1, by omega⟩
    have hic := hs.lt_closer ht hk hc
    rw [scanReturns_closure hlt ht hk, hc]
    exact ih hh (by omega)

/-- The scan ends somewhere. -/
theorem Sound.exists_halts (hs : stream.Sound) (hstop : stop ≤ stream.size) (i : Nat) :
    ∃ k answer, Visits stream stop i k ∧ Halts stream stop k answer := by
  rcases Nat.lt_or_ge i stop with hlt | hge
  · obtain ⟨token, ht⟩ := exists_token_at (show i < stream.size by omega)
    by_cases hk : token.kind = .closure
    · cases hc : token.scope.closer with
      | none => exact ⟨i, _, .here i, .stuck hlt ht hk hc⟩
      | some closer =>
        have hne : token.scope ≠ {} := by
          intro hempty
          rw [hempty] at hc
          cases hc
        obtain ⟨o, c, hscope, -, -, -, -⟩ := hs.body ht (Or.inr hk) hne
        have hcloser : token.scope.closer = some (c : Int) := by rw [hscope]; rfl
        have hic := hs.lt_closer ht hk hcloser
        obtain ⟨k, answer, hv, hh⟩ := hs.exists_halts hstop (c + 1)
        exact ⟨k, answer, .skip hlt ht hk hcloser hv, hh⟩
    · obtain ⟨value, hvalue⟩ := exists_returnsValueAt stream i
      by_cases hr : token.kind = .returnWord ∧ value = true
      · obtain ⟨hword, rfl⟩ := hr
        exact ⟨i, _, .here i, .value hlt ht hword hvalue⟩
      · obtain ⟨k, answer, hv, hh⟩ := hs.exists_halts hstop (i + 1)
        refine ⟨k, answer, .step hlt ht hk (fun hword => ?_) hv, hh⟩
        have hfalse : value = false := by simpa [hword] using hr
        rw [hvalue, hfalse]
  · exact ⟨i, _, .here i, .done hge⟩
termination_by stop - i

/-! ## Bodies of functions -/

/-- The scan of a function starts at the first brace behind it and goes to the end of its body. -/
theorem Sound.returnsValue_eq (hs : stream.Sound) (h : stream[i]? = some token)
    (hk : token.kind = .function) {o c : Nat} (hscope : token.scope = .between o c) :
    ∃ start, stream.findNext { kinds := [.openBrace] } i (some (c : Int)) = some start ∧
      stream.returnsValue i = stream.scanReturns c (2 * stream.size + 1) start := by
  obtain ⟨o', c', hscope', hio, hoc, hsize, hbrace⟩ := hs.body h (Or.inl hk) (link_between_ne hscope)
  obtain ⟨rfl, rfl⟩ := link_between_inj (hscope.symm.trans hscope')
  obtain ⟨start, hstart, -, -⟩ : ∃ start, stream.findNext { kinds := [.openBrace] } i
      (some (c : Int)) = some start ∧ i ≤ start ∧ start ≤ o :=
    exists_findNext (Nat.le_of_lt hio) (by simpa using hoc) hbrace
  refine ⟨start, hstart, ?_⟩
  rw [returnsValue, fetch_at h]
  simp [bind, Except.bind, hscope, Link.between, hstart]

theorem returnsValue_no_body (h : stream[i]? = some token) (hscope : token.scope = {}) :
    stream.returnsValue i = .ok false := by
  rw [returnsValue, fetch_at h]
  simp [bind, Except.bind, pure, Except.pure, hscope]

end Stream

/-- The scan of the body of the function at `i` comes to the closure at `k`, which has no body. -/
structure MeetsBodilessClosure (stream : Stream) (i k : Nat) : Prop where
  body : ∃ (function : Token) (o c start : Nat), stream[i]? = some function ∧
    function.scope = .between o c ∧
    stream.findNext { kinds := [.openBrace] } i (some (c : Int)) = some start ∧
    Visits stream c start k ∧ k < c
  closure : ∃ token, stream[k]? = some token ∧ token.kind = .closure ∧ token.scope.closer = none

namespace Stream

variable {stream : Stream} {i : Nat} {token : Token}

/-- A closure without a body that the scan meets is where it ends. -/
theorem Sound.returnsValue_of_meets (hs : stream.Sound) (h : stream[i]? = some token)
    (hk : token.kind = .function) {k : Nat} (hmeets : MeetsBodilessClosure stream i k) :
    stream.returnsValue i = .error (.broken .closureWithoutBody k) := by
  obtain ⟨function, o, c, start, hf, hbetween, hstart, hv, hlt⟩ := hmeets.body
  obtain ⟨closure, hclosure, hkind, hno⟩ := hmeets.closure
  obtain rfl := Option.some.inj (h.symm.trans hf)
  obtain ⟨o', c', hbetween', -, -, hsize, -⟩ := hs.body h (Or.inl hk) (link_between_ne hbetween)
  obtain ⟨rfl, rfl⟩ := link_between_inj (hbetween.symm.trans hbetween')
  obtain ⟨start', hstart', heq⟩ := hs.returnsValue_eq h hk hbetween
  obtain rfl := Option.some.inj (hstart.symm.trans hstart')
  rw [heq]
  exact hs.scanReturns_eq hv (.stuck hlt hclosure hkind hno) (by omega)

/-- Asking whether a function returns a value has an answer, unless the scan meets a closure without a
body. -/
theorem Sound.returnsValue_cases (hs : stream.Sound) (h : stream[i]? = some token)
    (hk : token.kind = .function) :
    (∃ value, stream.returnsValue i = .ok value) ∨ ∃ k, MeetsBodilessClosure stream i k := by
  by_cases hscope : token.scope = {}
  · exact Or.inl ⟨false, returnsValue_no_body h hscope⟩
  · obtain ⟨o, c, hbetween, -, -, hsize, -⟩ := hs.body h (Or.inl hk) hscope
    obtain ⟨start, hstart, heq⟩ := hs.returnsValue_eq h hk hbetween
    obtain ⟨k, answer, hv, hh⟩ := hs.exists_halts (Nat.le_of_lt hsize) start
    have hscan : stream.returnsValue i = answer :=
      heq.trans (hs.scanReturns_eq hv hh (by omega))
    cases hh with
    | done hle => exact Or.inl ⟨false, hscan⟩
    | value hlt ht hword hvalue => exact Or.inl ⟨true, hscan⟩
    | stuck hlt ht hkind hno =>
      exact Or.inr ⟨k, ⟨token, o, c, start, h, hbetween, hstart, hv, hlt⟩, ⟨_, ht, hkind, hno⟩⟩

end Stream

end DocLint
