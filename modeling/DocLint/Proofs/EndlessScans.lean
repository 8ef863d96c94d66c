import DocLint.Proofs.ReturnScan
import Mathlib.Data.Int.Interval

/-!
# When the scan for a returned value ends

On a stream that a caller hands in, the links of a closure may lead anywhere. A round of the scan looks at the token
at its cursor, and ends the scan or moves the cursor (`Stream.round`). The cursors that go on are indices of tokens,
counted from either end, so among more than `2 * size` of them one comes twice, and then the scan goes round for ever
(`Stream.cursorAfter_forever`). This is why the bound on the steps of the scan is right: it is reached exactly by the
scans that have no end (`Stream.scanReturns_endless_iff`).

The cursor moves forwards in every round exactly if each closure on its way is closed no earlier than it stands, and
then the scan ends. Nothing checks this: a closure that is closed before it sends the scan back.
-/

namespace DocLint

/-- What one round of a scan does. -/
inductive Round where
  /-- The scan goes on at another cursor. -/
  | goesOn (cursor : Int)
  /-- The scan ends with an answer. -/
  | ends (answer : Except Fault Bool)
  deriving DecidableEq

namespace Stream

/-- One round of the scan before `stop`, at a cursor. -/
def round (stream : Stream) (stop cursor : Int) : Round :=
  if cursor < stop then
    match stream.fetch cursor with
    | .error fault => .ends (.error fault)
    | .ok token =>
      if token.kind = .closure then
        match token.scope.closer with
        | none => .ends (.error (.broken .closureWithoutBody cursor))
        | some closer => .goesOn (closer + 1)
      else if token.kind = .returnWord then
        match stream.returnsValueAt cursor with
        | .error fault => .ends (.error fault)
        | .ok true => .ends (.ok true)
        | .ok false => .goesOn (cursor + 1)
      else .goesOn (cursor + 1)
  else .ends (.ok false)

/-- The cursor after some rounds, if the scan has not ended before. -/
def cursorAfter (stream : Stream) (stop : Int) : (rounds : Nat) → (cursor : Int) → Option Int
  | 0, cursor => some cursor
  | rounds + 1, cursor =>
    match stream.round stop cursor with
    | .goesOn next => cursorAfter stream stop rounds next
    | .ends _ => none

variable {stream : Stream} {stop cursor start next i j : Int} {n m steps : Nat} {token : Token}
  {answer : Except Fault Bool}

/-! ## Rounds -/

/-- The scan is its rounds, one after the other. -/
theorem scanReturns_succ :
    stream.scanReturns stop (steps + 1) cursor = match stream.round stop cursor with
      | .goesOn next => stream.scanReturns stop steps next
      | .ends answer => answer := by
  rw [scanReturns, round]
  by_cases hlt : cursor < stop
  · rw [if_pos hlt, if_pos hlt]
    cases stream.fetch cursor with
    | error fault => rfl
    | ok token =>
      simp only [bind, Except.bind]
      split
      · next hclosure =>
        rw [if_pos hclosure]
        cases token.scope.closer with
        | none => rfl
        | some closer => rfl
      · next hreturn =>
        rw [if_neg (by rw [hreturn]; decide), if_pos hreturn]
        cases stream.returnsValueAt cursor with
        | error fault => rfl
        | ok value =>
          cases value with
          | true => rfl
          | false => rfl
      · next hclosure hreturn => rw [if_neg hclosure, if_neg hreturn]
  · rw [if_neg hlt, if_neg hlt]

/-- A round that goes on has a token before it, and passes over a closure or over one token. -/
theorem round_goesOn (h : stream.round stop cursor = .goesOn next) :
    cursor < stop ∧ ∃ token, stream.fetch cursor = .ok token ∧
      ((token.kind = .closure ∧ token.scope.closer = some (next - 1)) ∨
        (token.kind ≠ .closure ∧ next = cursor + 1)) := by
  rw [round] at h
  split at h
  · next hlt =>
    refine ⟨hlt, ?_⟩
    split at h
    · cases h
    · next token hfetch =>
      refine ⟨token, hfetch, ?_⟩
      split at h
      · next hclosure =>
        split at h
        · cases h
        · next closer hcloser =>
          obtain rfl : closer + 1 = next := Round.goesOn.inj h
          exact Or.inl ⟨hclosure, by rw [hcloser, Int.add_sub_cancel]⟩
      · next hclosure =>
        refine Or.inr ⟨hclosure, ?_⟩
        split at h
        · split at h
          · cases h
          · cases h
          · exact (Round.goesOn.inj h).symm
        · exact (Round.goesOn.inj h).symm
  · cases h

theorem fetch_ne_endless : stream.fetch cursor ≠ .error (.endless i) := by
  unfold fetch
  cases stream.token? cursor with
  | none => simp
  | some token => simp

theorem valueFollows_ne_endless : stream.valueFollows cursor ≠ .error (.endless i) := by
  fun_induction valueFollows stream cursor with
  | case1 cursor hlt ih =>
    cases hfetch : stream.fetch cursor with
    | error fault =>
      intro hfault
      obtain rfl : fault = .endless i := by simpa [bind, Except.bind] using hfault
      exact fetch_ne_endless hfetch
    | ok token =>
      change (if (token.kind == .gap) = true then _ else _) ≠ _
      split
      · exact ih
      · simp [pure, Except.pure]
  | case2 => simp

/-- A round does not notice that the scan has no end. -/
theorem round_ne_endless : stream.round stop cursor ≠ .ends (.error (.endless i)) := by
  intro h
  rw [round] at h
  split at h
  · split at h
    · next fault hfetch =>
      obtain rfl : fault = .endless i := by simpa using h
      exact fetch_ne_endless hfetch
    · split at h
      · split at h
        · simp at h
        · cases h
      · split at h
        · split at h
          · next fault hvalue =>
            obtain rfl : fault = .endless i := by simpa using h
            exact valueFollows_ne_endless hvalue
          · simp at h
          · cases h
        · cases h
  · simp at h

/-! ## The cursor -/

theorem cursorAfter_add :
    stream.cursorAfter stop (n + m) cursor =
      (stream.cursorAfter stop n cursor).bind (stream.cursorAfter stop m) := by
  induction n generalizing cursor with
  | zero => rw [Nat.zero_add, cursorAfter, Option.bind_some]
  | succ n ih =>
    rw [Nat.add_right_comm, cursorAfter, cursorAfter]
    cases stream.round stop cursor with
    | goesOn next => exact ih
    | ends answer => rfl

/-- One round more. -/
theorem cursorAfter_succ :
    stream.cursorAfter stop (n + 1) start = some j ↔
      ∃ i, stream.cursorAfter stop n start = some i ∧ stream.round stop i = .goesOn j := by
  rw [cursorAfter_add, Option.bind_eq_some_iff]
  refine exists_congr fun i => and_congr_right fun _ => ?_
  rw [cursorAfter]
  cases stream.round stop i with
  | goesOn next => simp [cursorAfter]
  | ends answer => simp

theorem scanReturns_add (h : stream.cursorAfter stop n start = some i) :
    stream.scanReturns stop (n + steps) start = stream.scanReturns stop steps i := by
  induction n generalizing start with
  | zero =>
    rw [Nat.zero_add, Option.some.inj h]
  | succ n ih =>
    rw [Nat.add_right_comm, scanReturns_succ]
    rw [cursorAfter] at h
    cases hround : stream.round stop start with
    | goesOn next =>
      rw [hround] at h
      exact ih h
    | ends answer =>
      rw [hround] at h
      cases h

/-- A scan that has no cursor after some rounds has ended in one of them. -/
theorem exists_ends (h : stream.cursorAfter stop n start = none) :
    ∃ m i answer, m < n ∧ stream.cursorAfter stop m start = some i ∧ stream.round stop i = .ends answer := by
  induction n with
  | zero => cases h
  | succ n ih =>
    cases hn : stream.cursorAfter stop n start with
    | none =>
      obtain ⟨m, i, answer, hlt, hm, hround⟩ := ih hn
      exact ⟨m, i, answer, by omega, hm, hround⟩
    | some i =>
      cases hround : stream.round stop i with
      | goesOn next =>
        rw [cursorAfter_succ.2 ⟨i, hn, hround⟩] at h
        cases h
      | ends answer => exact ⟨n, i, answer, by omega, hn, hround⟩

theorem cursorAfter_of_le (h : (stream.cursorAfter stop n start).isSome = true) (hle : m ≤ n) :
    (stream.cursorAfter stop m start).isSome = true := by
  obtain ⟨more, rfl⟩ := Nat.exists_eq_add_of_le hle
  rw [cursorAfter_add] at h
  cases hm : stream.cursorAfter stop m start with
  | none =>
    rw [hm] at h
    cases h
  | some i => rfl

/-- There is a token at an index that may count from the end. -/
theorem fetch_bounds (h : stream.fetch cursor = .ok token) :
    -(stream.size : Int) ≤ cursor ∧ cursor < stream.size := by
  unfold fetch token? resolveIndex? at h
  split at h
  · next found htoken =>
    split at htoken
    · split at htoken
      · omega
      · cases htoken
    · split at htoken
      · omega
      · cases htoken
  · cases h

/-- More cursors than there are indices, so one of them comes again. -/
theorem exists_repeat (h : (stream.cursorAfter stop (2 * stream.size + 1) start).isSome = true) :
    ∃ m n, m < n ∧ n ≤ 2 * stream.size ∧
      stream.cursorAfter stop m start = stream.cursorAfter stop n start := by
  -- every cursor but the last goes on, and so is the index of a token
  have hbounds : ∀ n ∈ Finset.range (2 * stream.size + 1), ∃ i : Int,
      stream.cursorAfter stop n start = some i ∧ i ∈ Finset.Ico (-(stream.size : Int)) stream.size := by
    intro n hn
    have hlt := Finset.mem_range.1 hn
    obtain ⟨j, hj⟩ := Option.isSome_iff_exists.1 (cursorAfter_of_le h (show n + 1 ≤ 2 * stream.size + 1 by omega))
    obtain ⟨i, hi, hround⟩ := cursorAfter_succ.1 hj
    obtain ⟨-, token, hfetch, -⟩ := round_goesOn hround
    exact ⟨i, hi, Finset.mem_Ico.2 (fetch_bounds hfetch)⟩
  have hcard : (Finset.Ico (-(stream.size : Int)) stream.size).card < (Finset.range (2 * stream.size + 1)).card := by
    rw [Int.card_Ico, Finset.card_range]
    omega
  have hmaps : Set.MapsTo (fun n => (stream.cursorAfter stop n start).getD 0)
      (Finset.range (2 * stream.size + 1)) (Finset.Ico (-(stream.size : Int)) stream.size) := by
    intro n hn
    obtain ⟨i, hi, hmem⟩ := hbounds n hn
    simpa [hi] using hmem
  obtain ⟨m, hm, n, hn, hne, heq⟩ := Finset.exists_ne_map_eq_of_card_lt_of_maps_to hcard hmaps
  obtain ⟨i, hi, -⟩ := hbounds m hm
  obtain ⟨j, hj, -⟩ := hbounds n hn
  have hsame : stream.cursorAfter stop m start = stream.cursorAfter stop n start := by
    simp only [hi, hj, Option.getD_some] at heq
    rw [hi, hj, heq]
  have hm' := Finset.mem_range.1 hm
  have hn' := Finset.mem_range.1 hn
  rcases Nat.lt_or_gt_of_ne hne with hlt | hgt
  · exact ⟨m, n, hlt, by omega, hsame⟩
  · exact ⟨n, m, hgt, by omega, hsame.symm⟩

/-- A scan that takes more rounds than there are indices takes any number of rounds. -/
theorem cursorAfter_forever (h : (stream.cursorAfter stop (2 * stream.size + 1) start).isSome = true) (k : Nat) :
    (stream.cursorAfter stop k start).isSome = true := by
  obtain ⟨m, n, hlt, hle, hsame⟩ := exists_repeat h
  -- from the second time on, the scan does what it did from the first time on
  induction k using Nat.strong_induction_on with
  | _ k ih =>
    rcases Nat.lt_or_ge k n with hk | hk
    · exact cursorAfter_of_le h (by omega)
    · obtain ⟨more, rfl⟩ := Nat.exists_eq_add_of_le hk
      rw [cursorAfter_add, ← hsame, ← cursorAfter_add]
      exact ih (m + more) (by omega)

/-- A scan that ends has its answer within the bound on its steps. -/
theorem scanReturns_of_ends (h : stream.cursorAfter stop n start = some i)
    (hends : stream.round stop i = .ends answer) :
    stream.scanReturns stop (2 * stream.size + 1) start = answer := by
  have hnone : stream.cursorAfter stop (n + 1) start = none := by
    cases hnext : stream.cursorAfter stop (n + 1) start with
    | none => rfl
    | some j =>
      obtain ⟨i', hi', hround⟩ := cursorAfter_succ.1 hnext
      obtain rfl := Option.some.inj (h.symm.trans hi')
      rw [hends] at hround
      cases hround
  have hle : n ≤ 2 * stream.size := by
    by_contra hgt
    have hlong : (stream.cursorAfter stop n start).isSome = true := by rw [h]; rfl
    have hforever := cursorAfter_forever (cursorAfter_of_le hlong (show 2 * stream.size + 1 ≤ n by omega)) (n + 1)
    rw [hnone] at hforever
    cases hforever
  obtain ⟨spare, hspare⟩ : ∃ spare, 2 * stream.size + 1 = n + (spare + 1) := ⟨2 * stream.size - n, by omega⟩
  rw [hspare, scanReturns_add h, scanReturns_succ, hends]

/-- The bound on the steps is reached by the scans that have no end, and by no other. -/
theorem scanReturns_endless_iff :
    (∃ index, stream.scanReturns stop (2 * stream.size + 1) start = .error (.endless index)) ↔
      ∀ n, (stream.cursorAfter stop n start).isSome = true := by
  constructor
  · rintro ⟨index, hendless⟩ n
    cases hn : stream.cursorAfter stop n start with
    | some i => rfl
    | none =>
      obtain ⟨m, i, answer, -, hm, hends⟩ := exists_ends hn
      rw [scanReturns_of_ends hm hends] at hendless
      rw [hendless] at hends
      exact absurd hends round_ne_endless
  · intro hall
    obtain ⟨j, hj⟩ := Option.isSome_iff_exists.1 (hall (2 * stream.size + 2))
    obtain ⟨i, hi, hround⟩ := cursorAfter_succ.1 hj
    obtain ⟨hlt, -⟩ := round_goesOn hround
    refine ⟨i, ?_⟩
    have hsteps : stream.scanReturns stop (2 * stream.size + 1 + 0) start = stream.scanReturns stop 0 i :=
      scanReturns_add hi
    rw [Nat.add_zero] at hsteps
    rw [hsteps, scanReturns, if_pos hlt]

/-! ## Forward scans -/

/-- In every round the cursor moves forwards. -/
def MovesForward (stream : Stream) (stop start : Int) : Prop :=
  ∀ (n : Nat) (i j : Int), stream.cursorAfter stop n start = some i →
    stream.cursorAfter stop (n + 1) start = some j → i < j

/-- Every closure that the scan comes to is closed no earlier than it stands. -/
def ClosedAhead (stream : Stream) (stop start : Int) : Prop :=
  ∀ (n : Nat) (i closer : Int) (token : Token), stream.cursorAfter stop n start = some i → i < stop →
    stream.fetch i = .ok token → token.kind = .closure → token.scope.closer = some closer → i ≤ closer

theorem round_closure (hlt : i < stop) (h : stream.fetch i = .ok token) (hk : token.kind = .closure) {closer : Int}
    (hcloser : token.scope.closer = some closer) : stream.round stop i = .goesOn (closer + 1) := by
  rw [round, if_pos hlt, h]
  simp [hk, hcloser]

theorem movesForward_iff : stream.MovesForward stop start ↔ stream.ClosedAhead stop start := by
  constructor
  · intro hforward n i closer token hi hlt hfetch hk hcloser
    have hnext := cursorAfter_succ.2 ⟨i, hi, round_closure hlt hfetch hk hcloser⟩
    have := hforward n i (closer + 1) hi hnext
    omega
  · intro hahead n i j hi hj
    obtain ⟨i', hi', hround⟩ := cursorAfter_succ.1 hj
    obtain rfl := Option.some.inj (hi.symm.trans hi')
    obtain ⟨hlt, token, hfetch, ⟨hk, hcloser⟩ | ⟨-, rfl⟩⟩ := round_goesOn hround
    · have := hahead n i (j - 1) token hi hlt hfetch hk hcloser
      omega
    · omega

theorem MovesForward.add_le (h : stream.MovesForward stop start) (hn : stream.cursorAfter stop n start = some i) :
    start + n ≤ i := by
  induction n generalizing i with
  | zero =>
    obtain rfl := Option.some.inj hn
    omega
  | succ n ih =>
    obtain ⟨before, hbefore, -⟩ := cursorAfter_succ.1 hn
    have hlt := h n before i hbefore hn
    have hle := ih hbefore
    omega

/-- A scan whose cursor moves forwards ends, after no more rounds than there are tokens before its end. -/
theorem MovesForward.exists_ends (h : stream.MovesForward stop start) :
    ∃ n i answer, n ≤ (stop - start).toNat ∧ stream.cursorAfter stop n start = some i ∧
      stream.round stop i = .ends answer := by
  have hnone : stream.cursorAfter stop ((stop - start).toNat + 1) start = none := by
    cases hsome : stream.cursorAfter stop ((stop - start).toNat + 1) start with
    | none => rfl
    | some j =>
      obtain ⟨i, hi, hround⟩ := cursorAfter_succ.1 hsome
      have hle := h.add_le hi
      have hlt := (round_goesOn hround).1
      omega
  obtain ⟨n, i, answer, hn, hi, hends⟩ := Stream.exists_ends hnone
  exact ⟨n, i, answer, by omega, hi, hends⟩

/-! ### Sound streams -/

theorem Sound.lt_closer_of_fetch (hs : stream.Sound) (h0 : 0 ≤ i) (h : stream.fetch i = .ok token)
    (hk : token.kind = .closure) {closer : Int} (hcloser : token.scope.closer = some closer) : i < closer := by
  obtain ⟨k, rfl⟩ := Int.eq_ofNat_of_zero_le h0
  have hat := getElem?_of_fetch h
  have hne : token.scope ≠ {} := by
    intro hempty
    rw [hempty] at hcloser
    cases hcloser
  obtain ⟨o, c, hscope, hko, hoc, -, -⟩ := hs.body hat (Or.inr hk) hne
  have heq : (c : Int) = closer := by
    rw [hscope] at hcloser
    exact Option.some.inj hcloser
  omega

theorem Sound.cursor_nonneg (hs : stream.Sound) (hstart : 0 ≤ start) (h : stream.cursorAfter stop n start = some i) :
    0 ≤ i := by
  induction n generalizing i with
  | zero =>
    obtain rfl := Option.some.inj h
    exact hstart
  | succ n ih =>
    obtain ⟨before, hbefore, hround⟩ := cursorAfter_succ.1 h
    have h0 := ih hbefore
    obtain ⟨-, token, hfetch, ⟨hk, hcloser⟩ | ⟨-, rfl⟩⟩ := round_goesOn hround
    · have := hs.lt_closer_of_fetch h0 hfetch hk hcloser
      omega
    · omega

/-- On a sound stream every closure is closed behind it. -/
theorem Sound.closedAhead (hs : stream.Sound) (hstart : 0 ≤ start) : stream.ClosedAhead stop start := by
  intro n i closer token hi _ hfetch hk hcloser
  exact Int.le_of_lt (hs.lt_closer_of_fetch (hs.cursor_nonneg hstart hi) hfetch hk hcloser)

/-! ## Functions -/

/-- The body of the function at an index is scanned from `start` on and before `stop`. -/
structure ScansBody (stream : Stream) (function : Int) (start : Nat) (stop : Int) : Prop where
  body : ∃ token, stream.fetch function = .ok token ∧ token.scope.opener.isSome = true ∧
    token.scope.closer = some stop
  brace : stream.findNext { kinds := [.openBrace] } function (some stop) = some start

theorem ScansBody.returnsValue_eq {function : Int} {start : Nat} (h : stream.ScansBody function start stop) :
    stream.returnsValue function = stream.scanReturns stop (2 * stream.size + 1) start := by
  obtain ⟨token, hfetch, hopener, hcloser⟩ := h.body
  obtain ⟨opener, hopener⟩ := Option.isSome_iff_exists.1 hopener
  rw [returnsValue, hfetch]
  simp [bind, Except.bind, hopener, hcloser, h.brace]

/-- Without a scan there is no endless one. -/
theorem returnsValue_ne_endless {function : Int}
    (h : ∀ start stop, ¬ stream.ScansBody function start stop) :
    stream.returnsValue function ≠ .error (.endless i) := by
  intro hendless
  unfold returnsValue at hendless
  cases hfetch : stream.fetch function with
  | error fault =>
    obtain rfl : fault = .endless i := by simpa [hfetch, bind, Except.bind] using hendless
    exact fetch_ne_endless hfetch
  | ok token =>
    simp only [hfetch, bind, Except.bind] at hendless
    split at hendless
    · next opener stop hopener hcloser =>
      split at hendless
      · cases hendless
      · next start hbrace => exact h start stop ⟨⟨token, hfetch, by rw [hopener]; rfl, hcloser⟩, hbrace⟩
    · cases hendless

/-- Whatever the links of a stream, the scan of a function for a returned value.

* Its cursor moves forwards in every round if and only if each closure on its way is closed no earlier than it stands.
* Then it ends, after no more rounds than there are tokens before its end, with the answer that is given.
* It is reported to have no end if and only if it goes on after any number of rounds. -/
theorem return_scan_ends (stream : Stream) (function : Int) :
    (∀ start stop, stream.ScansBody function start stop →
      (stream.MovesForward stop start ↔ stream.ClosedAhead stop start) ∧
      (stream.ClosedAhead stop start → ∃ n i answer, n ≤ (stop - start).toNat ∧
        stream.cursorAfter stop n start = some i ∧ stream.round stop i = .ends answer ∧
        stream.returnsValue function = answer) ∧
      ((∃ index, stream.returnsValue function = .error (.endless index)) ↔
        ∀ n, (stream.cursorAfter stop n start).isSome = true)) ∧
    ((∀ start stop, ¬ stream.ScansBody function start stop) →
      ∀ index, stream.returnsValue function ≠ .error (.endless index)) := by
  constructor
  · intro start stop hscan
    refine ⟨movesForward_iff, ?_, ?_⟩
    · intro hahead
      obtain ⟨n, i, answer, hn, hi, hends⟩ := (movesForward_iff.2 hahead).exists_ends
      exact ⟨n, i, answer, hn, hi, hends, hscan.returnsValue_eq.trans (scanReturns_of_ends hi hends)⟩
    · rw [hscan.returnsValue_eq]
      exact scanReturns_endless_iff
  · intro hnone index
    exact returnsValue_ne_endless hnone

/-- A function before which a value is returned, and whose body has a closure. -/
def returnBefore : Text := "<?php return 1; function f() \x7b function () \x7b\x7d; \x7d".toList

theorem scansBody_of_any {function : Int} {start : Nat}
    (hbody : (stream.fetch function).toOption.any (fun token =>
      token.scope.opener.isSome && token.scope.closer == some stop) = true)
    (hbrace : stream.findNext { kinds := [.openBrace] } function (some stop) = some start) :
    stream.ScansBody function start stop := by
  obtain ⟨token, hfetch, hscope⟩ := exists_eq_ok_of_any hbody
  simp only [Bool.and_eq_true, beq_iff_eq] at hscope
  exact ⟨⟨token, hfetch, hscope⟩, hbrace⟩

/-- The closure in the body is passed over, and the scan ends. -/
theorem return_scan_ends_closure :
    ∃ stream, ofSource returnBefore = .ok stream ∧ stream.ScansBody 7 13 24 ∧ stream.ClosedAhead 24 13 ∧
      ∃ n i answer, n ≤ 11 ∧ stream.cursorAfter 24 n 13 = some i ∧ stream.round 24 i = .ends answer ∧
        stream.returnsValue 7 = answer := by
  have hrun : (ofSource returnBefore).toOption.any (fun stream =>
      (stream.fetch 7).toOption.any (fun token => token.scope.opener.isSome && token.scope.closer == some 24) &&
        stream.findNext { kinds := [.openBrace] } 7 (some 24) == some 13) = true := by
    decide +kernel
  obtain ⟨stream, h, hat⟩ := exists_eq_ok_of_any hrun
  simp only [Bool.and_eq_true, beq_iff_eq] at hat
  have hscan : stream.ScansBody 7 13 24 := scansBody_of_any hat.1 hat.2
  have hahead : stream.ClosedAhead 24 13 := (sound h).closedAhead (by decide)
  obtain ⟨-, hends, -⟩ := (return_scan_ends stream 7).1 13 24 hscan
  exact ⟨stream, h, hscan, hahead, hends hahead⟩

/-- The stream with another end for the body that the token at an index declares. -/
def redirect (stream : Stream) (i : Nat) (closer : Int) : Stream :=
  stream.modify i fun token => { token with scope := { token.scope with closer := some closer } }

/-- Closed at the start of the stream, the closure sends the scan back to what stands before the function, and the value
returned there is taken for one of the function. Closed right before it stands, the closure is met again and again. -/
theorem closure_closed_before_sends_back :
    ∃ stream, ofSource returnBefore = .ok stream ∧
      ((stream.redirect 15 0).ScansBody 7 13 24 ∧ (stream.redirect 15 0).cursorAfter 24 2 13 = some 15 ∧
        (stream.redirect 15 0).cursorAfter 24 3 13 = some 1 ∧ (stream.redirect 15 0).returnsValue 7 = .ok true) ∧
      (stream.redirect 15 14).ScansBody 7 13 24 ∧
        ∀ n, ((stream.redirect 15 14).cursorAfter 24 n 13).isSome = true := by
  have hrun : (ofSource returnBefore).toOption.any (fun stream =>
      let scans (stream : Stream) :=
        (stream.fetch 7).toOption.any (fun token => token.scope.opener.isSome && token.scope.closer == some 24) &&
          stream.findNext { kinds := [.openBrace] } 7 (some 24) == some 13
      scans (stream.redirect 15 0) && (stream.redirect 15 0).cursorAfter 24 2 13 == some 15 &&
        (stream.redirect 15 0).cursorAfter 24 3 13 == some 1 &&
        (stream.redirect 15 0).returnsValue 7 == .ok true && scans (stream.redirect 15 14) &&
        (stream.redirect 15 14).returnsValue 7 == .error (.endless 15)) = true := by
    decide +kernel
  obtain ⟨stream, h, hat⟩ := exists_eq_ok_of_any hrun
  simp only [Bool.and_eq_true, beq_iff_eq] at hat
  obtain ⟨⟨⟨⟨⟨hback, hbefore⟩, hafter⟩, hvalue⟩, hcircle⟩, hendless⟩ := hat
  have hscan : (stream.redirect 15 14).ScansBody 7 13 24 := scansBody_of_any hcircle.1 hcircle.2
  refine ⟨stream, h, ⟨scansBody_of_any hback.1 hback.2, hbefore, hafter, hvalue⟩, hscan, ?_⟩
  rw [hscan.returnsValue_eq] at hendless
  exact scanReturns_endless_iff.1 ⟨15, hendless⟩

end Stream

end DocLint
