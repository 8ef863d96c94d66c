import DocLint.Proofs.Search
import Mathlib.Order.Bounds.Basic

/-!
# Bounds and direction of a search

A search may start and end anywhere, also before the stream or behind it. Forwards it finds the least match between
its bounds and backwards the greatest, with the end left out forwards and included backwards. For all that the two are
one search: backwards is forwards over the reversed stream, with both bounds mirrored. No search looks outside the
stream (`Stream.searches_exact`).

That a search stays inside the stream cannot be seen from what it finds, since a look outside finds no token and the
search goes on. So it is stated with a search that is strict about it: `Stream.sweep` fails at the first look outside,
and it never does.
-/

namespace DocLint

/-- What a query asks of a token: to be of one of its kinds and to have the content, if one is given. If the kinds are
excluded, it asks for any other kind and leaves the content open. -/
def Query.Wants (query : Query) (token : Token) : Prop :=
  if query.exclude then token.kind ∉ query.kinds
  else token.kind ∈ query.kinds ∧ ∀ content, query.content = some content → token.content = content

theorem Query.accepts_iff_wants {query : Query} {token : Token} :
    query.accepts token = true ↔ query.Wants token := by
  rw [Query.accepts, Query.Wants]
  split
  · simp
  · cases query.content with
    | none => simp
    | some content => simp [@eq_comm _ content]

namespace Stream

variable {stream : Stream} {query : Query} {start : Int} {stop : Option Int} {i : Nat}

/-- The token at an index is one that the query asks for. -/
def Matches (stream : Stream) (query : Query) (index : Nat) : Prop :=
  ∃ token, stream[index]? = some token ∧ query.Wants token

theorem accepts_iff_matches : stream.accepts query i = true ↔ stream.Matches query i := by
  rw [accepts_eq_true]
  exact exists_congr fun token => and_congr_right fun _ => Query.accepts_iff_wants

theorem accepts_eq_false_iff : stream.accepts query i = false ↔ ¬ stream.Matches query i := by
  rw [← accepts_iff_matches, Bool.not_eq_true]

theorem Matches.lt_size (h : stream.Matches query i) : i < stream.size := by
  obtain ⟨token, ht, -⟩ := h
  exact (Array.getElem?_eq_some_iff.1 ht).1

/-! ## The nearest match -/

/-- The matches that a search forwards may find: from its start on, before its end and before the stream's. -/
def matchesAhead (stream : Stream) (query : Query) (start : Int) (stop : Option Int) : Set Nat :=
  {i | start ≤ i ∧ (i : Int) < min (stop.getD stream.size) stream.size ∧ stream.Matches query i}

/-- The matches that a search backwards may find: up to its start, not before its end and not before the stream's. -/
def matchesBehind (stream : Stream) (query : Query) (start : Int) (stop : Option Int) : Set Nat :=
  {i | max (stop.getD 0) 0 ≤ i ∧ (i : Int) ≤ start ∧ stream.Matches query i}

theorem mem_matchesAhead :
    i ∈ stream.matchesAhead query start stop ↔
      start ≤ i ∧ (i : Int) < stop.getD stream.size ∧ stream.Matches query i := by
  rw [matchesAhead, Set.mem_ofPred_eq]
  constructor
  · rintro ⟨hge, hlt, hi⟩
    exact ⟨hge, by omega, hi⟩
  · rintro ⟨hge, hlt, hi⟩
    have hsize := hi.lt_size
    exact ⟨hge, by omega, hi⟩

theorem mem_matchesBehind :
    i ∈ stream.matchesBehind query start stop ↔
      stop.getD 0 ≤ i ∧ (i : Int) ≤ start ∧ stream.Matches query i := by
  rw [matchesBehind, Set.mem_ofPred_eq]
  constructor
  · rintro ⟨hge, hle, hi⟩
    exact ⟨by omega, hle, hi⟩
  · rintro ⟨hge, hle, hi⟩
    exact ⟨by omega, hle, hi⟩

theorem lt_size_of_mem_matchesAhead (h : i ∈ stream.matchesAhead query start stop) : i < stream.size :=
  (mem_matchesAhead.1 h).2.2.lt_size

theorem lt_size_of_mem_matchesBehind (h : i ∈ stream.matchesBehind query start stop) : i < stream.size :=
  (mem_matchesBehind.1 h).2.2.lt_size

theorem findNext_eq_some_iff_isLeast :
    stream.findNext query start stop = some i ↔
      0 ≤ start ∧ IsLeast (stream.matchesAhead query start stop) i := by
  rw [findNext_eq_some]
  constructor
  · rintro ⟨h0, hge, hlt, -, hi, hbefore⟩
    refine ⟨h0, mem_matchesAhead.2 ⟨hge, hlt, accepts_iff_matches.1 hi⟩, fun j hj => ?_⟩
    obtain ⟨hstart, -, hmatch⟩ := mem_matchesAhead.1 hj
    by_contra hji
    exact accepts_eq_false_iff.1 (hbefore j hstart (by omega)) hmatch
  · rintro ⟨h0, hmem, hleast⟩
    obtain ⟨hge, hlt, hi⟩ := mem_matchesAhead.1 hmem
    refine ⟨h0, hge, hlt, hi.lt_size, accepts_iff_matches.2 hi, fun j hstart hji => ?_⟩
    refine accepts_eq_false_iff.2 fun hmatch => ?_
    have hij : i ≤ j := hleast (mem_matchesAhead.2 ⟨hstart, by omega, hmatch⟩)
    omega

theorem findPrevious_eq_some_iff_isGreatest :
    stream.findPrevious query start stop = some i ↔
      (0 ≤ start ∧ start < stream.size) ∧ IsGreatest (stream.matchesBehind query start stop) i := by
  rw [findPrevious_eq_some]
  constructor
  · rintro ⟨h0, hsize, hge, hle, hi, hafter⟩
    refine ⟨⟨h0, hsize⟩, mem_matchesBehind.2 ⟨hge, hle, accepts_iff_matches.1 hi⟩, fun j hj => ?_⟩
    obtain ⟨-, hstart, hmatch⟩ := mem_matchesBehind.1 hj
    by_contra hij
    exact accepts_eq_false_iff.1 (hafter j (by omega) hstart) hmatch
  · rintro ⟨⟨h0, hsize⟩, hmem, hgreatest⟩
    obtain ⟨hge, hle, hi⟩ := mem_matchesBehind.1 hmem
    refine ⟨h0, hsize, hge, hle, accepts_iff_matches.2 hi, fun j hij hstart => ?_⟩
    refine accepts_eq_false_iff.2 fun hmatch => ?_
    have hji : j ≤ i := hgreatest (mem_matchesBehind.2 ⟨by omega, hstart, hmatch⟩)
    omega

theorem findNext_eq_none_iff :
    stream.findNext query start stop = none ↔ start < 0 ∨ stream.matchesAhead query start stop = ∅ := by
  constructor
  · intro hnone
    by_contra hcon
    rw [not_or, ← ne_eq, ← Set.nonempty_iff_ne_empty] at hcon
    obtain ⟨h0, i, hi⟩ := hcon
    obtain ⟨first, rfl⟩ := Int.eq_ofNat_of_zero_le (not_lt.1 h0)
    obtain ⟨hge, hlt, hmatch⟩ := mem_matchesAhead.1 hi
    obtain ⟨found, hfound, -⟩ := exists_findNext (Int.ofNat_le.1 hge) hlt (accepts_iff_matches.2 hmatch)
    rw [hnone] at hfound
    cases hfound
  · intro h
    rw [Option.eq_none_iff_forall_ne_some]
    intro i hi
    obtain ⟨h0, hmem, -⟩ := findNext_eq_some_iff_isLeast.1 hi
    rcases h with hneg | hempty
    · omega
    · rw [hempty] at hmem
      exact hmem

/-! ## Backwards is forwards over the reversed stream -/

theorem accepts_reverse (h : i < stream.size) :
    accepts stream.reverse query i = stream.accepts query (stream.size - 1 - i) := by
  rw [accepts, accepts, Array.getElem?_reverse h]

/-- The matches of the reversed stream are the mirrored matches. -/
theorem mem_matchesAhead_reverse (h : i < stream.size) :
    i ∈ matchesAhead stream.reverse query (stream.size - 1 - start) (some (stream.size - max (stop.getD 0) 0)) ↔
      stream.size - 1 - i ∈ stream.matchesBehind query start stop := by
  rw [mem_matchesAhead, mem_matchesBehind, ← accepts_iff_matches, ← accepts_iff_matches, accepts_reverse h,
    Option.getD_some]
  constructor
  · rintro ⟨hge, hlt, hi⟩
    exact ⟨by omega, by omega, hi⟩
  · rintro ⟨hge, hle, hi⟩
    exact ⟨by omega, by omega, hi⟩

theorem mirror_mem_matchesAhead (h : i ∈ stream.matchesBehind query start stop) :
    stream.size - 1 - i ∈
      matchesAhead stream.reverse query (stream.size - 1 - start) (some (stream.size - max (stop.getD 0) 0)) := by
  have hlt := lt_size_of_mem_matchesBehind h
  rw [mem_matchesAhead_reverse (by omega), Nat.sub_sub_self (by omega)]
  exact h

/-- Mirroring turns the order around, so it takes the least match to the greatest. -/
theorem isLeast_matchesAhead_reverse (h : i < stream.size) :
    IsLeast (matchesAhead stream.reverse query (stream.size - 1 - start)
        (some (stream.size - max (stop.getD 0) 0))) i ↔
      IsGreatest (stream.matchesBehind query start stop) (stream.size - 1 - i) := by
  constructor
  · rintro ⟨hmem, hleast⟩
    refine ⟨(mem_matchesAhead_reverse h).1 hmem, fun j hj => ?_⟩
    have hlt := lt_size_of_mem_matchesBehind hj
    have hij : i ≤ stream.size - 1 - j := hleast (mirror_mem_matchesAhead hj)
    omega
  · rintro ⟨hmem, hgreatest⟩
    refine ⟨(mem_matchesAhead_reverse h).2 hmem, fun j hj => ?_⟩
    have hlt : j < stream.size := by simpa using lt_size_of_mem_matchesAhead hj
    have hji : stream.size - 1 - j ≤ stream.size - 1 - i := hgreatest ((mem_matchesAhead_reverse hlt).1 hj)
    omega

/-- A search backwards is a search forwards over the reversed stream, wherever it starts and ends. -/
theorem findPrevious_eq_findNext_reverse :
    stream.findPrevious query start stop =
      (findNext stream.reverse query (stream.size - 1 - start) (some (stream.size - max (stop.getD 0) 0))).map
        (stream.size - 1 - ·) := by
  apply Option.ext
  intro i
  rw [findPrevious_eq_some_iff_isGreatest, Option.map_eq_some_iff]
  constructor
  · rintro ⟨⟨-, hsize⟩, hi⟩
    have hlt := lt_size_of_mem_matchesBehind hi.1
    have hself : stream.size - 1 - (stream.size - 1 - i) = i := by omega
    refine ⟨stream.size - 1 - i, findNext_eq_some_iff_isLeast.2 ⟨by omega, ?_⟩, hself⟩
    rw [isLeast_matchesAhead_reverse (by omega), hself]
    exact hi
  · rintro ⟨j, hj, rfl⟩
    obtain ⟨hstart, hleast⟩ := findNext_eq_some_iff_isLeast.1 hj
    have hlt : j < stream.size := by simpa using lt_size_of_mem_matchesAhead hleast.1
    have hgreatest := (isLeast_matchesAhead_reverse hlt).1 hleast
    have hle := (mem_matchesBehind.1 hgreatest.1).2.1
    exact ⟨⟨by omega, by omega⟩, hgreatest⟩

theorem matchesAhead_reverse_eq_empty :
    matchesAhead stream.reverse query (stream.size - 1 - start) (some (stream.size - max (stop.getD 0) 0)) = ∅ ↔
      stream.matchesBehind query start stop = ∅ := by
  rw [Set.eq_empty_iff_forall_notMem, Set.eq_empty_iff_forall_notMem]
  constructor
  · intro hnone i hi
    exact hnone _ (mirror_mem_matchesAhead hi)
  · intro hnone i hi
    have hlt : i < stream.size := by simpa using lt_size_of_mem_matchesAhead hi
    exact hnone _ ((mem_matchesAhead_reverse hlt).1 hi)

theorem findPrevious_eq_none_iff :
    stream.findPrevious query start stop = none ↔
      start < 0 ∨ stream.size ≤ start ∨ stream.matchesBehind query start stop = ∅ := by
  rw [findPrevious_eq_findNext_reverse, Option.map_eq_none_iff, findNext_eq_none_iff, matchesAhead_reverse_eq_empty]
  constructor
  · rintro (hstart | hempty)
    · exact .inr (.inl (by omega))
    · exact .inr (.inr hempty)
  · rintro (hstart | hstart | hempty)
    · refine .inr (Set.eq_empty_iff_forall_notMem.2 fun i hi => ?_)
      have hle := (mem_matchesBehind.1 hi).2.1
      omega
    · exact .inl (by omega)
    · exact .inr hempty

/-! ## Looks inside the stream -/

/-- One look at the token of an index. Outside the stream it fails, and no index counts from the end. -/
def look (stream : Stream) (query : Query) (index : Int) : Except Int Bool :=
  if h : 0 ≤ index ∧ index < stream.size then .ok (query.accepts stream[index.toNat]) else .error index

/-- One look after another, until a token is accepted: at `count` indices, the first at `start` and each next one a
`step` further. -/
def sweep (stream : Stream) (query : Query) (step : Int) : (start : Int) → (count : Nat) → Except Int (Option Int)
  | _, 0 => .ok none
  | start, count + 1 => do
    if ← stream.look query start then return some start
    stream.sweep query step (start + step) count

/-- The strict search forwards. -/
def sweepNext (stream : Stream) (query : Query) (start : Int) (stop : Option Int) : Except Int (Option Int) :=
  if start < 0 then .ok none
  else stream.sweep query 1 start (min (stop.getD stream.size) stream.size - start).toNat

/-- The strict search backwards. -/
def sweepPrevious (stream : Stream) (query : Query) (start : Int) (stop : Option Int) : Except Int (Option Int) :=
  if start < 0 ∨ stream.size ≤ start then .ok none
  else stream.sweep query (-1) start (start - max (stop.getD 0) 0 + 1).toNat

theorem look_of_lt (h : i < stream.size) : stream.look query i = .ok (stream.accepts query i) := by
  rw [look, dif_pos ⟨by omega, by omega⟩, accepts]
  simp [h]

theorem sweep_succ {step : Int} {count : Nat} (h : i < stream.size) :
    stream.sweep query step i (count + 1) =
      if stream.accepts query i then .ok (some (i : Int)) else stream.sweep query step (i + step) count := by
  rw [sweep, look_of_lt h]
  cases stream.accepts query i with
  | false => rfl
  | true => rfl

/-- Upwards and inside the stream no look fails. -/
theorem sweep_up {first count : Nat} (h : ∀ j, first ≤ j → j < first + count → j < stream.size) :
    stream.sweep query 1 first count =
      .ok ((firstIndex (stream.accepts query) first count).map Nat.cast) := by
  induction count generalizing first with
  | zero => rfl
  | succ count ih =>
    rw [sweep_succ (h first (Nat.le_refl _) (by omega)), firstIndex]
    split
    · rfl
    · show stream.sweep query 1 ((first + 1 : Nat) : Int) count = _
      exact ih fun j hj hlt => h j (Nat.le_of_succ_le hj) (by omega)

/-- Downwards and inside the stream no look fails. -/
theorem sweep_down {low high : Nat} (h : high ≤ stream.size) :
    stream.sweep query (-1) ((high : Int) - 1) (high - low) =
      .ok ((lastIndex (stream.accepts query) low high).map Nat.cast) := by
  induction high with
  | zero =>
    rw [Nat.zero_sub]
    rfl
  | succ high ih =>
    rw [lastIndex]
    by_cases hlow : high < low
    · rw [if_pos hlow, show high + 1 - low = 0 by omega]
      rfl
    · have hstart : ((high + 1 : Nat) : Int) - 1 = high := by omega
      rw [if_neg hlow, hstart, show high + 1 - low = high - low + 1 by omega, sweep_succ (by omega)]
      split
      · rfl
      · exact ih (by omega)

theorem sweepNext_eq :
    stream.sweepNext query start stop = .ok ((stream.findNext query start stop).map Nat.cast) := by
  rw [sweepNext, findNext]
  by_cases hneg : start < 0
  · rw [if_pos hneg, if_pos hneg]
    rfl
  · obtain ⟨first, rfl⟩ := Int.eq_ofNat_of_zero_le (not_lt.1 hneg)
    rw [if_neg hneg, if_neg hneg]
    exact sweep_up fun j hj hlt => by omega

theorem sweepPrevious_eq :
    stream.sweepPrevious query start stop = .ok ((stream.findPrevious query start stop).map Nat.cast) := by
  rw [sweepPrevious, findPrevious]
  by_cases hout : start < 0 ∨ stream.size ≤ start
  · rw [if_pos hout, if_pos (by simpa using hout)]
    rfl
  · rw [if_neg hout, if_neg (by simpa using hout), ← sweep_down (by omega)]
    congr 1
    · omega
    · omega

/-- What a search finds, whatever its bounds.

* Forwards: the least match from the start on, before the end and inside the stream. It finds nothing if there is none
  or if the start is negative.
* Backwards: the greatest match up to the start, not before the end and inside the stream. It finds nothing if there
  is none or if the start is outside the stream.
* Backwards is forwards over the reversed stream, from the mirrored start and up to the mirrored end.
* A search that fails at the first look outside the stream finds the same, so no search looks there. -/
theorem searches_exact (stream : Stream) (query : Query) (start : Int) (stop : Option Int) :
    (∀ i, stream.findNext query start stop = some i ↔
      0 ≤ start ∧ IsLeast (stream.matchesAhead query start stop) i) ∧
    (stream.findNext query start stop = none ↔ start < 0 ∨ stream.matchesAhead query start stop = ∅) ∧
    (∀ i, stream.findPrevious query start stop = some i ↔
      (0 ≤ start ∧ start < stream.size) ∧ IsGreatest (stream.matchesBehind query start stop) i) ∧
    (stream.findPrevious query start stop = none ↔
      start < 0 ∨ stream.size ≤ start ∨ stream.matchesBehind query start stop = ∅) ∧
    stream.findPrevious query start stop =
      (findNext stream.reverse query (stream.size - 1 - start) (some (stream.size - max (stop.getD 0) 0))).map
        (stream.size - 1 - ·) ∧
    stream.sweepNext query start stop = .ok ((stream.findNext query start stop).map Nat.cast) ∧
    stream.sweepPrevious query start stop = .ok ((stream.findPrevious query start stop).map Nat.cast) :=
  ⟨fun _ => findNext_eq_some_iff_isLeast, findNext_eq_none_iff, fun _ => findPrevious_eq_some_iff_isGreatest,
    findPrevious_eq_none_iff, findPrevious_eq_findNext_reverse, sweepNext_eq, sweepPrevious_eq⟩

-- The end is left out forwards and included backwards; a start before the stream does not count from its end.
example :
    let token (kind : Kind) (content : String) : Token := { kind, content := content.toList, line := 1, column := 1 }
    let stream : Stream := #[token .variableName "$a", token .semicolon ";", token .variableName "$b"]
    stream.findNext { kinds := [.variableName] } 1 (some 2) = none ∧
      stream.findPrevious { kinds := [.variableName] } 1 (some 0) = some 0 ∧
      stream.findNext { kinds := [.variableName] } (-1) (some 9) = none := by
  decide

end Stream

end DocLint
