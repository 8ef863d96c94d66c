import DocLint.Proofs.Checks

/-!
# What a check leaves in a file

What a file holds after a check follows from the events: the findings in their order, and for each token the
first value that was recorded for it. A value that is there is not recorded again
(`Metrics.recordAll_of_some`).
-/

namespace DocLint

/-! ## Tables -/

namespace Table

variable {κ α : Type} [BEq κ]

theorem get?_cons (entry : κ × α) (rest : Table κ α) (key : κ) :
    get? (entry :: rest) key = if entry.1 == key then some entry.2 else get? rest key := by
  rw [get?, get?, List.find?_cons]
  cases entry.1 == key with
  | true => rfl
  | false => rfl

theorem get?_append (table more : Table κ α) (key : κ) :
    get? (table ++ more) key = (get? table key).or (get? more key) := by
  rw [get?, List.find?_append, Option.map_or]
  rfl

theorem get?_adjust [LawfulBEq κ] (key other : κ) (start : α) (change : α → α) (table : Table κ α) :
    get? (adjust key start change table) other =
      if key == other then some (change ((get? table key).getD start)) else get? table other := by
  induction table with
  | nil =>
    rw [adjust, get?_cons]
    rfl
  | cons entry rest ih =>
    rw [adjust]
    by_cases hkey : (entry.1 == key) = true
    · have heq := eq_of_beq hkey
      rw [if_pos hkey, get?_cons, get?_cons, get?_cons, if_pos hkey, heq]
      split
      · rfl
      · rfl
    · rw [if_neg hkey, get?_cons, get?_cons, get?_cons, if_neg hkey, ih]
      by_cases hother : (entry.1 == other) = true
      · have hne : ¬ (key == other) = true := by
          intro heq
          exact hkey (by rw [eq_of_beq hother, ← eq_of_beq heq]; exact BEq.rfl)
        rw [if_pos hother, if_neg hne, if_pos hother]
      · rw [if_neg hother, if_neg hother]

/-- Adding an entry leaves the others. -/
theorem get?_keep_ne {key other : κ} (h : ¬ (key == other) = true) (value : α) (table : Table κ α) :
    get? (keep key value table) other = get? table other := by
  rw [keep]
  split
  · rfl
  · rw [get?_append, get?_cons, if_neg h]
    exact Option.or_none

/-- An entry that is there stays. -/
theorem get?_keep_of_some {other : κ} {entry : α} {table : Table κ α} (h : get? table other = some entry)
    (key : κ) (value : α) : get? (keep key value table) other = some entry := by
  rw [keep]
  split
  · exact h
  · rw [get?_append, h, Option.some_or]

theorem get?_map_cast {positions : List Nat} {f : Nat → String} {position : Int} {value : String} :
    get? (positions.map fun i : Nat => ((i : Int), f i)) position = some value ↔
      ∃ i ∈ positions, position = (i : Nat) ∧ value = f i := by
  induction positions with
  | nil => simp [get?]
  | cons first rest ih =>
    rw [List.map_cons, get?_cons]
    by_cases hfirst : ((first : Int) == position) = true
    · obtain rfl := eq_of_beq hfirst
      rw [if_pos hfirst, Option.some.injEq]
      constructor
      · rintro rfl
        exact ⟨first, List.mem_cons_self, rfl, rfl⟩
      · rintro ⟨i, -, hi, rfl⟩
        rw [Int.ofNat.inj hi]
    · rw [if_neg hfirst, ih]
      constructor
      · rintro ⟨i, hi, hposition, hvalue⟩
        exact ⟨i, List.mem_cons_of_mem _ hi, hposition, hvalue⟩
      · rintro ⟨i, hi, rfl, hvalue⟩
        rcases List.mem_cons.1 hi with rfl | hi
        · exact absurd BEq.rfl hfirst
        · exact ⟨i, hi, rfl, hvalue⟩

theorem keep_of_some {table : Table κ α} {key : κ} {entry : α}
    (h : get? table key = some entry) (value : α) : keep key value table = table := by
  obtain ⟨found, hfound, -⟩ := Option.map_eq_some_iff.1 h
  have hkey := List.find?_some hfound
  have hany : table.any (·.1 == key) = true :=
    List.any_eq_true.2 ⟨found, List.mem_of_find?_eq_some hfound, hkey⟩
  rw [keep, if_pos hany]

theorem adjust_of_fixed {table : Table κ α} {key : κ} {entry : α}
    (h : get? table key = some entry) (start : α) {change : α → α} (hchange : change entry = entry) :
    adjust key start change table = table := by
  induction table with
  | nil => cases h
  | cons first rest ih =>
    rw [get?_cons] at h
    rw [adjust]
    split
    · next hkey =>
      rw [if_pos hkey] at h
      obtain rfl := Option.some.inj h
      rw [hchange]
    · next hkey =>
      rw [if_neg hkey] at h
      rw [ih h]

end Table

/-! ## Metrics -/

/-- What an event measures: the place, the name of the metric and its value. -/
def Event.measure? : Event → Option (Int × String × String)
  | measured position name value => some (position, name, value)
  | _ => none

/-- Records values one after the other. -/
def Metrics.recordAll (metrics : Metrics) (entries : List (Int × String × String)) : Metrics :=
  entries.foldl (fun metrics entry => metrics.record entry.1 entry.2.1 entry.2.2) metrics

/-- The value of a metric for a token. -/
def Metrics.value? (metrics : Metrics) (name : String) (position : Int) : Option String :=
  (metrics.get? name).bind (·.get? position)

namespace Metrics

/-- A value that is recorded for one token changes nothing for another. -/
theorem value?_record_ne {position other : Int} (h : position ≠ other) (name value key : String)
    (metrics : Metrics) : (metrics.record position name value).value? key other = metrics.value? key other := by
  have hne : ¬ (position == other) = true := by simpa using h
  rw [value?, value?, record, Table.get?_adjust]
  by_cases hkey : (name == key) = true
  · obtain rfl := eq_of_beq hkey
    rw [if_pos hkey, Option.bind_some, Table.get?_keep_ne hne]
    cases Table.get? metrics name with
    | none => rfl
    | some values => rfl
  · rw [if_neg hkey]

/-- The first value stays. -/
theorem value?_record_of_some {metrics : Metrics} {key found : String} {other : Int}
    (h : metrics.value? key other = some found) (position : Int) (name value : String) :
    (metrics.record position name value).value? key other = some found := by
  obtain ⟨values, hvalues, hfound⟩ := Option.bind_eq_some_iff.1 h
  rw [value?, record, Table.get?_adjust]
  by_cases hkey : (name == key) = true
  · rw [if_pos hkey, Option.bind_some, eq_of_beq hkey, hvalues]
    exact Table.get?_keep_of_some hfound position value
  · rw [if_neg hkey]
    exact h

/-- A value that is there is not recorded again. -/
theorem record_of_some {metrics : Metrics} {name found : String} {position : Int}
    (h : metrics.value? name position = some found) (value : String) :
    metrics.record position name value = metrics := by
  obtain ⟨values, hvalues, hfound⟩ := Option.bind_eq_some_iff.1 h
  exact Table.adjust_of_fixed hvalues [] (Table.keep_of_some hfound value)

theorem recordAll_of_some {metrics : Metrics} {entries : List (Int × String × String)}
    (h : ∀ entry ∈ entries, ∃ found, metrics.value? entry.2.1 entry.1 = some found) :
    metrics.recordAll entries = metrics := by
  induction entries with
  | nil => rfl
  | cons entry rest ih =>
    obtain ⟨found, hfound⟩ := h entry List.mem_cons_self
    have hrest := ih fun later hm => h later (List.mem_cons_of_mem _ hm)
    rw [recordAll, List.foldl_cons, record_of_some hfound]
    exact hrest

/-- A new place is added behind the others. -/
theorem record_fresh {position : Int} {values : Table Int String}
    (h : ∀ entry ∈ values, entry.1 ≠ position) (name value : String) :
    record position name value [(name, values)] = [(name, values ++ [(position, value)])] := by
  have hnone : ¬ values.any (·.1 == position) = true := by
    intro hany
    obtain ⟨entry, hm, hentry⟩ := List.any_eq_true.1 hany
    exact h entry hm (eq_of_beq hentry)
  rw [record, Table.adjust, if_pos BEq.rfl, Table.keep, if_neg hnone]

theorem recordAll_fresh (name : String) (f : Nat → String) {positions : List Nat}
    (hsorted : positions.Pairwise (· < ·)) {values : Table Int String}
    (h : ∀ i ∈ positions, ∀ entry ∈ values, entry.1 ≠ (i : Nat)) :
    recordAll [(name, values)] (positions.map fun i : Nat => ((i : Int), name, f i)) =
      [(name, values ++ positions.map fun i : Nat => ((i : Int), f i))] := by
  induction positions generalizing values with
  | nil => exact congrArg (fun table => [(name, table)]) (List.append_nil _).symm
  | cons i rest ih =>
    obtain ⟨hlater, hsorted⟩ := List.pairwise_cons.1 hsorted
    have hfresh : ∀ j ∈ rest, ∀ entry ∈ values ++ [((i : Int), f i)], entry.1 ≠ (j : Nat) := by
      intro j hj entry hm
      rcases List.mem_append.1 hm with hm | hm
      · exact h j (List.mem_cons_of_mem _ hj) entry hm
      · obtain rfl := List.mem_singleton.1 hm
        have hlt := hlater j hj
        intro heq
        exact Nat.ne_of_lt hlt (Int.ofNat.inj heq)
    have hrest := ih hsorted hfresh
    rw [recordAll] at hrest
    rw [List.map_cons, recordAll, List.foldl_cons, record_fresh (h i List.mem_cons_self), hrest,
      List.append_assoc]
    rfl

end Metrics

/-! ## Files -/

namespace SourceFile

theorem ofSource_eq_ok {source filename : Text} {file : SourceFile} :
    ofSource source filename = .ok file ↔
      ∃ stream, Stream.ofSource source = .ok stream ∧ file = { source, filename, stream } := by
  rw [ofSource]
  cases Stream.ofSource source with
  | error error => simp [bind, Except.bind]
  | ok stream => simp [bind, Except.bind, pure, Except.pure, eq_comm]

theorem checked_eq_ok {file checked : SourceFile} :
    file.checked = .ok checked ↔ file.stream.checkFunctions.result = .ok () ∧
      checked = file.stream.checkFunctions.events.foldl after file := by
  rw [SourceFile.checked]
  cases file.stream.checkFunctions.result with
  | error fault => simp [Except.map]
  | ok value => simp [Except.map, run, eq_comm]

/-- The findings of a check are added in their order. -/
theorem foldl_after_diagnostics (file : SourceFile) (events : List Event) :
    (events.foldl after file).diagnostics = file.diagnostics ++ events.filterMap Event.diagnostic? := by
  induction events generalizing file with
  | nil => exact (List.append_nil _).symm
  | cons event rest ih =>
    rw [List.foldl_cons, ih]
    cases event with
    | found diagnostic => exact List.append_assoc ..
    | measured => rfl
    | asked => rfl

/-- The values that are measured are recorded in their order. -/
theorem foldl_after_recordAll (file : SourceFile) (events : List Event) :
    (events.foldl after file).metrics = file.metrics.recordAll (events.filterMap Event.measure?) := by
  induction events generalizing file with
  | nil => rfl
  | cons event rest ih =>
    rw [List.foldl_cons, ih]
    cases event with
    | found => rfl
    | measured => rfl
    | asked => rfl

/-- Metrics are recorded alike whatever else a file holds. -/
theorem foldl_after_metrics {file other : SourceFile} (h : file.metrics = other.metrics) (events : List Event) :
    (events.foldl after file).metrics = (events.foldl after other).metrics := by
  rw [foldl_after_recordAll, foldl_after_recordAll, h]

/-- Events that record nothing for a token leave its values. -/
theorem value?_foldl_after {position : Int} (file : SourceFile) {events : List Event}
    (h : ∀ place name value, .measured place name value ∈ events → place ≠ position) (key : String) :
    (events.foldl after file).metrics.value? key position = file.metrics.value? key position := by
  induction events generalizing file with
  | nil => rfl
  | cons event rest ih =>
    rw [List.foldl_cons, ih _ fun place name value hm => h place name value (List.mem_cons_of_mem _ hm)]
    cases event with
    | found => rfl
    | measured place name value =>
      exact Metrics.value?_record_ne (h place name value List.mem_cons_self) name value key file.metrics
    | asked => rfl

theorem value?_foldl_after_of_some {position : Int} {key value : String} {file : SourceFile}
    (h : file.metrics.value? key position = some value) (events : List Event) :
    (events.foldl after file).metrics.value? key position = some value := by
  induction events generalizing file with
  | nil => exact h
  | cons event rest ih =>
    refine ih ?_
    cases event with
    | found => exact h
    | measured => exact Metrics.value?_record_of_some h ..
    | asked => exact h

theorem foldl_after_stream (file : SourceFile) (events : List Event) :
    (events.foldl after file).stream = file.stream := by
  induction events generalizing file with
  | nil => rfl
  | cons event rest ih =>
    rw [List.foldl_cons, ih]
    cases event with
    | found => rfl
    | measured => rfl
    | asked => rfl

theorem foldl_after_text (file : SourceFile) (events : List Event) :
    (events.foldl after file).source = file.source ∧ (events.foldl after file).filename = file.filename := by
  induction events generalizing file with
  | nil => exact ⟨rfl, rfl⟩
  | cons event rest ih =>
    rw [List.foldl_cons, (ih _).1, (ih _).2]
    cases event with
    | found => exact ⟨rfl, rfl⟩
    | measured => exact ⟨rfl, rfl⟩
    | asked => exact ⟨rfl, rfl⟩

theorem run_stream {α : Type} (file : SourceFile) (check : Check α) : (file.run check).stream = file.stream :=
  foldl_after_stream file check.events

end SourceFile

end DocLint
