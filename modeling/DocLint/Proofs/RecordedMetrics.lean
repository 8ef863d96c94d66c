import DocLint.Proofs.MergedTotals
import Mathlib.Data.Set.Card

/-!
# Metrics over the life of a file

Whatever is done with a file, a token has the value that was recorded for it first (`SourceFile.value?_steps`), and no
table has a key twice. So the totals of the file count the tokens of each value, each token once, and what is merged
from several files is the sum of their counts.
-/

namespace DocLint

/-! ## Tables with distinct keys -/

namespace Table

variable {κ α β : Type}

/-- No two entries have the same key. -/
def Distinct (table : Table κ α) : Prop := (table.map (·.1)).Nodup

theorem Distinct.of_cons {entry : κ × α} {table : Table κ α} (h : Distinct (entry :: table)) : Distinct table :=
  (List.nodup_cons.1 h).2

theorem Distinct.ne_of_mem {entry other : κ × α} {table : Table κ α} (h : Distinct (entry :: table))
    (hm : other ∈ table) : entry.1 ≠ other.1 := by
  intro heq
  apply (List.nodup_cons.1 h).1
  exact List.mem_map.2 ⟨other, hm, heq.symm⟩

section

variable [BEq κ] {table : Table κ α}

theorem get?_map (f : α → β) (table : Table κ α) (key : κ) :
    get? (table.map fun entry => (entry.1, f entry.2)) key = (get? table key).map f := by
  induction table with
  | nil => rfl
  | cons entry rest ih =>
    rw [List.map_cons, get?_cons, get?_cons, ih]
    split
    · rfl
    · rfl

theorem mem_keys_adjust {key other : κ} {start : α} {change : α → α}
    (h : other ∈ (adjust key start change table).map (·.1)) : other = key ∨ other ∈ table.map (·.1) := by
  induction table with
  | nil => exact Or.inl (List.mem_singleton.1 h)
  | cons entry rest ih =>
    rw [adjust] at h
    split at h
    · exact Or.inr h
    · rcases List.mem_cons.1 h with h | h
      · exact Or.inr (List.mem_cons.2 (Or.inl h))
      · exact (ih h).imp_right (List.mem_cons_of_mem _)

/-- What holds of all entries, and of an entry after a change, holds of all entries of a changed table. -/
theorem forall_adjust {P : α → Prop} {key : κ} {start : α} {change : α → α} (hnew : P (change start))
    (hchange : ∀ value, P value → P (change value)) (h : ∀ entry ∈ table, P entry.2) :
    ∀ entry ∈ adjust key start change table, P entry.2 := by
  induction table with
  | nil =>
    intro entry hm
    obtain rfl := List.mem_singleton.1 hm
    exact hnew
  | cons first rest ih =>
    have hfirst := h first List.mem_cons_self
    have hrest := fun entry hm => h entry (List.mem_cons_of_mem _ hm)
    intro entry hm
    rw [adjust] at hm
    split at hm
    · rcases List.mem_cons.1 hm with rfl | hm
      · exact hchange _ hfirst
      · exact hrest entry hm
    · rcases List.mem_cons.1 hm with rfl | hm
      · exact hfirst
      · exact ih hrest entry hm

variable [LawfulBEq κ]

theorem get?_eq_some_iff (h : Distinct table) {key : κ} {value : α} :
    get? table key = some value ↔ (key, value) ∈ table := by
  induction table with
  | nil => simp [get?]
  | cons entry rest ih =>
    rw [get?_cons, List.mem_cons]
    by_cases hkey : (entry.1 == key) = true
    · have heq := eq_of_beq hkey
      rw [if_pos hkey, Option.some.injEq]
      constructor
      · rintro rfl
        exact Or.inl (Prod.ext heq.symm rfl)
      · rintro (rfl | hm)
        · rfl
        · exact absurd heq (h.ne_of_mem hm)
    · rw [if_neg hkey, ih h.of_cons]
      constructor
      · exact Or.inr
      · rintro (rfl | hm)
        · exact absurd BEq.rfl hkey
        · exact hm

/-- The key of the first entry is not used again. -/
theorem Distinct.get?_rest {entry : κ × α} {key : κ} (h : Distinct (entry :: table)) (hkey : entry.1 = key) :
    get? table key = none := by
  cases hrest : get? table key with
  | none => rfl
  | some value =>
    have hm := (get?_eq_some_iff h.of_cons).1 hrest
    exact absurd hkey (h.ne_of_mem hm)

theorem Distinct.adjust (h : Distinct table) (key : κ) (start : α) (change : α → α) :
    Distinct (adjust key start change table) := by
  induction table with
  | nil => exact List.nodup_singleton _
  | cons entry rest ih =>
    rw [Table.adjust]
    split
    · exact h
    · next hkey =>
      apply List.nodup_cons.2
      refine ⟨fun hm => ?_, ih h.of_cons⟩
      rcases mem_keys_adjust hm with heq | hm
      · exact hkey (beq_iff_eq.2 heq)
      · exact (List.nodup_cons.1 h).1 hm

theorem get?_keep_of_none {key : κ} (h : get? table key = none) (value : α) :
    get? (keep key value table) key = some value := by
  have hany : ¬ table.any (·.1 == key) = true := by
    intro hany
    obtain ⟨entry, hm, hkey⟩ := List.any_eq_true.1 hany
    exact List.find?_eq_none.1 (Option.map_eq_none_iff.1 h) entry hm hkey
  rw [keep, if_neg hany, get?_append, h, Option.none_or, get?_cons, if_pos BEq.rfl]

theorem Distinct.keep (h : Distinct table) (key : κ) (value : α) : Distinct (keep key value table) := by
  rw [Table.keep]
  split
  · exact h
  · next hany =>
    unfold Distinct
    rw [List.map_append, List.nodup_append]
    refine ⟨h, List.nodup_singleton _, ?_⟩
    intro other hother new hnew heq
    obtain ⟨entry, hm, hkey⟩ := List.mem_map.1 hother
    have hnew : new = key := List.mem_singleton.1 hnew
    exact hany (List.any_eq_true.2 ⟨entry, hm, beq_iff_eq.2 (hkey.trans (heq.trans hnew))⟩)

end

/-! ## Sizes of sets of keys -/

theorem ncard_mem {keys : List κ} (h : keys.Nodup) : {key | key ∈ keys}.ncard = keys.length := by
  classical
  have hset : {key | key ∈ keys} = (keys.toFinset : Set κ) := by
    ext key
    simp
  rw [hset, Set.ncard_coe_finset, List.toFinset_card_of_nodup h]

theorem ncard_keys [BEq κ] [LawfulBEq κ] {table : Table κ α} (h : Distinct table) :
    {key | ∃ value, get? table key = some value}.ncard = table.length := by
  have hset : {key | ∃ value, get? table key = some value} = {key | key ∈ table.map (·.1)} := by
    ext key
    simp [get?_eq_some_iff h]
  rw [hset, ncard_mem h, List.length_map]

theorem ncard_get? [BEq κ] [LawfulBEq κ] [BEq α] [LawfulBEq α] {table : Table κ α} (h : Distinct table) (value : α) :
    {key | get? table key = some value}.ncard = table.countP (·.2 == value) := by
  have hset : {key | get? table key = some value} = {key | key ∈ (table.filter (·.2 == value)).map (·.1)} := by
    ext key
    simp [get?_eq_some_iff h]
  have hsub : ((table.filter (·.2 == value)).map (·.1)).Nodup := h.sublist (List.filter_sublist.map _)
  rw [hset, ncard_mem hsub, List.length_map, List.countP_eq_length_filter]

end Table

/-! ## Totals -/

namespace Totals

/-- The count of a value of a metric; a value that no token has is not listed. -/
def count? (totals : Totals) (name value : String) : Option Nat := (totals.get? name).bind (·.get? value)

/-- The number of tokens that have a value of a metric. -/
def amount (totals : Totals) (name value : String) : Nat := (totals.count? name value).getD 0

/-- How a number of tokens is listed. -/
def listed? (count : Nat) : Option Nat := if count = 0 then none else some count

/-- No name and no value is listed twice, and none without a token. -/
structure Tidy (totals : Totals) : Prop where
  names : Table.Distinct totals
  values : ∀ entry ∈ totals, Table.Distinct entry.2
  positive : ∀ entry ∈ totals, ∀ count ∈ entry.2, 0 < count.2

variable {totals : Totals}

theorem Tidy.count?_eq (h : totals.Tidy) (name value : String) :
    totals.count? name value = listed? (totals.amount name value) := by
  unfold amount listed?
  cases hentry : totals.count? name value with
  | none => rfl
  | some count =>
    obtain ⟨counts, hcounts, hcount⟩ := Option.bind_eq_some_iff.1 hentry
    have hm := (Table.get?_eq_some_iff h.names).1 hcounts
    have hpos := h.positive _ hm _ ((Table.get?_eq_some_iff (h.values _ hm)).1 hcount)
    rw [Option.getD_some, if_neg (Nat.pos_iff_ne_zero.1 hpos)]

theorem Tidy.add (h : totals.Tidy) (name value : String) {count : Nat} (hcount : 0 < count) :
    (totals.add name value count).Tidy where
  names := h.names.adjust ..
  values := Table.forall_adjust (List.nodup_singleton _) (fun _ hcounts => hcounts.adjust ..) h.values
  positive := by
    refine Table.forall_adjust (P := fun counts : Table String Nat => ∀ count ∈ counts, 0 < count.2) ?_ ?_ h.positive
    · intro entry hm
      obtain rfl := List.mem_singleton.1 hm
      exact Nat.add_pos_right 0 hcount
    · intro counts hcounts
      exact Table.forall_adjust (Nat.add_pos_right 0 hcount) (fun n _ => Nat.add_pos_right n hcount) hcounts

/-- Merging is adding counts one after the other. -/
theorem Tidy.merge {all : List Totals} (h : ∀ totals ∈ all, totals.Tidy) : (merge all).Tidy := by
  have hnil : Tidy [] := ⟨List.nodup_nil, by simp, by simp⟩
  unfold Totals.merge
  refine List.foldlRecOn all _ hnil fun merged hmerged totals htotals => ?_
  refine List.foldlRecOn totals _ hmerged fun merged hmerged entry hentry => ?_
  refine List.foldlRecOn entry.2 _ hmerged fun merged hmerged count hcount => ?_
  exact hmerged.add _ _ ((h totals htotals).positive entry hentry count hcount)

theorem amount_add (name value : String) (count : Nat) (totals : Totals) (key other : String) :
    (totals.add name value count).amount key other =
      totals.amount key other + if name == key && value == other then count else 0 := by
  unfold amount count? add
  rw [Table.get?_adjust]
  by_cases hname : (name == key) = true
  · obtain rfl := eq_of_beq hname
    have hcounts : (totals.get? name).bind (·.get? other) = ((totals.get? name).getD []).get? other := by
      cases totals.get? name with
      | none => rfl
      | some counts => rfl
    rw [if_pos hname, Option.bind_some, Table.get?_adjust, hname, Bool.true_and, hcounts]
    by_cases hvalue : (value == other) = true
    · obtain rfl := eq_of_beq hvalue
      rw [if_pos hvalue, if_pos hvalue, Option.getD_some]
    · rw [if_neg hvalue, if_neg hvalue, Nat.add_zero]
  · rw [if_neg hname, Bool.eq_false_iff.2 hname, Bool.false_and, if_neg Bool.false_ne_true, Nat.add_zero]

/-- The counts of one metric. -/
theorem amount_addCounts {counts : Table String Nat} (h : Table.Distinct counts) (name : String) (merged : Totals)
    (key other : String) :
    (counts.foldl (fun merged (value, count) => add name value count merged) merged).amount key other =
      merged.amount key other + if name == key then (counts.get? other).getD 0 else 0 := by
  induction counts generalizing merged with
  | nil => simp [Table.get?]
  | cons entry rest ih =>
    obtain ⟨value, count⟩ := entry
    rw [List.foldl_cons, ih h.of_cons, amount_add, Table.get?_cons]
    by_cases hvalue : (value == other) = true
    · -- the value is not listed again
      rw [h.get?_rest (eq_of_beq hvalue), hvalue, Bool.and_true, if_pos rfl]
      split
      · exact Nat.add_zero _
      · exact Nat.add_zero _
    · rw [if_neg hvalue, Bool.eq_false_iff.2 hvalue, Bool.and_false, if_neg Bool.false_ne_true, Nat.add_zero]

/-- The totals of one file. -/
theorem amount_addTotals (h : totals.Tidy) (merged : Totals) (key other : String) :
    (totals.foldl (fun merged (name, counts) =>
      counts.foldl (fun merged (value, count) => add name value count merged) merged) merged).amount key other =
        merged.amount key other + totals.amount key other := by
  induction totals generalizing merged with
  | nil => rfl
  | cons entry rest ih =>
    obtain ⟨name, counts⟩ := entry
    have hrest : Tidy rest :=
      ⟨h.names.of_cons, fun entry hm => h.values entry (List.mem_cons_of_mem _ hm),
        fun entry hm => h.positive entry (List.mem_cons_of_mem _ hm)⟩
    have hcounts : Table.Distinct counts := h.values _ List.mem_cons_self
    rw [List.foldl_cons, ih hrest, amount_addCounts hcounts]
    unfold amount count?
    rw [Table.get?_cons]
    by_cases hname : (name == key) = true
    · -- the name is not listed again
      rw [h.names.get?_rest (eq_of_beq hname), if_pos hname, if_pos hname]
      exact Nat.add_zero _
    · rw [if_neg hname, if_neg hname, Nat.add_zero]

theorem amount_merge {all : List Totals} (h : ∀ totals ∈ all, totals.Tidy) (key other : String) :
    (merge all).amount key other = (all.map fun totals => totals.amount key other).sum := by
  have hfold : ∀ merged : Totals, (all.foldl (fun merged totals =>
      totals.foldl (fun merged (name, counts) =>
        counts.foldl (fun merged (value, count) => add name value count merged) merged) merged) merged).amount
          key other = merged.amount key other + (all.map fun totals => totals.amount key other).sum := by
    induction all with
    | nil => exact fun merged => rfl
    | cons totals rest ih =>
      intro merged
      rw [List.foldl_cons, ih fun other hm => h other (List.mem_cons_of_mem _ hm),
        amount_addTotals (h totals List.mem_cons_self), List.map_cons, List.sum_cons, Nat.add_assoc]
  exact (hfold []).trans (Nat.zero_add _)

end Totals

/-! ## Metrics -/

namespace Metrics

/-- How many tokens have each value, for one metric. -/
def tally (values : Table Int String) : Table String Nat :=
  values.foldl (fun counts entry => Table.adjust entry.2 0 (· + 1) counts) []

theorem totals_eq (metrics : Metrics) : metrics.totals = metrics.map fun entry => (entry.1, tally entry.2) := rfl

theorem tally_distinct (values : Table Int String) : Table.Distinct (tally values) :=
  List.foldlRecOn (motive := Table.Distinct) values _ List.nodup_nil fun _ hcounts _ _ => hcounts.adjust ..

theorem tally_positive (values : Table Int String) : ∀ count ∈ tally values, 0 < count.2 := by
  refine List.foldlRecOn (motive := fun counts : Table String Nat => ∀ count ∈ counts, 0 < count.2) values _
    (by simp) ?_
  intro counts hcounts entry _
  exact Table.forall_adjust Nat.one_pos (fun n _ => Nat.succ_pos n) hcounts

theorem get?_tally (values : Table Int String) (value : String) :
    ((tally values).get? value).getD 0 = values.countP (·.2 == value) := by
  have hfold : ∀ counts : Table String Nat,
      ((values.foldl (fun counts entry => Table.adjust entry.2 0 (· + 1) counts) counts).get? value).getD 0 =
        (counts.get? value).getD 0 + values.countP (·.2 == value) := by
    induction values with
    | nil => exact fun counts => rfl
    | cons entry rest ih =>
      intro counts
      rw [List.foldl_cons, ih, Table.get?_adjust, List.countP_cons]
      by_cases hvalue : (entry.2 == value) = true
      · rw [if_pos hvalue, if_pos hvalue, Option.getD_some, eq_of_beq hvalue]
        omega
      · rw [if_neg hvalue, if_neg hvalue]
        omega
  exact (hfold []).trans (Nat.zero_add _)

/-- No metric and no token of it is listed twice. -/
structure Tidy (metrics : Metrics) : Prop where
  names : Table.Distinct metrics
  positions : ∀ entry ∈ metrics, Table.Distinct entry.2

variable {metrics : Metrics}

theorem Tidy.record (h : metrics.Tidy) (position : Int) (name value : String) :
    (metrics.record position name value).Tidy where
  names := h.names.adjust ..
  positions := Table.forall_adjust (List.nodup_singleton _) (fun _ hvalues => hvalues.keep ..) h.positions

theorem Tidy.values (h : metrics.Tidy) (name : String) : Table.Distinct ((metrics.get? name).getD []) := by
  cases hvalues : metrics.get? name with
  | none => exact List.nodup_nil
  | some values => exact h.positions _ ((Table.get?_eq_some_iff h.names).1 hvalues)

theorem Tidy.totals (h : metrics.Tidy) : metrics.totals.Tidy where
  names := by
    have hkeys : metrics.totals.map (·.1) = metrics.map (·.1) := by
      rw [totals_eq, List.map_map]
      rfl
    unfold Table.Distinct
    rw [hkeys]
    exact h.names
  values := by
    intro entry hm
    obtain ⟨values, _, rfl⟩ := List.mem_map.1 hm
    exact tally_distinct _
  positive := by
    intro entry hm
    obtain ⟨values, _, rfl⟩ := List.mem_map.1 hm
    exact tally_positive _

/-- The first value that was recorded for a token is its value. -/
theorem value?_record (position : Int) (name value : String) (metrics : Metrics) (key : String) (other : Int) :
    (metrics.record position name value).value? key other =
      (metrics.value? key other).or (if position == other && name == key then some value else none) := by
  by_cases hplace : position = other
  · subst hplace
    cases hfound : metrics.value? key position with
    | some found => rw [value?_record_of_some hfound, Option.some_or]
    | none =>
      rw [value?, record, Table.get?_adjust, Option.none_or, beq_self_eq_true, Bool.true_and]
      by_cases hname : (name == key) = true
      · obtain rfl := eq_of_beq hname
        have hvalues : Table.get? ((metrics.get? name).getD []) position = none := by
          rw [value?] at hfound
          cases hvalues : metrics.get? name with
          | none => rfl
          | some values =>
            rw [hvalues] at hfound
            exact hfound
        rw [if_pos hname, if_pos hname, Option.bind_some, Table.get?_keep_of_none hvalues]
      · rw [if_neg hname, if_neg hname]
        exact hfound
  · rw [value?_record_ne hplace, beq_false_of_ne hplace, Bool.false_and, if_neg Bool.false_ne_true, Option.or_none]

theorem value?_eq (metrics : Metrics) (name : String) (position : Int) :
    metrics.value? name position = ((metrics.get? name).getD []).get? position := by
  rw [value?]
  cases metrics.get? name with
  | none => rfl
  | some values => rfl

/-- The totals count the tokens of each value. -/
theorem Tidy.amount_totals (h : metrics.Tidy) (name value : String) :
    metrics.totals.amount name value = {position | metrics.value? name position = some value}.ncard := by
  have hcount : metrics.totals.amount name value = ((metrics.get? name).getD []).countP (·.2 == value) := by
    unfold Totals.amount Totals.count?
    rw [totals_eq, Table.get?_map]
    cases metrics.get? name with
    | none => rfl
    | some values => exact get?_tally values value
  simp only [value?_eq]
  rw [hcount, Table.ncard_get? (h.values name)]

/-- The counts of a metric add up to the number of its tokens. -/
theorem Tidy.tokens_totals (h : metrics.Tidy) (name : String) :
    metrics.totals.tokens name = {position | ∃ value, metrics.value? name position = some value}.ncard := by
  have hlength : metrics.totals.tokens name = ((metrics.get? name).getD []).length := by
    unfold Totals.tokens
    rw [totals_eq, Table.get?_map]
    cases metrics.get? name with
    | none => rfl
    | some values => exact (total_counts values []).trans (Nat.zero_add _)
  simp only [value?_eq]
  rw [hlength, Table.ncard_keys (h.values name)]

end Metrics

/-! ## Files -/

/-- What can be done with a file from outside. -/
inductive FileStep where
  /-- A value of a metric is recorded for a token. -/
  | record (position : Int) (name value : String)
  /-- A finding is added at a token, if there is one. -/
  | add (severity : Severity) (template : Text) (position : Int) (code : String) (arguments : List Text)
      (source : String)
  /-- The findings are forgotten. -/
  | clear

/-- The value that a step records for a token. -/
def FileStep.value? (name : String) (position : Int) : FileStep → Option String
  | record place metric value => if place == position && metric == name then some value else none
  | add .. | clear => none

namespace SourceFile

/-- The file after a step. -/
def step (file : SourceFile) : FileStep → SourceFile
  | .record position name value => file.after (.measured position name value)
  | .add severity template position code arguments source =>
    file.run (file.stream.report severity template position code arguments source)
  | .clear => file.clear

/-- Findings measure nothing, also those that are refused. -/
theorem run_report_metrics (file : SourceFile) (stream : Stream) (severity : Severity) (template : Text)
    (position : Int) (code : String) (arguments : List Text) (source : String) :
    (file.run (stream.report severity template position code arguments source)).metrics = file.metrics := by
  have hmeasures : (stream.report severity template position code arguments source).events.filterMap
      Event.measure? = [] := by
    unfold Stream.report
    split
    · cases hfetch : stream.fetch position with
      | error fault => rfl
      | ok token => rfl
    · rfl
  rw [run, foldl_after_recordAll, hmeasures]
  rfl

theorem value?_step (file : SourceFile) (step : FileStep) (name : String) (position : Int) :
    (file.step step).metrics.value? name position =
      (file.metrics.value? name position).or (step.value? name position) := by
  cases step with
  | record place metric value => exact Metrics.value?_record ..
  | add =>
    rw [SourceFile.step, run_report_metrics]
    exact Option.or_none.symm
  | clear => exact Option.or_none.symm

theorem tidy_step {file : SourceFile} (h : file.metrics.Tidy) (step : FileStep) : (file.step step).metrics.Tidy := by
  cases step with
  | record => exact h.record ..
  | add =>
    rw [SourceFile.step, run_report_metrics]
    exact h
  | clear => exact h

/-- Over all steps, the first value that is recorded for a token stays. -/
theorem value?_steps (file : SourceFile) (steps : List FileStep) (name : String) (position : Int) :
    (steps.foldl step file).metrics.value? name position =
      (file.metrics.value? name position).or (steps.findSome? (·.value? name position)) := by
  induction steps generalizing file with
  | nil => exact Option.or_none.symm
  | cons first rest ih =>
    rw [List.foldl_cons, ih, value?_step, Option.or_assoc, List.findSome?_cons]
    cases first.value? name position with
    | none => rfl
    | some value => rfl

end SourceFile

/-- A file that was opened, and what was done with it since. -/
structure History where
  /-- The text of the file. -/
  source : Text
  /-- The name of the file. -/
  filename : Text
  /-- Its tokens. -/
  stream : Stream
  /-- What was done, in order. -/
  steps : List FileStep

namespace History

/-- The file in the end. -/
def file (history : History) : SourceFile :=
  history.steps.foldl SourceFile.step
    { source := history.source, filename := history.filename, stream := history.stream }

/-- The value that was recorded first for a token. -/
def firstValue? (history : History) (name : String) (position : Int) : Option String :=
  history.steps.findSome? (·.value? name position)

theorem file_tidy (history : History) : history.file.metrics.Tidy :=
  List.foldlRecOn (motive := fun file : SourceFile => file.metrics.Tidy) history.steps _
    ⟨List.nodup_nil, by simp⟩ fun _ hfile step _ => SourceFile.tidy_step hfile step

theorem value?_file (history : History) (name : String) (position : Int) :
    history.file.metrics.value? name position = history.firstValue? name position := by
  rw [file, SourceFile.value?_steps]
  exact Option.none_or

/-- A token has a first value if a value was recorded for it. -/
theorem firstValue?_isSome {history : History} {name : String} {position : Int} :
    (∃ value, history.firstValue? name position = some value) ↔
      ∃ value, .record position name value ∈ history.steps := by
  constructor
  · rintro ⟨value, h⟩
    obtain ⟨step, hstep, hvalue⟩ := List.exists_of_findSome?_eq_some h
    cases step with
    | record place metric recorded =>
      rw [FileStep.value?] at hvalue
      split at hvalue
      · next hboth =>
        obtain ⟨hplace, hmetric⟩ := Bool.and_eq_true_iff.1 hboth
        obtain rfl := eq_of_beq hplace
        obtain rfl := eq_of_beq hmetric
        exact ⟨recorded, hstep⟩
      · cases hvalue
    | add => cases hvalue
    | clear => cases hvalue
  · rintro ⟨value, hstep⟩
    apply Option.isSome_iff_exists.1
    rw [firstValue?, List.findSome?_isSome_iff]
    refine ⟨_, hstep, ?_⟩
    rw [FileStep.value?, beq_self_eq_true, beq_self_eq_true]
    rfl

/-- Metrics over all runs.

* The count of a value is the number of tokens for which it was recorded first, and is listed unless it is zero.
* The counts of a metric add up to the number of tokens for which a value was recorded.
* What is merged from files, in any order, is the sum of their counts. -/
theorem metrics_counted :
    (∀ (history : History) (name : String),
      (∀ value, history.file.metrics.totals.count? name value =
        Totals.listed? {position | history.firstValue? name position = some value}.ncard) ∧
      history.file.metrics.totals.tokens name =
        {position | ∃ value, FileStep.record position name value ∈ history.steps}.ncard) ∧
    ∀ (histories order : List History), order.Perm histories → ∀ name value : String,
      (Report.metrics (order.map (·.file))).count? name value =
        Totals.listed? (histories.map fun history =>
          (history.file.metrics.totals.count? name value).getD 0).sum := by
  constructor
  · intro history name
    have htidy := history.file_tidy
    constructor
    · intro value
      rw [htidy.totals.count?_eq, htidy.amount_totals]
      simp only [value?_file]
    · rw [htidy.tokens_totals]
      simp only [value?_file, firstValue?_isSome]
  · intro histories order hperm name value
    have htidy : ∀ totals ∈ (order.map (·.file)).map fun file => file.metrics.totals, totals.Tidy := by
      intro totals hm
      obtain ⟨file, hfile, rfl⟩ := List.mem_map.1 hm
      obtain ⟨history, _, rfl⟩ := List.mem_map.1 hfile
      exact history.file_tidy.totals
    rw [Report.metrics, (Totals.Tidy.merge htidy).count?_eq, Totals.amount_merge htidy, List.map_map, List.map_map]
    exact congrArg Totals.listed? (hperm.map _).sum_eq

/-- Token 3 is measured twice and token 5 once, with a finding, one that is refused and a clearing in between. -/
def measuredTwice : History where
  source := "f".toList
  filename := "f.php".toList
  stream := #[{ kind := .inlineHtml, content := "f".toList, line := 1, column := 1 }]
  steps := [.record 3 "Has thing" "yes", .add .warning "Careful".toList 0 "Careful" [] "FunctionComment",
    .record 3 "Has thing" "no", .clear, .add .error "Lost".toList 9 "Lost" [] "FunctionComment",
    .record 5 "Has thing" "no"]

/-- Only one token is counted for the later value, and the tokens of two such files are counted in either order. -/
theorem metrics_counted_measuredTwice :
    measuredTwice.file.metrics.totals.count? "Has thing" "no" = some 1 ∧
      {position | measuredTwice.firstValue? "Has thing" position = some "no"}.ncard = 1 ∧
      {position | ∃ value, FileStep.record position "Has thing" value ∈ measuredTwice.steps}.ncard = 2 ∧
      (Report.metrics ([measuredTwice, { measuredTwice with steps := [] }].map (·.file))).count? "Has thing" "no" =
        some 1 := by
  have hentry : measuredTwice.file.metrics.totals.count? "Has thing" "no" = some 1 := by decide +kernel
  have hall : measuredTwice.file.metrics.totals.tokens "Has thing" = 2 := by decide +kernel
  obtain ⟨hcounts, htokens⟩ := metrics_counted.1 measuredTwice "Has thing"
  have hcount : some 1 = Totals.listed? _ := hentry.symm.trans (hcounts "no")
  have hmerged := metrics_counted.2 [{ measuredTwice with steps := [] }, measuredTwice]
    [measuredTwice, { measuredTwice with steps := [] }] (List.Perm.swap ..) "Has thing" "no"
  refine ⟨hentry, ?_, htokens.symm.trans hall, hmerged.trans (by decide +kernel)⟩
  rw [Totals.listed?] at hcount
  split at hcount
  · cases hcount
  · exact (Option.some.inj hcount).symm

end History

end DocLint
