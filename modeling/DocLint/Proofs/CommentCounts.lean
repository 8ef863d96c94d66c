import DocLint.Proofs.PathOrder
import DocLint.Proofs.RecordedMetrics

/-!
# How comments are counted in reports

All that is measured is whether a function has a doc comment, so the merged metrics list at most one name, and under it
at most two values (`Totals.OfComments`). What a report shows of them is known from two numbers, how many functions
have no comment and how many have one (`Totals.ListsComments`): a line that leaves out what is zero, and the same counts
as JSON in some order.
-/

namespace DocLint

/-- The counts of both values, without those that are zero. -/
def commentCounts (no yes : Nat) : Table String Nat := [("no", no), ("yes", yes)].filter (·.2 != 0)

/-! ## Totals of comments -/

namespace Totals

variable {totals : Totals}

/-- All that is listed is how many functions have a comment and how many have none. -/
structure OfComments (totals : Totals) : Prop where
  tidy : totals.Tidy
  names : ∀ entry ∈ totals, entry.1 = commentMetric
  filled : ∀ entry ∈ totals, entry.2 ≠ []
  values : ∀ entry ∈ totals, ∀ count ∈ entry.2, count.1 = "no" ∨ count.1 = "yes"

theorem OfComments.add (h : totals.OfComments) {value : String} (hvalue : value = "no" ∨ value = "yes") {count : Nat}
    (hcount : 0 < count) : (totals.add commentMetric value count).OfComments where
  tidy := h.tidy.add _ _ hcount
  names := by
    intro entry hm
    rcases Table.mem_keys_adjust (List.mem_map_of_mem hm) with hname | hold
    · exact hname
    · obtain ⟨other, hother, hname⟩ := List.mem_map.1 hold
      exact hname.symm.trans (h.names other hother)
  filled := by
    have hadjust : ∀ counts : Table String Nat, Table.adjust value 0 (· + count) counts ≠ [] := by
      intro counts
      cases counts with
      | nil => exact List.cons_ne_nil _ _
      | cons entry rest =>
        rw [Table.adjust]
        split
        · exact List.cons_ne_nil _ _
        · exact List.cons_ne_nil _ _
    exact Table.forall_adjust (P := fun counts => counts ≠ []) (hadjust []) (fun counts _ => hadjust counts) h.filled
  values := by
    have hadjust : ∀ counts : Table String Nat, (∀ count ∈ counts, count.1 = "no" ∨ count.1 = "yes") →
        ∀ entry ∈ Table.adjust value 0 (· + count) counts, entry.1 = "no" ∨ entry.1 = "yes" := by
      intro counts hcounts entry hm
      rcases Table.mem_keys_adjust (List.mem_map_of_mem hm) with hkey | hold
      · rw [hkey]
        exact hvalue
      · obtain ⟨other, hother, hkey⟩ := List.mem_map.1 hold
        rw [← hkey]
        exact hcounts other hother
    exact Table.forall_adjust (hadjust [] fun _ hm => absurd hm List.not_mem_nil) hadjust h.values

theorem OfComments.merge {all : List Totals} (h : ∀ totals ∈ all, totals.OfComments) : (merge all).OfComments := by
  have hnil : OfComments [] := ⟨⟨List.nodup_nil, by simp, by simp⟩, by simp, by simp, by simp⟩
  unfold Totals.merge
  refine List.foldlRecOn all _ hnil fun merged hmerged totals htotals => ?_
  refine List.foldlRecOn totals _ hmerged fun merged hmerged entry hentry => ?_
  refine List.foldlRecOn entry.2 _ hmerged fun merged hmerged count hcount => ?_
  have hone := h totals htotals
  dsimp only
  rw [hone.names entry hentry]
  exact hmerged.add (hone.values entry hentry count hcount) (hone.tidy.positive entry hentry count hcount)

/-- The numbers of functions without and with a comment, as far as they are listed. -/
inductive ListsComments (no yes : Nat) : Totals → Prop
  | none (h : no + yes = 0) : ListsComments no yes []
  | some {counts : Table String Nat} (hpos : 0 < no + yes) (h : counts.Perm (commentCounts no yes)) :
      ListsComments no yes [(commentMetric, counts)]

theorem OfComments.exists_lists (h : totals.OfComments) : ∃ no yes, totals.ListsComments no yes := by
  cases totals with
  | nil => exact ⟨0, 0, .none rfl⟩
  | cons entry rest =>
    -- a second entry would have the same name
    have hrest : rest = [] := by
      cases rest with
      | nil => rfl
      | cons other others =>
        refine absurd ?_ (h.tidy.names.ne_of_mem List.mem_cons_self)
        rw [h.names entry List.mem_cons_self, h.names other (List.mem_cons_of_mem _ List.mem_cons_self)]
    obtain ⟨name, counts⟩ := entry
    obtain rfl : name = commentMetric := h.names _ List.mem_cons_self
    have hvalues := h.values _ List.mem_cons_self
    have hpositive := h.tidy.positive _ List.mem_cons_self
    have hdistinct : Table.Distinct counts := h.tidy.values _ List.mem_cons_self
    have hfilled := h.filled _ List.mem_cons_self
    rw [hrest]
    have hlisted : ∀ value count, (value, count) ∈ counts ↔ count = (counts.get? value).getD 0 ∧ count ≠ 0 := by
      intro value count
      rw [← Table.get?_eq_some_iff hdistinct]
      cases hget : counts.get? value with
      | none => simp
      | some found =>
        have hfound := hpositive _ ((Table.get?_eq_some_iff hdistinct).1 hget)
        rw [Option.some.injEq, Option.getD_some]
        exact ⟨fun heq => heq ▸ ⟨rfl, Nat.ne_of_gt hfound⟩, fun heq => heq.1.symm⟩
    have hperm : counts.Perm (commentCounts ((counts.get? "no").getD 0) ((counts.get? "yes").getD 0)) := by
      have hboth : (commentCounts ((counts.get? "no").getD 0) ((counts.get? "yes").getD 0)).Nodup :=
        List.Nodup.filter _ (by simp)
      rw [List.perm_ext_iff_of_nodup (List.Nodup.of_map _ hdistinct) hboth]
      rintro ⟨value, count⟩
      simp only [commentCounts, List.mem_filter, List.mem_cons, List.not_mem_nil, or_false, Prod.mk.injEq, bne_iff_ne]
      constructor
      · intro hm
        obtain ⟨hcount, hne⟩ := (hlisted value count).1 hm
        rcases hvalues _ hm with rfl | rfl
        · exact ⟨Or.inl ⟨rfl, hcount⟩, hne⟩
        · exact ⟨Or.inr ⟨rfl, hcount⟩, hne⟩
      · rintro ⟨⟨rfl, hcount⟩ | ⟨rfl, hcount⟩, hne⟩
        · exact (hlisted _ _).2 ⟨hcount, hne⟩
        · exact (hlisted _ _).2 ⟨hcount, hne⟩
    refine ⟨_, _, .some ?_ hperm⟩
    by_contra hzero
    obtain ⟨hno, hyes⟩ := Nat.add_eq_zero_iff.1 (Nat.eq_zero_of_not_pos hzero)
    rw [hno, hyes] at hperm
    exact hfilled hperm.eq_nil

section Lists

variable {no yes : Nat} (h : totals.ListsComments no yes)
include h

theorem ListsComments.tokens_eq : totals.tokens commentMetric = no + yes := by
  cases h with
  | none h => exact h.symm
  | @some counts _ h =>
    have hsum : Table.total (commentCounts no yes) = no + yes := by
      by_cases hno : no = 0 <;> by_cases hyes : yes = 0 <;> simp [commentCounts, Table.total, hno, hyes]
    show Table.total counts = _
    rw [← hsum]
    exact (h.map _).sum_eq

end Lists

end Totals

/-! ## The metrics of files -/

theorem Metrics.mem_tally {values : Table Int String} {count : String × Nat} (h : count ∈ tally values) :
    ∃ entry ∈ values, entry.2 = count.1 := by
  have hall : ∀ counts : Table String Nat, count.1 ∈ (values.foldl (fun counts entry =>
      Table.adjust entry.2 0 (· + 1) counts) counts).map (·.1) →
        count.1 ∈ counts.map (·.1) ∨ ∃ entry ∈ values, entry.2 = count.1 := by
    clear h
    induction values with
    | nil => exact fun counts hm => Or.inl hm
    | cons entry rest ih =>
      intro counts hm
      rcases ih _ hm with hm | ⟨other, hother, hvalue⟩
      · rcases Table.mem_keys_adjust hm with hkey | hm
        · exact Or.inr ⟨entry, List.mem_cons_self, hkey.symm⟩
        · exact Or.inl hm
      · exact Or.inr ⟨other, List.mem_cons_of_mem _ hother, hvalue⟩
  rcases hall [] (List.mem_map_of_mem h) with hm | hentry
  · exact absurd hm List.not_mem_nil
  · exact hentry

theorem Stream.totals_ofComments (stream : Stream) : stream.commentMetrics.totals.OfComments := by
  unfold commentMetrics
  split
  · exact ⟨⟨List.nodup_nil, by simp [Metrics.totals], by simp [Metrics.totals]⟩, by simp [Metrics.totals],
      by simp [Metrics.totals], by simp [Metrics.totals]⟩
  · next hsome =>
    rw [Metrics.totals_eq, List.map_singleton]
    refine ⟨⟨List.nodup_singleton _, ?_, ?_⟩, ?_, ?_, ?_⟩
    all_goals
      intro entry hm
      obtain rfl := List.mem_singleton.1 hm
    · exact Metrics.tally_distinct _
    · exact Metrics.tally_positive _
    · rfl
    · intro hnil
      have htotal := Metrics.total_counts (stream.functions.map fun i : Nat => ((i : Int), stream.commentValue i)) []
      have hzero := (congrArg Table.total hnil).symm.trans htotal
      rw [List.length_map] at hzero
      refine hsome (List.isEmpty_iff.2 (List.length_eq_zero_iff.1 ?_))
      exact (Nat.zero_add _).symm.trans hzero.symm
    · intro count hcount
      obtain ⟨value, hvalue, hkey⟩ := Metrics.mem_tally hcount
      obtain ⟨i, -, rfl⟩ := List.mem_map.1 hvalue
      rw [← hkey]
      show stream.commentValue i = _ ∨ stream.commentValue i = _
      unfold commentValue
      split
      · exact Or.inl rfl
      · exact Or.inr rfl

/-! ## What reports show -/

/-- The line about comments in a report; there is none if no function is counted, and a zero is left out. -/
def commentLine : (no yes : Nat) → Text
  | 0, 0 => []
  | no, 0 => "Function has doc comment: no=".toList ++ Nat.toDigits 10 no ++ "\n".toList
  | 0, yes => "Function has doc comment: yes=".toList ++ Nat.toDigits 10 yes ++ "\n".toList
  | no, yes => "Function has doc comment: no=".toList ++ Nat.toDigits 10 no ++ ", yes=".toList ++ Nat.toDigits 10 yes ++
      "\n".toList

/-- The same as JSON, where the counts may stand in any order. -/
inductive CommentJson (no yes : Nat) : Json → Prop
  | none (h : no + yes = 0) : CommentJson no yes (.object [])
  | some {counts : List (Text × Json)} (hpos : 0 < no + yes)
      (h : counts.Perm ((commentCounts no yes).map fun entry => (entry.1.toList, .number entry.2))) :
      CommentJson no yes (.object [("Function has doc comment".toList, .object counts)])

namespace Report

/-- Counts are shown in the order of their values. -/
theorem sorted_counts {no yes : Nat} {counts : Table String Nat} (h : counts.Perm (commentCounts no yes)) :
    sorted counts = commentCounts no yes := by
  have hmem : ∀ entry ∈ commentCounts no yes, entry = ("no", no) ∨ entry = ("yes", yes) := by
    intro entry hm
    simpa using (List.mem_filter.1 hm).1
  have hbefore : Text.le "no".toList "yes".toList = true := by decide
  have hbehind : ¬ Text.le "yes".toList "no".toList = true := by decide
  have hperm : (sorted counts).Perm (commentCounts no yes) := (List.mergeSort_perm _ _).trans h
  have hsorted : (sorted counts).Pairwise fun a b => Text.le a.1.toList b.1.toList = true := by
    refine List.pairwise_mergeSort (fun a b c hab hbc => ?_) (fun a b => ?_) counts
    · exact Text.le_iff.2 ((Text.le_iff.1 hab).trans (Text.le_iff.1 hbc))
    · rw [Bool.or_eq_true, Text.le_iff, Text.le_iff]
      exact le_total a.1.toList b.1.toList
  refine List.Perm.eq_of_pairwise (fun a b ha hb hab hba => ?_) hsorted ?_ hperm
  · rcases hmem a (hperm.mem_iff.1 ha) with rfl | rfl
    · rcases hmem b hb with rfl | rfl
      · rfl
      · exact absurd hba hbehind
    · rcases hmem b hb with rfl | rfl
      · exact absurd hab hbehind
      · rfl
  · exact List.Pairwise.filter _ (List.pairwise_pair.2 hbefore)

theorem metricLines_eq {totals : Totals} {no yes : Nat} (h : totals.ListsComments no yes) :
    (sorted totals).flatMap (fun (name, counts) => metricLine name counts) = commentLine no yes := by
  cases h with
  | none h =>
    obtain ⟨rfl, rfl⟩ := Nat.add_eq_zero_iff.1 h
    rw [sorted, List.mergeSort_nil]
    rfl
  | @some counts hpos h =>
    have hone : sorted [(commentMetric, counts)] = [(commentMetric, counts)] := List.mergeSort_singleton _
    rw [hone, List.flatMap_singleton]
    dsimp only
    rw [metricLine, sorted_counts h]
    dsimp only
    have hno : "Function has doc comment: no=".toList = commentMetric.toList ++ ": ".toList ++ "no".toList ++ ['='] := by
      decide
    have hyes : "Function has doc comment: yes=".toList = commentMetric.toList ++ ": ".toList ++ "yes".toList ++ ['='] := by
      decide
    have hboth : ", yes=".toList = ", ".toList ++ "yes".toList ++ ['='] := by decide
    -- the counts that are listed are known as soon as both numbers are zero or not
    cases no with
    | zero =>
      cases yes with
      | zero => exact absurd hpos (Nat.lt_irrefl 0)
      | succ yes =>
        show commentMetric.toList ++ ": ".toList ++ Text.join ", ".toList
            ["yes".toList ++ '=' :: Nat.toDigits 10 (yes + 1)] ++ "\n".toList =
          "Function has doc comment: yes=".toList ++ Nat.toDigits 10 (yes + 1) ++ "\n".toList
        rw [hyes]
        simp only [Text.join_cons, List.flatMap_nil, List.append_nil, List.append_assoc, List.cons_append, List.nil_append]
    | succ no =>
      cases yes with
      | zero =>
        show commentMetric.toList ++ ": ".toList ++ Text.join ", ".toList
            ["no".toList ++ '=' :: Nat.toDigits 10 (no + 1)] ++ "\n".toList =
          "Function has doc comment: no=".toList ++ Nat.toDigits 10 (no + 1) ++ "\n".toList
        rw [hno]
        simp only [Text.join_cons, List.flatMap_nil, List.append_nil, List.append_assoc, List.cons_append, List.nil_append]
      | succ yes =>
        show commentMetric.toList ++ ": ".toList ++ Text.join ", ".toList
            ["no".toList ++ '=' :: Nat.toDigits 10 (no + 1), "yes".toList ++ '=' :: Nat.toDigits 10 (yes + 1)] ++
              "\n".toList =
          "Function has doc comment: no=".toList ++ Nat.toDigits 10 (no + 1) ++ ", yes=".toList ++
            Nat.toDigits 10 (yes + 1) ++ "\n".toList
        rw [hno, hboth]
        simp only [Text.join_cons, List.flatMap_cons, List.flatMap_nil, List.append_nil, List.append_assoc,
          List.cons_append, List.nil_append]

theorem metricsJson_comments {totals : Totals} {no yes : Nat} (h : totals.ListsComments no yes) :
    CommentJson no yes (metricsJson totals) := by
  cases h with
  | none h => exact .none h
  | some hpos h => exact .some hpos (h.map _)

theorem metrics_listsComments {files : List SourceFile}
    (h : ∀ file ∈ files, file.metrics = file.stream.commentMetrics) :
    ∃ no yes, (metrics files).ListsComments no yes := by
  refine (Totals.OfComments.merge fun totals hm => ?_).exists_lists
  obtain ⟨file, hfile, rfl⟩ := List.mem_map.1 hm
  rw [h file hfile]
  exact file.stream.totals_ofComments

end Report

end DocLint
