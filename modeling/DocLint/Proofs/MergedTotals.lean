import DocLint.Command.Report
import DocLint.Proofs.CheckedFiles
import Mathlib.Algebra.GroupWithZero.Nat

/-!
# Merged totals

Merging totals loses no token: what is counted for a metric in the end is what is counted for it in all files. Each
step adds a number to one count, and the sum of the counts grows by that number (`Totals.tokens_add`). For the
function comment rule the tokens of a file that are counted are its functions, each of them once.
-/

namespace DocLint

/-- The number of tokens that are counted. -/
def Table.total {κ : Type} (counts : Table κ Nat) : Nat := (counts.map (·.2)).sum

theorem Table.total_adjust {κ : Type} [BEq κ] (key : κ) (count : Nat) (counts : Table κ Nat) :
    total (adjust key 0 (· + count) counts) = total counts + count := by
  induction counts with
  | nil => simp [adjust, total]
  | cons entry rest ih =>
    obtain ⟨k, a⟩ := entry
    unfold total at ih ⊢
    rw [adjust]
    split
    · simp only [List.map_cons, List.sum_cons]
      omega
    · simp only [List.map_cons, List.sum_cons, ih]
      omega

namespace Totals

/-- The number of tokens that are counted for a metric. -/
def tokens (totals : Totals) (name : String) : Nat := Table.total ((totals.get? name).getD [])

/-- The same for totals that may name the metric more than once. -/
def allTokens (totals : Totals) (name : String) : Nat :=
  ((totals.filter (·.1 == name)).map fun entry => Table.total entry.2).sum

theorem tokens_add (name value : String) (count : Nat) (totals : Totals) (key : String) :
    (totals.add name value count).tokens key = totals.tokens key + if name == key then count else 0 := by
  unfold tokens add
  rw [Table.get?_adjust]
  split
  · next hkey => rw [Option.getD_some, Table.total_adjust, eq_of_beq hkey]
  · rfl

/-- The counts of one metric. -/
theorem tokens_addCounts (name : String) (counts : Table String Nat) (merged : Totals) (key : String) :
    (counts.foldl (fun merged (value, count) => add name value count merged) merged).tokens key =
      merged.tokens key + if name == key then Table.total counts else 0 := by
  induction counts generalizing merged with
  | nil => simp [Table.total]
  | cons entry rest ih =>
    obtain ⟨value, count⟩ := entry
    rw [List.foldl_cons, ih, tokens_add]
    unfold Table.total
    rw [List.map_cons, List.sum_cons]
    split
    · omega
    · omega

/-- The totals of one file. -/
theorem tokens_addTotals (totals merged : Totals) (key : String) :
    (totals.foldl (fun merged (name, counts) =>
      counts.foldl (fun merged (value, count) => add name value count merged) merged) merged).tokens key =
        merged.tokens key + totals.allTokens key := by
  induction totals generalizing merged with
  | nil => rfl
  | cons entry rest ih =>
    obtain ⟨name, counts⟩ := entry
    rw [List.foldl_cons, ih, tokens_addCounts]
    unfold allTokens
    rw [List.filter_cons]
    split
    · rw [List.map_cons, List.sum_cons]
      exact Nat.add_assoc ..
    · rfl

/-- All that is counted in some totals is counted when they are merged. -/
theorem tokens_merge (all : List Totals) (key : String) :
    (merge all).tokens key = (all.map fun totals => totals.allTokens key).sum := by
  have hfold : ∀ merged : Totals, (all.foldl (fun merged totals =>
      totals.foldl (fun merged (name, counts) =>
        counts.foldl (fun merged (value, count) => add name value count merged) merged) merged) merged).tokens
          key = merged.tokens key + (all.map fun totals => totals.allTokens key).sum := by
    induction all with
    | nil => exact fun merged => rfl
    | cons totals rest ih =>
      intro merged
      rw [List.foldl_cons, ih, tokens_addTotals, List.map_cons, List.sum_cons, Nat.add_assoc]
  refine (hfold []).trans ?_
  exact Nat.zero_add _

end Totals

/-! ## Functions -/

/-- Each entry of a metric is one token. -/
theorem Metrics.total_counts (values : Table Int String) (counts : Table String Nat) :
    Table.total (values.foldl (fun counts entry => Table.adjust entry.2 0 (· + 1) counts) counts) =
      Table.total counts + values.length := by
  induction values generalizing counts with
  | nil => rfl
  | cons entry rest ih =>
    rw [List.foldl_cons, ih, Table.total_adjust, List.length_cons]
    omega

/-- The metric of a stream counts its functions. -/
theorem Stream.allTokens_commentMetrics (stream : Stream) :
    stream.commentMetrics.totals.allTokens commentMetric = stream.functions.length := by
  unfold commentMetrics
  split
  · next hempty =>
    rw [List.isEmpty_iff.1 hempty]
    rfl
  · show Nat.add (Table.total _) 0 = _
    rw [Metrics.total_counts, List.length_map]
    exact Nat.zero_add _

/-- The functions of a stream are its tokens of that kind. -/
theorem Stream.length_functions (stream : Stream) :
    stream.functions.length = stream.toList.countP (·.kind == .function) := by
  have hcount : ∀ tokens : List Token,
      ((List.range tokens.length).filter fun index => tokens[index]?.any (·.kind == .function)).length =
        tokens.countP (·.kind == .function) := by
    intro tokens
    induction tokens with
    | nil => rfl
    | cons token rest ih =>
      rw [List.length_cons, List.range_succ_eq_map, List.filter_cons, List.filter_map, List.countP_cons, ← ih]
      split
      · next hfunction =>
        rw [if_pos (by simpa using hfunction), List.length_cons, List.length_map]
        rfl
      · next hfunction =>
        rw [if_neg (by simpa using hfunction), List.length_map]
        rfl
  have htokens := hcount stream.toList
  simp only [Array.getElem?_toList, Array.length_toList] at htokens
  exact htokens

/-- A checked file has a value of the metric for each function and no others. -/
theorem SourceFile.checked_metrics {source filename : Text} {file checked : SourceFile}
    (h : ofSource source filename = .ok file) (hc : file.checked = .ok checked) :
    checked.metrics = checked.stream.commentMetrics := by
  obtain ⟨stream, hstream, rfl⟩ := ofSource_eq_ok.1 h
  obtain ⟨hok, rfl⟩ := checked_eq_ok.1 hc
  have hstandard := TagValidator.standard_discreet
  have hnoted : (stream.checkFunctions TagValidator.standard.noting).result = .ok () :=
    (Stream.checkFunctions_noting_result hstandard).trans hok
  obtain ⟨hmeasured, -, -⟩ := (Stream.sound hstream).checkFunctions_observed hstandard hnoted
  rw [foldl_after_stream]
  show (run { source, filename, stream } stream.checkFunctions).metrics = stream.commentMetrics
  rw [← run_noting hstandard, run, foldl_after_recordAll, hmeasured]
  exact stream.recordAll_commentMetrics

/-- The values of the metric in some files are as many as their functions, whatever findings the files hold. -/
theorem Report.tokens_metrics {files : List SourceFile}
    (h : ∀ file ∈ files, file.metrics = file.stream.commentMetrics) :
    (metrics files).tokens commentMetric =
      (files.map fun file => file.stream.toList.countP (·.kind == .function)).sum := by
  unfold metrics
  rw [Totals.tokens_merge, List.map_map]
  refine congrArg List.sum (List.map_congr_left fun file hm => ?_)
  show file.metrics.totals.allTokens commentMetric = _
  rw [h file hm, Stream.allTokens_commentMetrics, Stream.length_functions]

end DocLint
