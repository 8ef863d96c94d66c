import DocLint.Proofs.PathTexts
import Mathlib.Data.Char
import Mathlib.Data.List.Lex
import Mathlib.Data.List.Sort

/-!
# The order of paths

Texts are ordered by the first character that differs, and paths by the first part that differs; both are the order
of lists (`Text.le_iff`, `Path.le_iff`), which is linear. The parts tell a path that was read, as no name is a slash
(`Path.Proper.parts_inj`), so the order of such paths is linear as well. A list in which every path comes before the
next ones is known by its members (`Path.eq_of_increasing`).
-/

namespace DocLint

/-! ## Texts and paths -/

theorem list_cons_le_cons {α : Type} [LinearOrder α] {a b : α} {as bs : List α} :
    a :: as ≤ b :: bs ↔ a < b ∨ a = b ∧ as ≤ bs := by
  rw [← not_lt, List.cons_lt_cons_iff, ← not_lt]
  rcases lt_trichotomy a b with hlt | rfl | hgt
  · simp [hlt, hlt.asymm, hlt.ne']
  · simp
  · simp [hgt, hgt.asymm, hgt.ne']

theorem Text.le_iff {text other : Text} : Text.le text other = true ↔ text ≤ other := by
  induction text generalizing other with
  | nil => exact iff_of_true rfl (not_lt.1 (List.not_lt_nil other))
  | cons a as ih =>
    cases other with
    | nil => exact iff_of_false Bool.false_ne_true (not_le.2 (List.nil_lt_cons a as))
    | cons b bs => rw [Text.le, list_cons_le_cons, Bool.or_eq_true, Bool.and_eq_true, ih, decide_eq_true_eq, beq_iff_eq]

namespace Path

theorem partsLe_iff {parts others : List Text} : partsLe parts others = true ↔ parts ≤ others := by
  induction parts generalizing others with
  | nil => exact iff_of_true rfl (not_lt.1 (List.not_lt_nil others))
  | cons a as ih =>
    cases others with
    | nil => exact iff_of_false Bool.false_ne_true (not_le.2 (List.nil_lt_cons a as))
    | cons b bs =>
      rw [partsLe, list_cons_le_cons]
      by_cases heq : a = b
      · rw [if_pos heq, ih]
        simp [heq]
      · rw [if_neg heq, Text.le_iff, le_iff_lt_or_eq]
        simp [heq]

theorem le_iff {path other : Path} : path.le other = true ↔ path.parts ≤ other.parts := partsLe_iff

/-- The parts tell the path: a root is no name. -/
theorem Proper.parts_inj {path other : Path} (h : path.Proper) (h' : other.Proper)
    (heq : path.parts = other.parts) : path = other := by
  have hroot : ∀ {path : Path}, path.Proper → path.root ≠ [] → ¬ IsName path.root := by
    intro path hpath hne hname
    obtain ⟨c, hc⟩ := List.exists_mem_of_ne_nil _ hne
    exact hname.no_slash (hpath.root c hc ▸ hc)
  obtain ⟨root, names⟩ := path
  obtain ⟨root', names'⟩ := other
  unfold parts at heq
  simp only [List.isEmpty_iff] at heq
  by_cases hr : root = []
  · by_cases hr' : root' = []
    · rw [if_pos hr, if_pos hr'] at heq
      rw [hr, hr', heq]
    · rw [if_pos hr, if_neg hr'] at heq
      exact absurd (h.named root' (heq ▸ List.mem_cons_self)) (hroot h' hr')
  · by_cases hr' : root' = []
    · rw [if_neg hr, if_pos hr'] at heq
      exact absurd (h'.named root (heq ▸ List.mem_cons_self)) (hroot h hr)
    · rw [if_neg hr, if_neg hr'] at heq
      obtain ⟨rfl, rfl⟩ := List.cons.inj heq
      rfl

/-! ## Increasing lists -/

/-- The path comes before the other, and is not the same. -/
def Before (path other : Path) : Prop := path.le other = true ∧ other.le path = false

instance : Std.Irrefl Before :=
  ⟨fun _ h => Bool.false_ne_true (h.2.symm.trans h.1)⟩

instance : Std.Antisymm Before :=
  ⟨fun _ _ h h' => absurd (h'.2.symm.trans h.1) Bool.false_ne_true⟩

theorem eq_of_increasing {paths others : List Path} (h : paths.Pairwise Before) (h' : others.Pairwise Before)
    (hm : ∀ path, path ∈ paths ↔ path ∈ others) : paths = others :=
  h.eq_of_mem_iff h' hm

/-- Sorting brings different paths in order. -/
theorem pairwise_before_mergeSort {paths : List Path} (hproper : ∀ path ∈ paths, path.Proper) (h : paths.Nodup) :
    (paths.mergeSort le).Pairwise Before := by
  have hsorted : (paths.mergeSort le).Pairwise fun a b => a.le b = true := by
    refine List.pairwise_mergeSort (fun a b c hab hbc => ?_) (fun a b => ?_) paths
    · exact le_iff.2 ((le_iff.1 hab).trans (le_iff.1 hbc))
    · rw [Bool.or_eq_true, le_iff, le_iff]
      exact le_total a.parts b.parts
  have hapart : (paths.mergeSort le).Nodup := (List.mergeSort_perm _ _).nodup_iff.2 h
  refine (hsorted.and hapart).imp_of_mem ?_
  rintro a b ha hb ⟨hab, hne⟩
  refine ⟨hab, Bool.eq_false_iff.2 fun hba => hne ?_⟩
  have hparts : a.parts = b.parts := le_antisymm (le_iff.1 hab) (le_iff.1 hba)
  exact (hproper a (List.mem_mergeSort.1 ha)).parts_inj (hproper b (List.mem_mergeSort.1 hb)) hparts

end Path

end DocLint
