import DocLint.Proofs.PathTexts
import DocLint.Rule.TypeName
import Mathlib.Data.Set.Lattice

/-!
# Which types cover which

A type is cut into parts at every mark, and each part is named by itself. So the names of a union are the names of its
members, whatever the texts around the mark are, and the order and the number of its parts have no say
(`mem_typeNameSet_join`). Whether a documented type covers a declared one depends on their names only
(`documents_iff`), and all laws of covering are laws of sets.
-/

namespace DocLint

/-- Split at a separator and joined with it again, a text is the same. -/
theorem Text.join_splitWhere (c : Char) (text : Text) : join [c] (splitWhere (· == c) text) = text := by
  induction text with
  | nil => rfl
  | cons first rest ih =>
    obtain ⟨part, parts, hparts⟩ := List.exists_cons_of_ne_nil (splitWhere_ne_nil (· == c) rest)
    rw [hparts] at ih
    by_cases hc : (first == c) = true
    · rw [splitWhere, if_pos hc, hparts, join_cons_cons, ih, eq_of_beq hc]
      rfl
    · rw [splitWhere_cons_neg (by simpa using hc) hparts]
      cases parts with
      | nil =>
        have hjoin : ∀ part : Text, join [c] [part] = part := fun part => by simp [join]
        rw [hjoin] at ih ⊢
        rw [ih]
      | cons second parts =>
        rw [join_cons_cons] at ih ⊢
        rw [List.cons_append, ih]

/-! ## Names -/

/-- The names of the parts of a type, each counted once. -/
def typeNameSet (type : Text) : Set Text := {name | name ∈ typeNames type}

/-- The names of a type with a mark in it are those on its two sides. -/
theorem typeNameSet_append {mark : Char} (h : isTypeMark mark = true) (front back : Text) :
    typeNameSet (front ++ mark :: back) = typeNameSet front ∪ typeNameSet back := by
  ext name
  unfold typeNameSet typeNames
  rw [Text.splitWhere_append_cons h, List.filterMap_append]
  exact List.mem_append

/-- The names of a union are the names of its parts. -/
theorem mem_typeNameSet_join {parts : List Text} {name : Text} :
    name ∈ typeNameSet (Text.join ['|'] parts) ↔ ∃ part ∈ parts, name ∈ typeNameSet part := by
  induction parts with
  | nil =>
    -- an empty text has one part, which has no name
    show name ∈ typeNameSet [] ↔ _
    simp [typeNameSet, typeNames, Text.splitWhere, partName?, Text.trim, Text.dropEndWhile, Text.lower, Text.lowerAfter]
  | cons first rest ih =>
    cases rest with
    | nil => simp [Text.join]
    | cons second rest =>
      rw [Text.join_cons_cons, List.singleton_append, typeNameSet_append rfl, Set.mem_union, ih]
      simp

/-! ## Covering -/

/-- A documented type covers a declared one if it is mixed or has all names of the other but null. -/
theorem documents_iff {documented declared : Text} :
    documents documented declared = true ↔ "mixed".toList ∈ typeNameSet documented ∨
      typeNameSet declared \ {"null".toList} ⊆ typeNameSet documented := by
  simp only [documents, Bool.or_eq_true, List.all_eq_true, List.contains_iff_mem, beq_iff_eq]
  refine or_congr Iff.rfl ⟨fun hall name hname => ?_, fun hsub name hname => ?_⟩
  · exact (hall name hname.1).resolve_left hname.2
  · by_cases hnull : name = "null".toList
    · exact Or.inl hnull
    · exact Or.inr (hsub ⟨hname, hnull⟩)

/-- Only the names of the two types have a say. -/
theorem documents_congr {documented documented' declared declared' : Text}
    (hdoc : typeNameSet documented = typeNameSet documented')
    (hdecl : typeNameSet declared = typeNameSet declared') :
    documents documented declared = documents documented' declared' := by
  rw [Bool.eq_iff_iff, documents_iff, documents_iff, hdoc, hdecl]

theorem documents_self (type : Text) : documents type type = true := by
  rw [documents_iff]
  right
  intro name hname
  exact hname.1

theorem documents_trans {documented middle declared : Text} (hfirst : documents documented middle = true)
    (hsecond : documents middle declared = true) : documents documented declared = true := by
  rw [documents_iff] at hfirst hsecond ⊢
  rcases hfirst with hmixed | hfirst
  · exact Or.inl hmixed
  · rcases hsecond with hmixed | hsecond
    · -- mixed is a name other than null, so what covers mixed is mixed
      left
      apply hfirst
      exact ⟨hmixed, by decide⟩
    · right
      intro name hname
      apply hfirst
      exact ⟨hsecond hname, hname.2⟩

/-- More names cover more. -/
theorem documents_mono {documented documented' declared : Text}
    (hsub : typeNameSet documented ⊆ typeNameSet documented') (h : documents documented declared = true) :
    documents documented' declared = true := by
  rw [documents_iff] at h ⊢
  rcases h with hmixed | h
  · exact Or.inl (hsub hmixed)
  · exact Or.inr (h.trans hsub)

/-- A union is covered if both of its sides are. -/
theorem documents_append_iff {mark : Char} (h : isTypeMark mark = true) {documented front back : Text} :
    documents documented (front ++ mark :: back) = true ↔
      documents documented front = true ∧ documents documented back = true := by
  rw [documents_iff, documents_iff, documents_iff, typeNameSet_append h, Set.union_sdiff_distrib, Set.union_subset_iff,
    or_and_left]

/-- Parts that are permuted or repeated have the same names. -/
theorem typeNameSet_rejoined {type : Text} {parts : List Text}
    (h : ∀ part, part ∈ parts ↔ part ∈ Text.splitWhere (· == '|') type) :
    typeNameSet (Text.join ['|'] parts) = typeNameSet type := by
  ext name
  have hsplit : typeNameSet type = typeNameSet (Text.join ['|'] (Text.splitWhere (· == '|') type)) := by
    rw [Text.join_splitWhere]
  rw [hsplit, mem_typeNameSet_join, mem_typeNameSet_join]
  simp only [h]

/-- The laws of names and of covering, for all texts.

* The names of a union, and of an intersection, are the names of both sides.
* One type covers another if it is mixed, or by their names.
* Covering is a preorder, and a union is covered if both of its sides are.
* What is covered stays covered if the documented type gets another part.
* The parts between the bars of either type may be permuted and repeated. -/
theorem coverage_laws :
    (∀ front back, typeNameSet (front ++ '|' :: back) = typeNameSet front ∪ typeNameSet back ∧
      typeNameSet (front ++ '&' :: back) = typeNameSet front ∪ typeNameSet back) ∧
    (∀ documented declared, documents documented declared = true ↔ "mixed".toList ∈ typeNameSet documented ∨
      typeNameSet declared \ {"null".toList} ⊆ typeNameSet documented) ∧
    (∀ type, documents type type = true) ∧
    (∀ documented middle declared, documents documented middle = true → documents middle declared = true →
      documents documented declared = true) ∧
    (∀ documented front back, documents documented (front ++ '|' :: back) = true ↔
      documents documented front = true ∧ documents documented back = true) ∧
    (∀ documented declared part mark, isTypeMark mark = true → documents documented declared = true →
      documents (documented ++ mark :: part) declared = true ∧
        documents (part ++ mark :: documented) declared = true) ∧
    ∀ type parts, (∀ part, part ∈ parts ↔ part ∈ Text.splitWhere (· == '|') type) →
      (∀ declared, documents (Text.join ['|'] parts) declared = documents type declared) ∧
        ∀ documented, documents documented (Text.join ['|'] parts) = documents documented type := by
  refine ⟨fun front back => ⟨?_, ?_⟩, ?_, documents_self, ?_, ?_, ?_, ?_⟩
  · exact typeNameSet_append rfl front back
  · exact typeNameSet_append rfl front back
  · intro documented declared
    exact documents_iff
  · intro documented middle declared hfirst hsecond
    exact documents_trans hfirst hsecond
  · intro documented front back
    exact documents_append_iff rfl
  · intro documented declared part mark hmark h
    constructor
    · apply documents_mono _ h
      rw [typeNameSet_append hmark]
      exact Set.subset_union_left
    · apply documents_mono _ h
      rw [typeNameSet_append hmark]
      exact Set.subset_union_right
  · intro type parts hparts
    have hnames := typeNameSet_rejoined hparts
    exact ⟨fun declared => documents_congr hnames rfl, fun documented => documents_congr rfl hnames⟩

/-- A nullable long name is covered by the short one, by the short one with another part in front, and as one of two
parts that are repeated and change places. Another name is not covered, neither alone nor behind the long one. -/
theorem coverage_laws_of_alias :
    documents "int".toList "?Integer".toList = true ∧ documents "A[]|int".toList "?Integer".toList = true ∧
      documents "A[]|int|A[]|int".toList "?Integer".toList = documents "int|A[]".toList "?Integer".toList ∧
      documents "int".toList "B".toList = false ∧ documents "int".toList "?Integer|B".toList = false := by
  have hcovers : documents "int".toList "?Integer".toList = true := by decide
  have hother : documents "int".toList "B".toList = false := by decide
  obtain ⟨_, _, _, _, hunion, hadd, hparts⟩ := coverage_laws
  refine ⟨hcovers, ?_, ?_, hother, ?_⟩
  · exact (hadd "int".toList "?Integer".toList "A[]".toList '|' rfl hcovers).2
  · apply (hparts "int|A[]".toList ["A[]".toList, "int".toList, "A[]".toList, "int".toList] _).1
    intro part
    have hsplit : Text.splitWhere (· == '|') "int|A[]".toList = ["int".toList, "A[]".toList] := by decide
    rw [hsplit]
    grind
  · apply Bool.eq_false_iff.2
    intro h
    have hback := ((hunion "int".toList "?Integer".toList "B".toList).1 h).2
    rw [hother] at hback
    cases hback

end DocLint
