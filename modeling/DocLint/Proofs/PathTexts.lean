import DocLint.Files.Path
import DocLint.Proofs.Heredocs
import DocLint.Proofs.LineEnds

/-!
# The texts of paths

A directory holds names that are not empty, have no slash in them and are no single dot (`Path.IsName`). A path of
such names, below a root of at most two slashes, is read back from its text (`Path.Proper.ofText_toText`), so such
paths that are written alike are one path. Paths that are read are like that.
-/

namespace DocLint

/-! ## Names between slashes -/

namespace Text

variable {p : Char → Bool}

theorem splitWhere_of_forall {text : Text} (h : ∀ c ∈ text, p c = false) : splitWhere p text = [text] := by
  induction text with
  | nil => rfl
  | cons c rest ih =>
    have hrest := ih fun other hm => h other (List.mem_cons_of_mem _ hm)
    exact splitWhere_cons_neg (h c List.mem_cons_self) hrest

/-- The parts of two texts with a separator between them are the parts of the one and those of the other. -/
theorem splitWhere_append_cons {c : Char} (hc : p c = true) (front back : Text) :
    splitWhere p (front ++ c :: back) = splitWhere p front ++ splitWhere p back := by
  induction front with
  | nil =>
    show splitWhere p (c :: back) = [] :: splitWhere p back
    rw [splitWhere, if_pos hc]
  | cons first front ih =>
    by_cases hfirst : p first = true
    · rw [List.cons_append, splitWhere, if_pos hfirst, splitWhere, if_pos hfirst, ih, List.cons_append]
    · have hno : p first = false := by simpa using hfirst
      obtain ⟨part, parts, hparts⟩ := List.exists_cons_of_ne_nil (splitWhere_ne_nil p front)
      rw [hparts, List.cons_append] at ih
      rw [List.cons_append, splitWhere_cons_neg hno ih, splitWhere_cons_neg hno hparts, List.cons_append]

theorem splitWhere_append {part rest : Text} {c : Char} (h : ∀ c ∈ part, p c = false) (hc : p c = true) :
    splitWhere p (part ++ c :: rest) = part :: splitWhere p rest := by
  rw [splitWhere_append_cons hc, splitWhere_of_forall h, List.singleton_append]

/-- The parts of a text have no separator in them. -/
theorem forall_mem_splitWhere {text part : Text} (h : part ∈ splitWhere p text) : ∀ c ∈ part, p c = false := by
  induction text generalizing part with
  | nil =>
    obtain rfl := List.mem_singleton.1 h
    intro c hc
    cases hc
  | cons c rest ih =>
    obtain ⟨first, parts, hparts⟩ := List.exists_cons_of_ne_nil (splitWhere_ne_nil p rest)
    rw [hparts] at ih
    by_cases hc : p c = true
    · rw [splitWhere, if_pos hc, hparts] at h
      rcases List.mem_cons.1 h with rfl | h
      · intro other hm
        cases hm
      · exact ih h
    · rw [splitWhere_cons_neg (by simpa using hc) hparts] at h
      rcases List.mem_cons.1 h with rfl | h
      · intro other hm
        rcases List.mem_cons.1 hm with rfl | hm
        · simpa using hc
        · exact ih List.mem_cons_self other hm
      · exact ih (List.mem_cons_of_mem _ h)

theorem join_cons_cons (mark first second : Text) (rest : List Text) :
    join mark (first :: second :: rest) = first ++ (mark ++ join mark (second :: rest)) := by
  simp [join]

/-- Behind the first part, each one comes with the mark in front. -/
theorem join_cons (mark first : Text) (rest : List Text) :
    join mark (first :: rest) = first ++ rest.flatMap (mark ++ ·) := by
  induction rest generalizing first with
  | nil => simp [join]
  | cons second others ih => rw [join_cons_cons, ih, List.flatMap_cons, List.append_assoc]

/-- Parts that are joined at a separator can be split again. -/
theorem splitWhere_join {c : Char} (hc : p c = true) {parts : List Text} (hne : parts ≠ [])
    (h : ∀ part ∈ parts, ∀ c ∈ part, p c = false) : splitWhere p (join [c] parts) = parts := by
  induction parts with
  | nil => exact absurd rfl hne
  | cons first rest ih =>
    have hfirst := h first List.mem_cons_self
    cases rest with
    | nil =>
      have hjoin : join [c] [first] = first := by simp [join]
      rw [hjoin, splitWhere_of_forall hfirst]
    | cons second rest =>
      rw [join_cons_cons, List.singleton_append, splitWhere_append hfirst hc,
        ih (List.cons_ne_nil _ _) fun part hm => h part (List.mem_cons_of_mem _ hm)]

end Text

/-! ## Paths -/

namespace Path

/-- The path is made of names. -/
def Named (path : Path) : Prop := ∀ name ∈ path.names, IsName name

theorem ofText_named (text : Text) : (ofText text).Named := by
  intro name hm
  obtain ⟨hpart, hkept⟩ := List.mem_filter.1 hm
  obtain ⟨hempty, hdot⟩ := Bool.and_eq_true_iff.1 hkept
  constructor
  case ne_nil =>
    rintro rfl
    cases hempty
  case no_slash =>
    intro hslash
    have hno := Text.forall_mem_splitWhere hpart '/' hslash
    cases hno
  case ne_dot => simpa using hdot

/-- A path of names, below a root of slashes only. -/
structure Proper (path : Path) : Prop where
  root : ∀ c ∈ path.root, c = '/'
  length_root : path.root.length ≤ 2
  named : path.Named

theorem ofText_proper (text : Text) : (ofText text).Proper := by
  have hslashes : ∀ c ∈ text.takeWhile (· == '/'), c = '/' := by
    intro c hc
    simpa using List.all_eq_true.1 List.all_takeWhile c hc
  refine ⟨fun c hc => ?_, ?_, ofText_named text⟩
  · dsimp only [ofText] at hc
    split at hc
    · exact hslashes c hc
    · exact hslashes c (List.mem_of_mem_take hc)
  · dsimp only [ofText]
    split
    · next htwo => exact Nat.le_of_eq htwo
    · exact (List.length_take_le _ _).trans (by decide)

theorem Proper.below {path : Path} (h : path.Proper) {names : List Text} (hnames : ∀ name ∈ names, IsName name) :
    (path.below names).Proper := by
  refine ⟨h.root, h.length_root, fun name hm => ?_⟩
  rcases List.mem_append.1 hm with hm | hm
  · exact h.named name hm
  · exact hnames name hm

section

variable {path other : Path}

theorem Named.splitWhere_join (h : path.Named) (hne : path.names ≠ []) :
    Text.splitWhere (· == '/') (Text.join ['/'] path.names) = path.names := by
  refine Text.splitWhere_join rfl hne fun name hm c hc => ?_
  have hslash : c ≠ '/' := fun heq => (h name hm).no_slash (heq ▸ hc)
  simpa using hslash

/-- Names with slashes between them do not start with a slash. -/
theorem Named.head_join (h : path.Named) {c : Char} (hc : (Text.join ['/'] path.names).head? = some c) : c ≠ '/' := by
  obtain ⟨root, names⟩ := path
  cases names with
  | nil => cases hc
  | cons first rest =>
    have hfirst := h first List.mem_cons_self
    obtain ⟨d, more, rfl⟩ := List.exists_cons_of_ne_nil hfirst.ne_nil
    have hd : d = c := by
      cases rest with
      | nil => simpa [Text.join] using hc
      | cons second others => simpa [Text.join] using hc
    rintro rfl
    exact hfirst.no_slash (hd ▸ List.mem_cons_self)

/-- The names are read from their text. -/
theorem Named.filter_splitWhere (h : path.Named) :
    (Text.splitWhere (· == '/') (Text.join ['/'] path.names)).filter (fun name => !name.isEmpty && name != ['.']) =
      path.names := by
  by_cases hne : path.names = []
  · rw [hne]
    rfl
  · rw [h.splitWhere_join hne]
    refine List.filter_eq_self.2 fun name hm => ?_
    have hname := h name hm
    simp [hname.ne_nil, hname.ne_dot]

/-- A path is read back from its text. -/
theorem Proper.ofText_toText (h : path.Proper) : ofText path.toText = path := by
  have hroot : (if path.root.length = 2 then path.root else path.root.take 1) = path.root := by
    have hlength := h.length_root
    split
    · rfl
    · exact List.take_of_length_le (by omega)
  unfold toText
  dsimp only
  split
  · next hempty =>
    -- neither a root nor a name is left out of a dot
    obtain ⟨hnone, hnames⟩ := List.append_eq_nil_iff.1 (List.isEmpty_iff.1 hempty)
    have hread := h.named.filter_splitWhere
    rw [hnames] at hread
    obtain ⟨root, names⟩ := path
    obtain rfl : root = [] := hnone
    obtain rfl : [] = names := hread
    rfl
  · have hslashes : Text.RunOf (· == '/') path.root (Text.join ['/'] path.names) :=
      ⟨fun c hc => beq_iff_eq.2 (h.root c hc), fun c hc => beq_false_of_ne (h.named.head_join hc)⟩
    unfold ofText
    dsimp only
    rw [hslashes.takeWhile_append, hslashes.dropWhile_append, hroot, h.named.filter_splitWhere]

/-- Paths that are written alike are one path. -/
theorem Proper.eq_of_toText (h : path.Proper) (h' : other.Proper) (heq : path.toText = other.toText) :
    path = other := by
  rw [← h.ofText_toText, heq, h'.ofText_toText]

end

end Path

end DocLint
