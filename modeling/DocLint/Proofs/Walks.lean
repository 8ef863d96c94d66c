import DocLint.Files.Walk
import DocLint.Proofs.PathTexts
import DocLint.Proofs.Results

/-!
# Walks through directories

What a walk meets is told by the answers of the disk. From a directory it comes to all directories that are listed in
one another, without links (`Disk.Descends`); it gets through unless one of them is too deep or cannot be listed for
another reason than that it may not be (`Disk.exists_directories_iff`). What the parts of a pattern find is a relation
between paths (`Disk.Finds`), and a walk that ends without a fault finds exactly that (`Disk.mem_select`).
-/

namespace DocLint

/-! ## Tests that may fail -/

section

variable {ε α : Type} {test : α → Except ε Bool} {items passed : List α}

theorem mem_passing (h : passing test items = .ok passed) {item : α} :
    item ∈ passed ↔ item ∈ items ∧ test item = .ok true := by
  induction items generalizing passed with
  | nil =>
    obtain rfl := Except.ok.inj h
    simp
  | cons first rest ih =>
    rw [passing] at h
    obtain ⟨passes, hfirst, h⟩ := bind_eq_ok.1 h
    obtain ⟨others, hothers, h⟩ := bind_eq_ok.1 h
    obtain rfl := Except.ok.inj h
    have hrest := ih hothers
    cases passes with
    | true =>
      rw [if_pos rfl, List.mem_cons, List.mem_cons, hrest]
      constructor
      · rintro (rfl | ⟨hm, htest⟩)
        · exact ⟨Or.inl rfl, hfirst⟩
        · exact ⟨Or.inr hm, htest⟩
      · rintro ⟨rfl | hm, htest⟩
        · exact Or.inl rfl
        · exact Or.inr ⟨hm, htest⟩
    | false =>
      rw [if_neg Bool.false_ne_true, List.mem_cons, hrest]
      constructor
      · rintro ⟨hm, htest⟩
        exact ⟨Or.inr hm, htest⟩
      · rintro ⟨rfl | hm, htest⟩
        · rw [hfirst] at htest
          cases htest
        · exact ⟨hm, htest⟩

theorem exists_passing_iff :
    (∃ passed, passing test items = .ok passed) ↔ ∀ item ∈ items, ∃ passes, test item = .ok passes := by
  induction items with
  | nil => exact iff_of_true ⟨[], rfl⟩ fun _ hm => absurd hm List.not_mem_nil
  | cons first rest ih =>
    rw [List.forall_mem_cons, ← ih, passing]
    constructor
    · rintro ⟨passed, h⟩
      obtain ⟨passes, hfirst, h⟩ := bind_eq_ok.1 h
      obtain ⟨others, hothers, -⟩ := bind_eq_ok.1 h
      exact ⟨⟨passes, hfirst⟩, others, hothers⟩
    · rintro ⟨⟨passes, hfirst⟩, others, hothers⟩
      exact ⟨_, bind_eq_ok.2 ⟨passes, hfirst, bind_eq_ok.2 ⟨others, hothers, rfl⟩⟩⟩

end

namespace Disk

variable {disk : Disk} {path lower file : Path} {place : Place} {fault : SystemFault} {entry : Listed}

/-! ## Answers -/

/-- The disk says what is at the path. -/
def Has (disk : Disk) (path : Path) (place : Place) : Prop :=
  '\x00' ∉ path.toText ∧ disk.place path = .ok place

/-- Asking for the path ends with a fault that says more than that nothing is there. -/
def Refuses (disk : Disk) (path : Path) (fault : SystemFault) : Prop :=
  '\x00' ∉ path.toText ∧ disk.place path = .error fault ∧ fault.saysAbsent = false

/-- The directory at the path is listed with the entry. -/
def Holds (disk : Disk) (path : Path) (entry : Listed) : Prop :=
  ∃ entries, disk.listing path = .ok entries ∧ entry ∈ entries

/-- A walk gets past the directory at the path: it can be listed, or it may not be. -/
def LetsPass (disk : Disk) (path : Path) : Prop :=
  ∀ fault, disk.listing path = .error fault → fault.saysDenied = true

theorem place?_eq_some : disk.place? path = .ok (some place) ↔ disk.Has path place := by
  unfold place? Has
  by_cases hnul : '\x00' ∈ path.toText
  · simp [hnul]
  · rw [if_neg (by simpa using hnul)]
    cases disk.place path with
    | ok found => simp [hnul]
    | error fault =>
      dsimp only
      split
      · simp
      · simp

theorem place?_eq_error : disk.place? path = .error fault ↔ disk.Refuses path fault := by
  unfold place? Refuses
  by_cases hnul : '\x00' ∈ path.toText
  · simp [hnul]
  · rw [if_neg (by simpa using hnul)]
    cases disk.place path with
    | ok place => simp
    | error other =>
      dsimp only
      split
      · next habsent =>
        refine iff_of_false (fun h => by cases h) fun h => ?_
        obtain rfl := Except.error.inj h.2.1
        rw [habsent] at h
        cases h.2.2
      · next habsent =>
        constructor
        · intro h
          obtain rfl := Except.error.inj h
          exact ⟨hnul, rfl, by simpa using habsent⟩
        · rintro ⟨-, h, -⟩
          obtain rfl := Except.error.inj h
          rfl

theorem isDirectory_eq_true : disk.isDirectory path = .ok true ↔ disk.Has path .directory := by
  rw [← place?_eq_some, isDirectory, map_eq_ok]
  simp

theorem isFile_eq_true : disk.isFile path = .ok true ↔ disk.Has path .file := by
  rw [← place?_eq_some, isFile, map_eq_ok]
  simp

theorem isThere_eq_true : disk.isThere path = .ok true ↔ ∃ place, disk.Has path place := by
  simp only [← place?_eq_some, isThere, map_eq_ok, Option.isSome_iff_exists]
  constructor
  · rintro ⟨_, h, place, rfl⟩
    exact ⟨place, h⟩
  · rintro ⟨place, h⟩
    exact ⟨some place, h, place, rfl⟩

theorem isDirectory_eq_error : disk.isDirectory path = .error fault ↔ disk.Refuses path fault := by
  rw [← place?_eq_error, isDirectory, map_eq_error]

theorem exists_map_place? {α : Type} {test : Option Place → α} :
    (∃ answer, (disk.place? path).map test = .ok answer) ↔ ∀ fault, ¬ disk.Refuses path fault := by
  cases h : disk.place? path with
  | ok found =>
    refine iff_of_true ⟨_, rfl⟩ fun fault hno => ?_
    rw [← place?_eq_error, h] at hno
    cases hno
  | error fault =>
    refine iff_of_false ?_ fun hno => hno fault (place?_eq_error.1 h)
    rintro ⟨answer, hanswer⟩
    cases hanswer

theorem mem_entries {found : List Listed} (h : disk.entries path = .ok found) :
    entry ∈ found ↔ disk.Holds path entry := by
  unfold entries at h
  unfold Holds
  split at h
  · next listed hlisting =>
    obtain rfl := Except.ok.inj h
    simp [hlisting]
  · next fault hlisting =>
    split at h
    · obtain rfl := Except.ok.inj h
      simp [hlisting]
    · cases h

theorem exists_entries_iff : (∃ found, disk.entries path = .ok found) ↔ disk.LetsPass path := by
  unfold entries LetsPass
  cases disk.listing path with
  | ok listed => simp
  | error fault =>
    dsimp only
    split
    · next hdenied => simpa using hdenied
    · next hdenied => simpa using hdenied

/-! ## Directories below a directory -/

/-- A directory lies some steps below another one: each is listed in the one before, and none is a link. -/
inductive Descends (disk : Disk) : (steps : Nat) → (path lower : Path) → Prop where
  | here {path : Path} : Descends disk 0 path path
  | down {steps : Nat} {path lower : Path} {entry : Listed} (hholds : disk.Holds path entry)
      (hkind : entry.kind = .directory) (h : Descends disk steps (path.below [entry.name]) lower) :
      Descends disk (steps + 1) path lower

theorem mem_directories {room : Nat} {found : List Path} (h : disk.directories room path = .ok found) :
    lower ∈ found ↔ ∃ steps, disk.Descends steps path lower := by
  induction room generalizing path lower found with
  | zero => cases h
  | succ room ih =>
    rw [directories] at h
    obtain ⟨entries, hentries, h⟩ := bind_eq_ok.1 h
    obtain ⟨below, hbelow, h⟩ := bind_eq_ok.1 h
    obtain rfl := Except.ok.inj h
    have hentries := mapError_eq_ok.1 hentries
    have hflatten : ((entries.filter (·.kind = .directory)).mapM fun entry =>
        disk.directories room (path.below [entry.name])) >>= (fun parts => pure parts.flatten) = .ok below.flatten :=
      bind_eq_ok.2 ⟨below, hbelow, rfl⟩
    have hlower : lower ∈ below.flatten ↔ ∃ entry ∈ entries.filter (·.kind = .directory),
        ∃ steps, disk.Descends steps (path.below [entry.name]) lower :=
      mem_flatten_iff hflatten fun entry part hpart lower => ih hpart
    rw [List.mem_cons, hlower]
    constructor
    · rintro (rfl | ⟨entry, hentry, steps, hdescends⟩)
      · exact ⟨0, .here⟩
      · obtain ⟨hentry, hkind⟩ := List.mem_filter.1 hentry
        exact ⟨steps + 1, .down ((mem_entries hentries).1 hentry) (of_decide_eq_true hkind) hdescends⟩
    · rintro ⟨steps, hdescends⟩
      cases hdescends with
      | here => exact Or.inl rfl
      | @down steps _ _ entry hholds hkind hdescends =>
        refine Or.inr ⟨entry, List.mem_filter.2 ⟨?_, decide_eq_true hkind⟩, steps, hdescends⟩
        exact (mem_entries hentries).2 hholds

/-- All directories are met exactly if a walk gets past each of them and there is room for its depth. -/
theorem exists_directories_iff {room : Nat} : (∃ found, disk.directories room path = .ok found) ↔
    ∀ steps lower, disk.Descends steps path lower → steps < room ∧ disk.LetsPass lower := by
  induction room generalizing path with
  | zero =>
    refine iff_of_false ?_ fun h => Nat.not_lt_zero 0 (h 0 path .here).1
    rintro ⟨found, h⟩
    cases h
  | succ room ih =>
    constructor
    · rintro ⟨found, h⟩ steps lower hdescends
      rw [directories] at h
      obtain ⟨entries, hentries, h⟩ := bind_eq_ok.1 h
      obtain ⟨below, hbelow, -⟩ := bind_eq_ok.1 h
      have hentries := mapError_eq_ok.1 hentries
      cases hdescends with
      | here => exact ⟨Nat.succ_pos room, exists_entries_iff.1 ⟨entries, hentries⟩⟩
      | @down steps _ _ entry hholds hkind hdescends =>
        have hentry : entry ∈ entries.filter (·.kind = .directory) :=
          List.mem_filter.2 ⟨(mem_entries hentries).2 hholds, decide_eq_true hkind⟩
        obtain ⟨hsteps, hpass⟩ := ih.1 (exists_mapM_iff.1 ⟨below, hbelow⟩ entry hentry) steps lower hdescends
        exact ⟨Nat.succ_lt_succ hsteps, hpass⟩
    · intro h
      obtain ⟨entries, hentries⟩ := exists_entries_iff.2 (h 0 path .here).2
      have hbelow : ∀ entry ∈ entries.filter (·.kind = .directory),
          ∃ found, disk.directories room (path.below [entry.name]) = .ok found := by
        intro entry hentry
        obtain ⟨hentry, hkind⟩ := List.mem_filter.1 hentry
        refine ih.2 fun steps lower hdescends => ?_
        obtain ⟨hsteps, hpass⟩ :=
          h (steps + 1) lower (.down ((mem_entries hentries).1 hentry) (of_decide_eq_true hkind) hdescends)
        exact ⟨Nat.lt_of_succ_lt_succ hsteps, hpass⟩
      obtain ⟨below, hbelow⟩ := exists_mapM_iff.2 hbelow
      refine ⟨path :: below.flatten, ?_⟩
      rw [directories]
      exact bind_eq_ok.2 ⟨entries, mapError_eq_ok.2 hentries, bind_eq_ok.2 ⟨below, hbelow, rfl⟩⟩

/-! ## Parts of a pattern -/

/-- An entry of the directory at a path is a directory, or a link that leads to one. -/
def IsWayDown (disk : Disk) (path : Path) (entry : Listed) : Prop :=
  entry.kind = .directory ∨ entry.kind = .link ∧ disk.Has (path.below [entry.name]) .directory

/-- Among the entries of a directory there is a way down, and no link in front of it ends the look through them. -/
def LeadsDown (disk : Disk) (path : Path) (entries : List Listed) (entry : Listed) : Prop :=
  ∃ front back, entries = front ++ entry :: back ∧ disk.IsWayDown path entry ∧
    ∀ other ∈ front, other.kind = .link → ∀ fault, ¬ disk.Refuses (path.below [other.name]) fault

theorem leadsDown_eq_true : disk.leadsDown path entry = .ok true ↔ disk.IsWayDown path entry := by
  unfold leadsDown IsWayDown
  cases hkind : entry.kind with
  | directory => simp
  | link => simp [isDirectory_eq_true]
  | other => simp

theorem leadsDown_eq_error : disk.leadsDown path entry = .error fault ↔
    entry.kind = .link ∧ disk.Refuses (path.below [entry.name]) fault := by
  unfold leadsDown
  cases hkind : entry.kind with
  | directory => simp
  | link => simp [isDirectory_eq_error]
  | other => simp

theorem leadsDown_cons {first : Listed} {rest : List Listed} : disk.LeadsDown path (first :: rest) entry ↔
    first = entry ∧ disk.IsWayDown path entry ∨
      (first.kind = .link → ∀ fault, ¬ disk.Refuses (path.below [first.name]) fault) ∧
        disk.LeadsDown path rest entry := by
  constructor
  · rintro ⟨front, back, hentries, hway, hfront⟩
    cases front with
    | nil => exact Or.inl ⟨(List.cons.inj hentries).1, hway⟩
    | cons other front =>
      obtain ⟨rfl, rfl⟩ := List.cons.inj hentries
      exact Or.inr ⟨hfront _ List.mem_cons_self, front, back, rfl, hway,
        fun other hm => hfront other (List.mem_cons_of_mem _ hm)⟩
  · rintro (⟨rfl, hway⟩ | ⟨hfirst, front, back, rfl, hway, hfront⟩)
    · exact ⟨[], rest, rfl, hway, fun _ hm => absurd hm List.not_mem_nil⟩
    · exact ⟨first :: front, back, rfl, hway, List.forall_mem_cons.2 ⟨hfirst, hfront⟩⟩

theorem mem_leadingDown {entries found : List Listed} (h : disk.leadingDown path entries = .ok found) :
    entry ∈ found ↔ disk.LeadsDown path entries entry := by
  induction entries generalizing found with
  | nil =>
    obtain rfl := Except.ok.inj h
    refine iff_of_false List.not_mem_nil ?_
    rintro ⟨front, back, hentries, -⟩
    cases front with
    | nil => cases hentries
    | cons other front => cases hentries
  | cons first rest ih =>
    rw [leadingDown] at h
    rw [leadsDown_cons]
    split at h
    · next fault hleads =>
      -- the first entry ends the look, so neither it nor another one is left
      split at h
      · obtain rfl := Except.ok.inj h
        refine iff_of_false List.not_mem_nil ?_
        rintro (⟨rfl, hway⟩ | ⟨hfirst, -⟩)
        · rw [leadsDown_eq_true.2 hway] at hleads
          cases hleads
        · obtain ⟨hlink, hrefuses⟩ := leadsDown_eq_error.1 hleads
          exact hfirst hlink fault hrefuses
      · cases h
    · next down hleads =>
      obtain ⟨others, hothers, h⟩ := bind_eq_ok.1 h
      obtain rfl := Except.ok.inj h
      have hfirst : first.kind = .link → ∀ fault, ¬ disk.Refuses (path.below [first.name]) fault := by
        intro hlink fault hrefuses
        rw [leadsDown_eq_error.2 ⟨hlink, hrefuses⟩] at hleads
        cases hleads
      cases down with
      | true =>
        have hway := leadsDown_eq_true.1 hleads
        rw [if_pos rfl, List.mem_cons, ih hothers]
        constructor
        · rintro (rfl | hm)
          · exact Or.inl ⟨rfl, hway⟩
          · exact Or.inr ⟨hfirst, hm⟩
        · rintro (⟨rfl, -⟩ | ⟨-, hm⟩)
          · exact Or.inl rfl
          · exact Or.inr hm
      | false =>
        rw [if_neg Bool.false_ne_true, ih hothers]
        constructor
        · exact fun hm => Or.inr ⟨hfirst, hm⟩
        · rintro (⟨rfl, hway⟩ | ⟨-, hm⟩)
          · rw [leadsDown_eq_true.2 hway] at hleads
            cases hleads
          · exact hm

theorem mem_candidates {last : Bool} {found : List Listed} (h : disk.candidates path last = .ok found) :
    entry ∈ found ↔ ∃ entries, disk.listing path = .ok entries ∧ entry ∈ entries ∧
      (last = false → disk.LeadsDown path entries entry) := by
  unfold candidates at h
  obtain ⟨listed, hlisted, h⟩ := bind_eq_ok.1 h
  have hsame : ∀ {entries}, disk.listing path = .ok entries → entries = listed := by
    intro entries hlisting
    unfold Disk.entries at hlisted
    rw [hlisting] at hlisted
    exact Except.ok.inj hlisted
  cases last with
  | true =>
    obtain rfl := Except.ok.inj h
    rw [mem_entries hlisted]
    simp [Holds]
  | false =>
    rw [mem_leadingDown h]
    constructor
    · intro hdown
      have hm : entry ∈ listed := by
        obtain ⟨front, back, hsplit, -⟩ := hdown
        exact hsplit ▸ List.mem_append_right _ List.mem_cons_self
      obtain ⟨entries, hlisting, hm⟩ := (mem_entries hlisted).1 hm
      obtain rfl := hsame hlisting
      exact ⟨_, hlisting, hm, fun _ => hdown⟩
    · rintro ⟨entries, hlisting, -, hdown⟩
      exact hsame hlisting ▸ hdown rfl

theorem isCandidate_eq_true {last : Bool} : disk.isCandidate path last = .ok true ↔
    ∃ place, disk.Has path place ∧ (last = false → place = .directory) := by
  unfold isCandidate
  cases last with
  | true => simp [isThere_eq_true]
  | false => simp [isDirectory_eq_true]

/-- The parts of a pattern find a path from a directory on. All parts but the last have to lead to a directory. -/
inductive Finds (disk : Disk) : List Selector → (path file : Path) → Prop where
  | here {path : Path} : Finds disk [] path path
  | slash {path : Path} {rest : List Selector} : Finds disk (.slash :: rest) path path
  | anyDepth {steps : Nat} {path lower file : Path} {rest : List Selector} (hdescends : disk.Descends steps path lower)
      (h : Finds disk rest lower file) : Finds disk (.anyDepth :: rest) path file
  | named {path file : Path} {name : Text} {rest : List Selector} {place : Place}
      (hplace : disk.Has (path.below [name]) place) (hrest : rest.isEmpty = false → place = .directory)
      (h : Finds disk rest (path.below [name]) file) : Finds disk (.named name :: rest) path file
  | fitting {path file : Path} {pattern : Wildcard} {rest : List Selector} {entries : List Listed} {entry : Listed}
      (hlisting : disk.listing path = .ok entries) (hentry : entry ∈ entries)
      (hrest : rest.isEmpty = false → disk.LeadsDown path entries entry) (hfits : pattern.fits entry.name = true)
      (h : Finds disk rest (path.below [entry.name]) file) : Finds disk (.fitting pattern :: rest) path file

section

variable {rest : List Selector}

theorem finds_anyDepth_iff : disk.Finds (.anyDepth :: rest) path file ↔
    ∃ lower, (∃ steps, disk.Descends steps path lower) ∧ disk.Finds rest lower file := by
  constructor
  · intro h
    cases h with
    | anyDepth hdescends h => exact ⟨_, ⟨_, hdescends⟩, h⟩
  · rintro ⟨lower, ⟨steps, hdescends⟩, h⟩
    exact .anyDepth hdescends h

theorem finds_named_iff {name : Text} : disk.Finds (.named name :: rest) path file ↔
    (∃ place, disk.Has (path.below [name]) place ∧ (rest.isEmpty = false → place = .directory)) ∧
      disk.Finds rest (path.below [name]) file := by
  constructor
  · intro h
    cases h with
    | named hplace hrest h => exact ⟨⟨_, hplace, hrest⟩, h⟩
  · rintro ⟨⟨place, hplace, hrest⟩, h⟩
    exact .named hplace hrest h

theorem finds_fitting_iff {pattern : Wildcard} : disk.Finds (.fitting pattern :: rest) path file ↔
    ∃ entry, ((∃ entries, disk.listing path = .ok entries ∧ entry ∈ entries ∧
        (rest.isEmpty = false → disk.LeadsDown path entries entry)) ∧ pattern.fits entry.name = true) ∧
      disk.Finds rest (path.below [entry.name]) file := by
  constructor
  · intro h
    cases h with
    | fitting hlisting hentry hrest hfits h => exact ⟨_, ⟨⟨_, hlisting, hentry, hrest⟩, hfits⟩, h⟩
  · rintro ⟨entry, ⟨⟨entries, hlisting, hentry, hrest⟩, hfits⟩, h⟩
    exact .fitting hlisting hentry hrest hfits h

end

/-- A walk finds exactly what the pattern does. -/
theorem mem_select {selectors : List Selector} {found : List Path} (h : disk.select selectors path = .ok found) :
    file ∈ found ↔ disk.Finds selectors path file := by
  induction selectors generalizing path file found with
  | nil =>
    obtain rfl := Except.ok.inj h
    rw [List.mem_singleton]
    constructor
    · rintro rfl
      exact .here
    · rintro ⟨⟩
      rfl
  | cons part rest ih =>
    cases part with
    | slash =>
      obtain rfl := Except.ok.inj h
      rw [List.mem_singleton]
      constructor
      · rintro rfl
        exact .slash
      · rintro ⟨⟩
        rfl
    | anyDepth =>
      rw [select] at h
      obtain ⟨directories, hdirectories, h⟩ := bind_eq_ok.1 h
      rw [mem_flatten_iff h fun lower part hpart file => ih hpart, finds_anyDepth_iff]
      exact exists_congr fun lower => and_congr_left' (mem_directories hdirectories)
    | named name =>
      rw [select] at h
      rw [finds_named_iff, ← isCandidate_eq_true]
      split at h
      · next hyes =>
        rw [ih h]
        exact (and_iff_right hyes).symm
      · next hno =>
        obtain rfl := Except.ok.inj h
        refine iff_of_false List.not_mem_nil fun hfinds => ?_
        cases hno.symm.trans hfinds.1
      · next fault hfault =>
        split at h
        · obtain rfl := Except.ok.inj h
          refine iff_of_false List.not_mem_nil fun hfinds => ?_
          cases hfault.symm.trans hfinds.1
        · cases h
    | fitting pattern =>
      rw [select] at h
      obtain ⟨candidates, hcandidates, h⟩ := bind_eq_ok.1 h
      have hcandidates := mapError_eq_ok.1 hcandidates
      rw [mem_flatten_iff h fun entry part hpart file => ih hpart, finds_fitting_iff]
      refine exists_congr fun entry => and_congr_left' ?_
      rw [List.mem_filter, mem_candidates hcandidates]

/-- The pattern finds a path at any depth below a directory. -/
def FindsBelow (disk : Disk) (pattern : Text) (path file : Path) : Prop :=
  ∃ selectors, Selector.all pattern = .ok selectors ∧ disk.Finds (.anyDepth :: selectors) path file

theorem mem_filesBelow {pattern : Text} {files : List Path} (h : disk.filesBelow path pattern = .ok files) :
    file ∈ files ↔ disk.Has file .file ∧ disk.FindsBelow pattern path file := by
  unfold filesBelow at h
  obtain ⟨selectors, hselectors, h⟩ := bind_eq_ok.1 h
  obtain ⟨found, hfound, h⟩ := bind_eq_ok.1 h
  rw [mem_passing h, mem_select hfound, mapError_eq_ok, isFile_eq_true]
  constructor
  · rintro ⟨hfinds, hfile⟩
    exact ⟨hfile, selectors, hselectors, hfinds⟩
  · rintro ⟨hfile, others, hothers, hfinds⟩
    obtain rfl := Except.ok.inj (hselectors.symm.trans hothers)
    exact ⟨hfinds, hfile⟩

end Disk

/-! ## Names of what is found -/

/-- A part of a pattern that is a name. -/
def Selector.Named : Selector → Prop
  | .named name => Path.IsName name
  | _ => True

theorem Selector.all_named {pattern : Text} {selectors : List Selector} (h : all pattern = .ok selectors) :
    ∀ selector ∈ selectors, selector.Named := by
  obtain ⟨parts, hparts, h⟩ := bind_eq_ok.1 h
  obtain rfl := Except.ok.inj h
  have hnamed : ∀ selector ∈ parts, selector.Named := by
    intro selector hm
    obtain ⟨part, hpart, hselector⟩ := exists_of_mem_right (mapM_eq_ok.1 hparts) hm
    have hname := Path.ofText_named pattern part hpart
    unfold ofText at hselector
    split at hselector
    · obtain rfl := Except.ok.inj hselector
      trivial
    · split at hselector
      · cases hselector
      · split at hselector
        · obtain rfl := Except.ok.inj hselector
          trivial
        · obtain rfl := Except.ok.inj hselector
          exact hname
  intro selector hm
  split at hm
  · rcases List.mem_append.1 hm with hm | hm
    · exact hnamed selector hm
    · obtain rfl := List.mem_singleton.1 hm
      trivial
  · exact hnamed selector hm

namespace Path

theorem below_below (path : Path) (front back : List Text) :
    (path.below front).below back = path.below (front ++ back) := by
  unfold below
  rw [List.append_assoc]

theorem below_nil (path : Path) : path.below [] = path := by
  unfold below
  rw [List.append_nil]

end Path

namespace Disk

variable {disk : Disk} {path lower file : Path}

/-- A lower directory is reached by names, none of which leads up. -/
theorem Descends.exists_names {steps : Nat} (h : disk.Descends steps path lower) :
    ∃ names, lower = path.below names ∧ ∀ name ∈ names, Path.IsName name ∧ name ≠ "..".toList := by
  induction h with
  | @here path => exact ⟨[], path.below_nil.symm, fun _ hm => absurd hm List.not_mem_nil⟩
  | @down steps path lower entry _ _ _ ih =>
    obtain ⟨names, rfl, hnames⟩ := ih
    refine ⟨entry.name :: names, Path.below_below .., ?_⟩
    exact List.forall_mem_cons.2 ⟨⟨entry.isName, entry.notUp⟩, hnames⟩

/-- What is found below a directory is found under names. -/
theorem Finds.exists_names {selectors : List Selector} (h : disk.Finds selectors path file)
    (hparts : ∀ part ∈ selectors, part.Named) :
    ∃ names, file = path.below names ∧ ∀ name ∈ names, Path.IsName name := by
  induction h with
  | @here path => exact ⟨[], path.below_nil.symm, fun _ hm => absurd hm List.not_mem_nil⟩
  | @slash path rest => exact ⟨[], path.below_nil.symm, fun _ hm => absurd hm List.not_mem_nil⟩
  | anyDepth hdescends _ ih =>
    obtain ⟨front, rfl, hfront⟩ := hdescends.exists_names
    obtain ⟨back, rfl, hback⟩ := ih (List.forall_mem_cons.1 hparts).2
    refine ⟨front ++ back, Path.below_below .., fun name hm => ?_⟩
    rcases List.mem_append.1 hm with hm | hm
    · exact (hfront name hm).1
    · exact hback name hm
  | @named path file name rest place _ _ _ ih =>
    obtain ⟨hname, hrest⟩ := List.forall_mem_cons.1 hparts
    obtain ⟨names, rfl, hnames⟩ := ih hrest
    exact ⟨name :: names, Path.below_below .., List.forall_mem_cons.2 ⟨hname, hnames⟩⟩
  | @fitting path file pattern rest entries entry _ _ _ _ _ ih =>
    obtain ⟨names, rfl, hnames⟩ := ih (List.forall_mem_cons.1 hparts).2
    exact ⟨entry.name :: names, Path.below_below .., List.forall_mem_cons.2 ⟨entry.isName, hnames⟩⟩

theorem FindsBelow.exists_names {pattern : Text} (h : disk.FindsBelow pattern path file) :
    ∃ names, file = path.below names ∧ ∀ name ∈ names, Path.IsName name := by
  obtain ⟨selectors, hselectors, hfinds⟩ := h
  exact hfinds.exists_names (List.forall_mem_cons.2 ⟨trivial, Selector.all_named hselectors⟩)

end Disk

/-! ## Plain extensions -/

/-- An extension without a slash and without two stars in a row. -/
def IsPlainExtension (extension : Text) : Prop := '/' ∉ extension ∧ ¬ "**".toList <:+: extension

section Plain

variable {extension : Text}

theorem hasInfix_stars (h : IsPlainExtension extension) :
    Text.hasInfix "**".toList ("*.".toList ++ extension) = false := by
  rw [Bool.eq_false_iff]
  intro hin
  obtain ⟨⟨before, after⟩, hcut⟩ := Option.isSome_iff_exists.1 hin
  obtain ⟨htext, hbegin⟩ := Text.cut?_eq_some hcut
  have hinfix : "**".toList <:+: '*' :: '.' :: extension :=
    hbegin.isInfix.trans ⟨before, [], by rw [List.append_nil]; exact htext⟩
  -- the stars do not start at the star, nor at the dot
  rcases List.infix_cons_iff.1 hinfix with hstart | hinfix
  · exact absurd (List.cons_prefix_cons.1 (List.cons_prefix_cons.1 hstart).2).1 (by decide)
  · rcases List.infix_cons_iff.1 hinfix with hstart | hinfix
    · exact absurd (List.cons_prefix_cons.1 hstart).1 (by decide)
    · exact h.2 hinfix

theorem Selector.all_plain (h : IsPlainExtension extension) :
    all ("*.".toList ++ extension) = .ok [.fitting (Wildcard.ofText ("*.".toList ++ extension))] := by
  have hslash : '/' ∉ "*.".toList ++ extension := by
    intro hm
    rcases List.mem_append.1 hm with hm | hm
    · exact absurd hm (by decide)
    · exact h.1 hm
  have hnames : (Path.ofText ("*.".toList ++ extension)).names = ["*.".toList ++ extension] := by
    show ((Text.splitWhere (· == '/') ("*.".toList ++ extension)).filter _) = _
    rw [Text.splitWhere_of_forall fun c hc => beq_false_of_ne (ne_of_mem_of_not_mem hc hslash)]
    rfl
  have hpart : ofText ("*.".toList ++ extension) = .ok (.fitting (Wildcard.ofText ("*.".toList ++ extension))) := by
    have hother : "*.".toList ++ extension ≠ "**".toList := by
      intro heq
      exact absurd (List.cons.inj (List.cons.inj heq).2).1 (by decide)
    rw [ofText, if_neg hother, hasInfix_stars h, if_neg Bool.false_ne_true]
    rfl
  have hlast : ¬ ("*.".toList ++ extension).getLast? = some '/' := fun hlast => hslash (List.mem_of_getLast? hlast)
  unfold all
  simp only [hnames, if_neg hlast, List.mapM_cons, hpart]
  rfl

namespace Disk

variable {disk : Disk} {path file : Path}

/-- The file is listed in some directory below the one at the path, and its name has the extension. -/
def Lists (disk : Disk) (extension : Text) (path file : Path) : Prop :=
  ∃ steps lower entry, disk.Descends steps path lower ∧ disk.Holds lower entry ∧
    (Wildcard.ofText ("*.".toList ++ extension)).fits entry.name = true ∧ file = lower.below [entry.name]

/-- A plain extension is one of the last name. -/
theorem findsBelow_plain_iff (h : IsPlainExtension extension) :
    disk.FindsBelow ("*.".toList ++ extension) path file ↔ disk.Lists extension path file := by
  constructor
  · rintro ⟨selectors, hselectors, hfinds⟩
    obtain rfl := Except.ok.inj ((Selector.all_plain h).symm.trans hselectors)
    cases hfinds with
    | @anyDepth steps _ lower _ _ hdescends hfinds =>
      cases hfinds with
      | @fitting _ _ _ _ entries entry hlisting hentry _ hfits hlast =>
        cases hlast with
        | here => exact ⟨steps, lower, entry, hdescends, ⟨entries, hlisting, hentry⟩, hfits, rfl⟩
  · rintro ⟨steps, lower, entry, hdescends, ⟨entries, hlisting, hentry⟩, hfits, rfl⟩
    exact ⟨_, Selector.all_plain h, .anyDepth hdescends
      (.fitting hlisting hentry (fun hno => by cases hno) hfits .here)⟩

/-- The last part of a pattern is looked for in one directory exactly if a walk gets past it. -/
theorem exists_select_fitting_iff {pattern : Wildcard} :
    (∃ found, disk.select [.fitting pattern] path = .ok found) ↔ disk.LetsPass path := by
  rw [← exists_entries_iff, select]
  constructor
  · rintro ⟨found, hfound⟩
    obtain ⟨candidates, hcandidates, -⟩ := bind_eq_ok.1 hfound
    obtain ⟨entries, hentries, -⟩ := bind_eq_ok.1 (mapError_eq_ok.1 hcandidates)
    exact ⟨entries, hentries⟩
  · rintro ⟨entries, hentries⟩
    have hlast : ∃ part, (((entries.filter (pattern.fits ·.name)).mapM fun entry =>
        disk.select [] (path.below [entry.name])) >>= fun found => pure found.flatten) = .ok part :=
      exists_flatten_iff.2 fun entry _ => ⟨_, rfl⟩
    obtain ⟨part, hpart⟩ := hlast
    exact ⟨part, bind_eq_ok.2 ⟨entries, mapError_eq_ok.2 (bind_eq_ok.2 ⟨entries, hentries, rfl⟩), hpart⟩⟩

/-- At any depth it is looked for exactly if a walk gets past all directories. -/
theorem exists_select_anyDepth_iff {pattern : Wildcard} :
    (∃ found, disk.select [.anyDepth, .fitting pattern] path = .ok found) ↔
      ∀ steps lower, disk.Descends steps path lower → steps < disk.room ∧ disk.LetsPass lower := by
  rw [← exists_directories_iff, select]
  constructor
  · rintro ⟨found, hfound⟩
    obtain ⟨directories, hdirectories, -⟩ := bind_eq_ok.1 hfound
    exact ⟨directories, hdirectories⟩
  · rintro ⟨directories, hdirectories⟩
    have hall : ∀ lower ∈ directories, ∃ part, disk.select [.fitting pattern] lower = .ok part := by
      intro lower hlower
      obtain ⟨steps, hdescends⟩ := (mem_directories hdirectories).1 hlower
      have hpass := exists_directories_iff.1 ⟨directories, hdirectories⟩ steps lower hdescends
      exact exists_select_fitting_iff.2 hpass.2
    obtain ⟨found, hfound⟩ := exists_flatten_iff.2 hall
    exact ⟨found, bind_eq_ok.2 ⟨directories, hdirectories, hfound⟩⟩

/-- With a plain extension a walk ends without a fault exactly if it gets past all directories and what it finds can be
looked at. -/
theorem exists_filesBelow_iff (h : IsPlainExtension extension) :
    (∃ files, disk.filesBelow path ("*.".toList ++ extension) = .ok files) ↔
      (∀ steps lower, disk.Descends steps path lower → steps < disk.room ∧ disk.LetsPass lower) ∧
        ∀ file, disk.Lists extension path file → ∀ fault, ¬ disk.Refuses file fault := by
  have hfiles : disk.filesBelow path ("*.".toList ++ extension) =
      disk.select [.anyDepth, .fitting (Wildcard.ofText ("*.".toList ++ extension))] path >>=
        passing fun file => (disk.isFile file).mapError SearchFault.system := by
    unfold filesBelow
    rw [Selector.all_plain h]
    rfl
  have hlists : ∀ {file}, disk.Finds [.anyDepth, .fitting (Wildcard.ofText ("*.".toList ++ extension))] path file ↔
      disk.Lists extension path file := by
    intro file
    rw [← findsBelow_plain_iff h, FindsBelow, Selector.all_plain h]
    simp
  rw [← @exists_select_anyDepth_iff _ _ (Wildcard.ofText ("*.".toList ++ extension)), hfiles]
  constructor
  · rintro ⟨files, hfiles⟩
    obtain ⟨found, hfound, hfiles⟩ := bind_eq_ok.1 hfiles
    refine ⟨⟨found, hfound⟩, fun file hm => ?_⟩
    obtain ⟨passes, hpasses⟩ :=
      exists_passing_iff.1 ⟨files, hfiles⟩ file ((mem_select hfound).2 (hlists.2 hm))
    exact exists_map_place?.1 ⟨passes, mapError_eq_ok.1 hpasses⟩
  · rintro ⟨⟨found, hfound⟩, hrefuses⟩
    have hall : ∀ file ∈ found, ∃ passes, (disk.isFile file).mapError SearchFault.system = .ok passes := by
      intro file hm
      obtain ⟨passes, hpasses⟩ := exists_map_place?.2 (hrefuses file (hlists.1 ((mem_select hfound).1 hm)))
      exact ⟨passes, mapError_eq_ok.2 hpasses⟩
    obtain ⟨files, hfiles⟩ := exists_passing_iff.2 hall
    exact ⟨files, bind_eq_ok.2 ⟨found, hfound, hfiles⟩⟩

end Disk

end Plain

end DocLint
