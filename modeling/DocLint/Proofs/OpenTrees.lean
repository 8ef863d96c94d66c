import DocLint.Files.Tree
import DocLint.Proofs.Walks

/-!
# Trees with open directories

In a tree whose directories may all be listed and entered, a walk misses no file: a file whose path leads down from a
directory is listed in its own directory, and each directory on the way in the one above (`FileTree.IsOpen.lists_iff`).
What carries this is that names which do not lead up are followed one after the other (`FileTree.follow_cons`), and that
a directory holds every name under which something is known (`FileTree.mem_children`).
-/

namespace DocLint

/-! ## Long paths -/

theorem Text.exists_join_append (mark : Text) (front back : List Text) :
    ∃ tail, join mark (front ++ back) = join mark front ++ tail := by
  cases front with
  | nil => exact ⟨_, rfl⟩
  | cons first rest =>
    refine ⟨back.flatMap (mark ++ ·), ?_⟩
    rw [List.cons_append, join_cons, join_cons, List.flatMap_append, List.append_assoc]

theorem Utf8.size_append (front back : Text) : size (front ++ back) = size front + size back := by
  unfold size
  induction front with
  | nil => exact (Nat.zero_add _).symm
  | cons c rest ih =>
    rw [List.cons_append, List.foldr_cons, List.foldr_cons, ih, Nat.add_assoc]

namespace FileTree

/-- What lies above a path that is not too long is not too long. -/
theorem isFar_below {path : Path} {front back : List Text} (h : isFar (path.below (front ++ back)) = false) :
    isFar (path.below front) = false := by
  obtain ⟨tail, htail⟩ := Text.exists_join_append ['/'] (path.names ++ front) back
  have hlonger : (path.below (front ++ back)).root ++ Text.join ['/'] (path.below (front ++ back)).names =
      path.root ++ Text.join ['/'] (path.names ++ front) ++ tail := by
    show path.root ++ Text.join ['/'] (path.names ++ (front ++ back)) = _
    rw [← List.append_assoc path.names, htail, List.append_assoc]
  unfold isFar Path.toText at h ⊢
  rw [hlonger] at h
  dsimp only at h ⊢
  by_cases hempty : path.root ++ Text.join ['/'] (path.names ++ front) = []
  · -- a single dot is not too long
    show decide (4096 ≤ Utf8.size (if (path.root ++ Text.join ['/'] (path.names ++ front)).isEmpty then _ else _)) = _
    rw [if_pos (by simpa using hempty)]
    rfl
  · show decide (4096 ≤ Utf8.size (if (path.root ++ Text.join ['/'] (path.names ++ front)).isEmpty then _ else _)) = _
    rw [if_neg (by simpa using hempty)]
    rw [if_neg fun hlong => hempty (List.append_eq_nil_iff.1 (List.isEmpty_iff.1 hlong)).1, Utf8.size_append] at h
    simp only [decide_eq_false_iff_not, not_le] at h ⊢
    exact (Nat.le_add_right _ _).trans_lt h

/-! ## Following names -/

variable {tree : FileTree} {base front back names target : List Text} {name : Text} {entry : Entry}
  {listable enterable : Bool} {path given file : Path}

/-- A name that does not lead up, and is not the directory itself. -/
def IsDown (name : Text) : Prop := Path.IsName name ∧ name ≠ "..".toList

/-- A name that can be followed leads to some other names, from which all that comes behind it is followed. -/
theorem exists_next (h : tree.follow base (name :: names) = .ok (target, entry)) :
    ∃ next, ∀ names, tree.follow base (name :: names) = tree.follow next names := by
  rw [follow] at h
  split at h
  · cases h
  · cases h
  · next listable enterable hbase =>
    have hstep : ∀ names, tree.follow base (name :: names) = if !enterable then .error .denied
        else if name = ".".toList then tree.follow base names
        else if name = "..".toList then tree.follow base.dropLast names
        else if isLong name then .error .longName
        else tree.follow (base ++ [name]) names := by
      intro names
      rw [follow, hbase]
    simp only [hstep]
    split at h
    · cases h
    · next henter =>
      simp only [if_neg henter]
      split at h
      · next hdot => exact ⟨base, fun names => if_pos hdot⟩
      · next hdot =>
        simp only [if_neg hdot]
        split at h
        · next hup => exact ⟨base.dropLast, fun names => if_pos hup⟩
        · next hup =>
          simp only [if_neg hup]
          split at h
          · cases h
          · next hlong => exact ⟨base ++ [name], fun names => if_neg hlong⟩

theorem follow_append (h : tree.follow base front = .ok (target, .directory listable enterable)) :
    tree.follow base (front ++ back) = tree.follow target back := by
  induction front generalizing base with
  | nil =>
    rw [follow] at h
    split at h
    · obtain ⟨rfl, -⟩ := Prod.mk.inj (Except.ok.inj h)
      rfl
    · cases h
  | cons name rest ih =>
    obtain ⟨next, hnext⟩ := exists_next h
    rw [hnext] at h
    rw [List.cons_append, hnext]
    exact ih h

theorem entry?_of_follow (h : tree.follow base names = .ok (target, entry)) : tree.entry? target = some entry := by
  induction names generalizing base with
  | nil =>
    rw [follow] at h
    split at h
    · next hentry =>
      obtain ⟨rfl, rfl⟩ := Prod.mk.inj (Except.ok.inj h)
      exact hentry
    · cases h
  | cons name rest ih =>
    obtain ⟨next, hnext⟩ := exists_next h
    rw [hnext] at h
    exact ih h

theorem entry?_of_find (h : tree.find path = .ok (target, entry)) : tree.entry? target = some entry := by
  unfold find at h
  split at h
  · cases h
  · split at h
    · exact entry?_of_follow h
    · exact entry?_of_follow h

/-- Names that do not lead up are followed from one directory to the next. -/
theorem follow_cons (hname : IsDown name) : tree.follow base (name :: names) = .ok (target, entry) ↔
    (∃ listable, tree.entry? base = some (.directory listable true)) ∧ isLong name = false ∧
      tree.follow (base ++ [name]) names = .ok (target, entry) := by
  have hdot : name ≠ ".".toList := hname.1.ne_dot
  rw [follow]
  split
  · next hentry => simp [hentry]
  · next hentry => simp [hentry]
  · next listable enterable hentry =>
    rw [if_neg hdot, if_neg hname.2]
    cases enterable with
    | false => simp [hentry]
    | true =>
      cases isLong name with
      | true => simp
      | false => simp [hentry]

/-- Where a path below a directory leads to. -/
theorem find_below (h : tree.find path = .ok (base, .directory listable enterable)) (hne : names ≠ [])
    (hfar : isFar (path.below names) = false) : tree.find (path.below names) = tree.follow base names := by
  unfold find at h ⊢
  rw [hfar, if_neg Bool.false_ne_true]
  split at h
  · cases h
  · by_cases hroot : path.root = []
    · have hnot : ¬ (!path.root.isEmpty) = true := by simp [hroot]
      rw [if_neg hnot] at h
      have hmore : ((path.below names).names).isEmpty = false := by simp [Path.below, hne]
      rw [if_neg (by simpa [Path.below] using hroot), hmore, if_neg Bool.false_ne_true]
      show tree.follow tree.home (path.names ++ names) = _
      by_cases hnames : path.names = []
      · -- the working directory itself, where the dot has to be entered
        rw [hnames, List.isEmpty_nil, if_pos rfl, follow] at h
        rw [hnames, List.nil_append]
        split at h
        · cases h
        · cases h
        · next hentry =>
          split at h
          · cases h
          · rw [if_pos rfl, follow, hentry] at h
            obtain ⟨rfl, -⟩ := Prod.mk.inj (Except.ok.inj h)
            rfl
      · rw [if_neg (by simpa using hnames)] at h
        exact follow_append h
    · have hyes : (!path.root.isEmpty) = true := by simpa using hroot
      rw [if_pos hyes] at h
      rw [if_pos (by simpa [Path.below] using hroot)]
      exact follow_append h

/-! ## What a directory holds -/

theorem mem_children (h : tree.entry? (base ++ [name]) = some entry) : name ∈ tree.children base := by
  -- the names are known themselves, or lie above something that is
  obtain ⟨known, hknown, hbelow⟩ : ∃ known ∈ tree.known, base ++ [name] <+: known := by
    unfold entry? at h
    split at h
    · next listed _ hfind =>
      have hm := List.mem_of_find?_eq_some hfind
      have heq : listed = base ++ [name] := by simpa using List.find?_some hfind
      exact ⟨listed, List.mem_cons_of_mem _ (List.mem_map.2 ⟨_, hm, rfl⟩), heq ▸ List.prefix_rfl⟩
    · split at h
      · next hany =>
        obtain ⟨known, hknown, hprefix⟩ := List.any_eq_true.1 hany
        exact ⟨known, hknown, List.isPrefixOf_iff_prefix.1 hprefix⟩
      · cases h
  obtain ⟨tail, rfl⟩ := hbelow
  refine List.mem_eraseDups.2 (List.mem_filterMap.2 ⟨_, hknown, ?_⟩)
  rw [if_pos (List.isPrefixOf_iff_prefix.2 ⟨[name] ++ tail, by rw [List.append_assoc]⟩), List.append_assoc,
    List.drop_left]
  rfl

/-- A directory that may be listed holds all that is there. -/
theorem exists_holds (hfind : tree.find path = .ok (base, .directory true enterable)) (hname : IsDown name)
    (h : tree.entry? (base ++ [name]) = some entry) :
    ∃ listed : Listed, tree.disk.Holds path listed ∧ listed.name = name ∧
      (entry.place = .directory → listed.kind = .directory) := by
  have hlisting : tree.listing path = .ok ((tree.children base).filterMap (tree.listed? base)) := by
    unfold listing
    rw [hfind]
    rfl
  have hlisted : ∃ listed, tree.listed? base name = some listed ∧ listed.name = name ∧
      (entry.place = .directory → listed.kind = .directory) := by
    unfold listed?
    rw [dif_pos (show Path.IsName name ∧ name ≠ "..".toList from hname), h]
    refine ⟨_, rfl, rfl, fun hplace => ?_⟩
    simp [hplace]
  obtain ⟨listed, hlisted, heq, hkind⟩ := hlisted
  exact ⟨listed, ⟨_, hlisting, List.mem_filterMap.2 ⟨name, mem_children h, hlisted⟩⟩, heq, hkind⟩

/-! ## Open directories -/

/-- All directories may be listed and entered. -/
def IsOpen (tree : FileTree) : Prop :=
  ∀ names listable enterable, tree.entry? names = some (.directory listable enterable) →
    listable = true ∧ enterable = true

theorem isOpen_of_entries (h : ∀ entry ∈ tree.entries, ∀ listable enterable, entry.2 = .directory listable enterable →
    listable = true ∧ enterable = true) : tree.IsOpen := by
  intro names listable enterable hentry
  unfold entry? at hentry
  split at hentry
  · next found entry hfind =>
    obtain rfl := Option.some.inj hentry
    exact h (found, _) (List.mem_of_find?_eq_some hfind) listable enterable rfl
  · split at hentry
    · cases hentry
      exact ⟨rfl, rfl⟩
    · cases hentry

/-- Below a directory of an open tree, a walk comes to all that is there: to the directory that a path leads to, and
there to its last name. -/
theorem IsOpen.exists_descends (hopen : tree.IsOpen) (hdown : ∀ part ∈ front ++ [name], IsDown part)
    (hfar : isFar (path.below (front ++ [name])) = false)
    (hfind : tree.find path = .ok (base, .directory listable enterable))
    (hfollow : tree.follow base (front ++ [name]) = .ok (target, entry)) :
    ∃ steps listed, tree.disk.Descends steps path (path.below front) ∧
      tree.disk.Holds (path.below front) listed ∧ listed.name = name := by
  induction front generalizing path base listable enterable with
  | nil =>
    obtain ⟨-, -, hlast⟩ := (follow_cons (hdown name List.mem_cons_self)).1 hfollow
    obtain ⟨rfl, -⟩ := hopen _ _ _ (entry?_of_find hfind)
    have hentry : tree.entry? (base ++ [name]) = some entry := by
      rw [follow] at hlast
      split at hlast
      · next hentry =>
        obtain ⟨-, rfl⟩ := Prod.mk.inj (Except.ok.inj hlast)
        exact hentry
      · cases hlast
    obtain ⟨listed, hholds, hname, -⟩ := exists_holds hfind (hdown name List.mem_cons_self) hentry
    rw [Path.below_nil]
    exact ⟨0, listed, .here, hholds, hname⟩
  | cons first rest ih =>
    rw [List.cons_append] at hdown hfollow
    obtain ⟨hfirst, hrest⟩ := List.forall_mem_cons.1 hdown
    obtain ⟨hbase, hlong, hnext⟩ := (follow_cons hfirst).1 hfollow
    obtain ⟨rfl, -⟩ := hopen _ _ _ (entry?_of_find hfind)
    -- more names follow, so the first one is a directory
    obtain ⟨l, hlower⟩ : ∃ l, tree.entry? (base ++ [first]) = some (.directory l true) := by
      obtain ⟨second, others, hmore⟩ := List.exists_cons_of_ne_nil (List.append_ne_nil_of_right_ne_nil rest
        (List.cons_ne_nil name []))
      rw [hmore] at hnext hrest
      exact ((follow_cons (hrest second List.mem_cons_self)).1 hnext).1
    obtain ⟨listed, hholds, hname, hkind⟩ := exists_holds hfind hfirst hlower
    have hnear : isFar (path.below [first]) = false := @isFar_below path [first] (rest ++ [name]) hfar
    have hfound : tree.find (path.below [first]) = .ok (base ++ [first], .directory l true) := by
      rw [find_below hfind (List.cons_ne_nil _ _) hnear]
      refine (follow_cons hfirst).2 ⟨hbase, hlong, ?_⟩
      rw [follow, hlower]
    rw [← List.singleton_append, List.append_assoc, ← Path.below_below] at hfar
    obtain ⟨steps, last, hdescends, hlast, heq⟩ := ih hrest hfar hfound hnext
    rw [Path.below_below, List.singleton_append] at hdescends hlast
    exact ⟨steps + 1, last, .down hholds (hkind rfl) (hname ▸ hdescends), hlast, heq⟩

/-- In an open tree a file is met exactly if its path leads down from the directory and its name has the extension. -/
theorem IsOpen.lists_iff (hopen : tree.IsOpen) {extension : Text} (hgiven : tree.disk.Has given .directory)
    (hfile : tree.disk.Has file .file) : tree.disk.Lists extension given file ↔ ∃ up name,
      file = given.below (up ++ [name]) ∧ (∀ part ∈ up ++ [name], Path.IsName part ∧ part ≠ "..".toList) ∧
        (Wildcard.ofText ("*.".toList ++ extension)).fits name = true := by
  constructor
  · rintro ⟨steps, lower, entry, hdescends, -, hfits, rfl⟩
    obtain ⟨up, rfl, hup⟩ := hdescends.exists_names
    refine ⟨up, entry.name, Path.below_below .., fun part hm => ?_, hfits⟩
    rcases List.mem_append.1 hm with hm | hm
    · exact hup part hm
    · obtain rfl := List.mem_singleton.1 hm
      exact ⟨entry.isName, entry.notUp⟩
  · rintro ⟨up, name, rfl, hdown, hfits⟩
    obtain ⟨⟨base, entry⟩, hfind, hplace⟩ := map_eq_ok.1 hgiven.2
    obtain ⟨⟨target, found⟩, hfound, -⟩ := map_eq_ok.1 hfile.2
    cases entry with
    | file bytes readable => cases hplace
    | directory listable enterable =>
      have hfar : isFar (given.below (up ++ [name])) = false := by
        unfold find at hfound
        split at hfound
        · cases hfound
        · next hfar => exact Bool.eq_false_iff.2 hfar
      rw [find_below hfind (List.append_ne_nil_of_right_ne_nil _ (List.cons_ne_nil _ _)) hfar] at hfound
      obtain ⟨steps, listed, hdescends, hholds, rfl⟩ := hopen.exists_descends hdown hfar hfind hfound
      exact ⟨steps, _, listed, hdescends, hholds, hfits, (Path.below_below ..).symm⟩

end FileTree

end DocLint
