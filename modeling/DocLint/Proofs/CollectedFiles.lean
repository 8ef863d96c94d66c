import DocLint.Proofs.OpenTrees
import DocLint.Proofs.PathOrder
import DocLint.Files.Collection

/-!
# Collected files

What a search collects is known from what each given path stands for: itself if it is no directory, or else the
files that a walk finds below it with one of the extensions (`Disk.StandsFor`). The collected paths are those that are
not left out (`Search.mem_collect`), each before the next ones (`Search.collect_increasing`). A list like that is known
by its members, so it does not matter in which order and how often paths, extensions and patterns are given
(`Search.collect_congr`).
-/

namespace DocLint

namespace Disk

/-- The path can be looked at, and its files can be looked for if it is a directory. -/
def CanWalk (disk : Disk) (extensions : List Text) (path : Path) : Prop :=
  (∀ fault, ¬ disk.Refuses path fault) ∧ (disk.Has path .directory → ∀ extension ∈ extensions,
    ∃ files, disk.filesBelow path ("*.".toList ++ extension) = .ok files)

/-- The given path stands for the file: it is no directory and the file itself, or a directory below which the file is
found with one of the extensions. -/
def StandsFor (disk : Disk) (extensions : List Text) (given file : Path) : Prop :=
  (¬ disk.Has given .directory ∧ file = given) ∨
    (disk.Has given .directory ∧ disk.Has file .file ∧
      ∃ extension ∈ extensions, disk.FindsBelow ("*.".toList ++ extension) given file)

theorem StandsFor.proper {disk : Disk} {extensions : List Text} {given file : Path}
    (h : disk.StandsFor extensions given file) (hgiven : given.Proper) : file.Proper := by
  rcases h with ⟨-, rfl⟩ | ⟨-, -, extension, -, hfinds⟩
  · exact hgiven
  · obtain ⟨names, rfl, hnames⟩ := hfinds.exists_names
    exact hgiven.below hnames

end Disk

theorem Path.nodup_eraseDups (paths : List Path) : paths.eraseDups.Nodup := by
  -- what is left behind the first path is shorter, but no tail of the list
  induction hlength : paths.length using Nat.strong_induction_on generalizing paths with
  | _ length ih =>
    cases paths with
    | nil => exact List.nodup_nil
    | cons path rest =>
      rw [List.eraseDups_cons, List.nodup_cons]
      constructor
      · intro hm
        have hother := (List.mem_filter.1 (List.mem_eraseDups.1 hm)).2
        simp at hother
      · refine ih _ ?_ _ rfl
        rw [← hlength]
        exact Nat.lt_succ_of_le (List.length_filter_le _ _)

namespace Search

variable {search other : Search} {disk : Disk} {patterns : List Text} {given file : Path}

/-! ## Exclusion -/

theorem excludes_map (patterns : List Text) (path : Path) :
    excludes (patterns.map some) path = .ok (path.isExcluded patterns) := by
  induction patterns with
  | nil => rfl
  | cons pattern rest ih =>
    have hcons : path.isExcluded (pattern :: rest) = (path.isExcluded [pattern] || path.isExcluded rest) := by
      unfold Path.isExcluded
      rw [List.any_cons, List.any_cons, List.any_nil, Bool.or_false]
    rw [List.map_cons, excludes, hcons]
    split
    · next h => rw [h, Bool.true_or]
    · next h => rw [ih, Bool.eq_false_iff.2 h, Bool.false_or]

theorem excludes_eq_false (h : search.exclude = patterns.map some) :
    excludes search.exclude file = .ok false ↔ file.isExcluded patterns = false := by
  rw [h, excludes_map, Except.ok.injEq]

theorem mem_keep {paths kept : List Path} (h : search.keep paths = .ok kept) :
    file ∈ kept ↔ file ∈ paths ∧ excludes search.exclude file = .ok false := by
  rw [mem_passing h, map_eq_ok]
  simp

theorem exists_keep (h : search.exclude = patterns.map some) (paths : List Path) :
    ∃ kept, search.keep paths = .ok kept := by
  refine exists_passing_iff.2 fun path _ => ⟨!path.isExcluded patterns, ?_⟩
  rw [h, excludes_map]
  rfl

/-! ## One given path -/

theorem expand_directory (h : disk.Has given .directory) :
    search.expand disk given = (search.extensions.mapM fun extension =>
      disk.filesBelow given ("*.".toList ++ extension) >>= search.keep) >>= fun found => pure found.flatten := by
  unfold expand
  rw [Disk.isDirectory_eq_true.2 h]
  rfl

theorem expand_other (hdirectory : ¬ disk.Has given .directory) (hanswers : ∀ fault, ¬ disk.Refuses given fault) :
    search.expand disk given = search.keep [given] := by
  unfold expand
  cases h : disk.isDirectory given with
  | error fault => exact absurd (Disk.isDirectory_eq_error.1 h) (hanswers fault)
  | ok answer =>
    cases answer with
    | true => exact absurd (Disk.isDirectory_eq_true.1 h) hdirectory
    | false => rfl

theorem expand_refused {fault : SystemFault} (h : disk.Refuses given fault) :
    search.expand disk given = .error (.system fault) := by
  unfold expand
  rw [Disk.isDirectory_eq_error.2 h]
  rfl

theorem not_refuses_of_expand {found : List Path} (h : search.expand disk given = .ok found) (fault : SystemFault) :
    ¬ disk.Refuses given fault := by
  intro hrefuses
  rw [expand_refused hrefuses] at h
  cases h

theorem exists_expand_iff (h : search.exclude = patterns.map some) :
    (∃ found, search.expand disk given = .ok found) ↔ disk.CanWalk search.extensions given := by
  by_cases hdirectory : disk.Has given .directory
  · have hkept : ∀ extension, (∃ part, (disk.filesBelow given ("*.".toList ++ extension) >>= search.keep) =
        .ok part) ↔ ∃ files, disk.filesBelow given ("*.".toList ++ extension) = .ok files := by
      intro extension
      constructor
      · rintro ⟨part, hpart⟩
        obtain ⟨files, hfiles, -⟩ := bind_eq_ok.1 hpart
        exact ⟨files, hfiles⟩
      · rintro ⟨files, hfiles⟩
        obtain ⟨kept, hkept⟩ := exists_keep h files
        exact ⟨kept, bind_eq_ok.2 ⟨files, hfiles, hkept⟩⟩
    constructor
    · rintro ⟨found, hfound⟩
      refine ⟨not_refuses_of_expand hfound, fun _ extension hm => ?_⟩
      rw [expand_directory hdirectory] at hfound
      exact (hkept extension).1 (exists_flatten_iff.1 ⟨found, hfound⟩ extension hm)
    · intro hwalk
      rw [expand_directory hdirectory]
      exact exists_flatten_iff.2 fun extension hm => (hkept extension).2 (hwalk.2 hdirectory extension hm)
  · constructor
    · rintro ⟨found, hfound⟩
      exact ⟨not_refuses_of_expand hfound, fun hno => absurd hno hdirectory⟩
    · intro hwalk
      rw [expand_other hdirectory hwalk.1]
      exact exists_keep h [given]

theorem mem_expand {found : List Path} (h : search.expand disk given = .ok found) :
    file ∈ found ↔ excludes search.exclude file = .ok false ∧ disk.StandsFor search.extensions given file := by
  by_cases hdirectory : disk.Has given .directory
  · have hpart : ∀ extension part,
        (disk.filesBelow given ("*.".toList ++ extension) >>= search.keep) = .ok part → ∀ file, file ∈ part ↔
          (disk.Has file .file ∧ disk.FindsBelow ("*.".toList ++ extension) given file) ∧
            excludes search.exclude file = .ok false := by
      intro extension part hpart file
      obtain ⟨files, hfiles, hkeep⟩ := bind_eq_ok.1 hpart
      rw [mem_keep hkeep, Disk.mem_filesBelow hfiles]
    rw [expand_directory hdirectory] at h
    rw [mem_flatten_iff h hpart]
    constructor
    · rintro ⟨extension, hextension, ⟨hfile, hfinds⟩, hkept⟩
      exact ⟨hkept, Or.inr ⟨hdirectory, hfile, extension, hextension, hfinds⟩⟩
    · rintro ⟨hkept, ⟨hno, -⟩ | ⟨-, hfile, extension, hextension, hfinds⟩⟩
      · exact absurd hdirectory hno
      · exact ⟨extension, hextension, ⟨hfile, hfinds⟩, hkept⟩
  · rw [expand_other hdirectory (not_refuses_of_expand h)] at h
    rw [mem_keep h, List.mem_singleton]
    constructor
    · rintro ⟨rfl, hkept⟩
      exact ⟨hkept, Or.inl ⟨hdirectory, rfl⟩⟩
    · rintro ⟨hkept, ⟨-, rfl⟩ | ⟨hno, -⟩⟩
      · exact ⟨rfl, hkept⟩
      · exact absurd hno hdirectory

/-! ## All given paths -/

theorem exists_collect_iff (h : search.exclude = patterns.map some) :
    (∃ paths, search.collect disk = .ok paths) ↔ ∀ given ∈ search.paths, disk.CanWalk search.extensions given := by
  have hall : (∃ found, search.paths.mapM (search.expand disk) = .ok found) ↔
      ∀ given ∈ search.paths, disk.CanWalk search.extensions given := by
    rw [exists_mapM_iff]
    exact forall₂_congr fun given _ => exists_expand_iff h
  rw [← hall]
  unfold collect
  constructor
  · rintro ⟨paths, hpaths⟩
    obtain ⟨found, hfound, -⟩ := bind_eq_ok.1 hpaths
    exact ⟨found, hfound⟩
  · rintro ⟨found, hfound⟩
    exact ⟨_, bind_eq_ok.2 ⟨found, hfound, rfl⟩⟩

section Collected

variable {paths : List Path} (h : search.collect disk = .ok paths)
include h

theorem mem_collect : file ∈ paths ↔ excludes search.exclude file = .ok false ∧
    ∃ given ∈ search.paths, disk.StandsFor search.extensions given file := by
  unfold collect at h
  obtain ⟨found, hfound, h⟩ := bind_eq_ok.1 h
  obtain rfl := Except.ok.inj h
  have hflatten : (search.paths.mapM (search.expand disk) >>= fun found => pure found.flatten) = .ok found.flatten :=
    bind_eq_ok.2 ⟨found, hfound, rfl⟩
  rw [List.mem_mergeSort, List.mem_eraseDups, mem_flatten_iff hflatten fun given part hpart file => mem_expand hpart]
  constructor
  · rintro ⟨given, hgiven, hkept, hstands⟩
    exact ⟨hkept, given, hgiven, hstands⟩
  · rintro ⟨hkept, given, hgiven, hstands⟩
    exact ⟨given, hgiven, hkept, hstands⟩

theorem collect_proper (hproper : ∀ given ∈ search.paths, given.Proper) : ∀ file ∈ paths, file.Proper := by
  intro file hm
  obtain ⟨-, given, hgiven, hstands⟩ := (mem_collect h).1 hm
  exact hstands.proper (hproper given hgiven)

theorem collect_nodup : paths.Nodup := by
  unfold collect at h
  obtain ⟨found, -, h⟩ := bind_eq_ok.1 h
  obtain rfl := Except.ok.inj h
  exact (List.mergeSort_perm _ _).nodup_iff.2 (Path.nodup_eraseDups _)

theorem collect_increasing (hproper : ∀ given ∈ search.paths, given.Proper) : paths.Pairwise Path.Before := by
  have hall := collect_proper h hproper
  unfold collect at h
  obtain ⟨found, -, h⟩ := bind_eq_ok.1 h
  obtain rfl := Except.ok.inj h
  exact Path.pairwise_before_mergeSort (fun file hm => hall file (List.mem_mergeSort.2 hm)) (Path.nodup_eraseDups _)

/-- Searches that stand for the same files collect the same list. -/
theorem collect_congr {others : List Text} (hothers : other.exclude = others.map some)
    (hproper : ∀ given ∈ search.paths, given.Proper) (hproper' : ∀ given ∈ other.paths, given.Proper)
    (hwalk : ∀ given ∈ other.paths, disk.CanWalk other.extensions given)
    (hfiles : ∀ file, (excludes other.exclude file = .ok false ∧ ∃ given ∈ other.paths,
        disk.StandsFor other.extensions given file) ↔
      excludes search.exclude file = .ok false ∧ ∃ given ∈ search.paths,
        disk.StandsFor search.extensions given file) : other.collect disk = .ok paths := by
  obtain ⟨paths', h'⟩ := (exists_collect_iff hothers).2 hwalk
  rw [h']
  refine congrArg Except.ok (Path.eq_of_increasing (collect_increasing h' hproper') (collect_increasing h hproper)
    fun file => ?_)
  rw [mem_collect h', mem_collect h]
  exact hfiles file

/-- A path that is collected, given as well, stands for itself. -/
theorem collect_again (hpatterns : search.exclude = patterns.map some)
    (hproper : ∀ given ∈ search.paths, given.Proper) (hfile : file ∈ paths) :
    { search with paths := file :: search.paths }.collect disk = .ok paths := by
  have hall := (exists_collect_iff hpatterns).1 ⟨paths, h⟩
  obtain ⟨hkept, given, hgiven, hstands⟩ := (mem_collect h).1 hfile
  -- what is collected is no directory, so it stands for itself only
  have hself : ¬ disk.Has file .directory ∧ ∀ fault, ¬ disk.Refuses file fault := by
    rcases hstands with ⟨hdirectory, rfl⟩ | ⟨-, hisFile, -⟩
    · exact ⟨hdirectory, (hall _ hgiven).1⟩
    · constructor
      · intro hdirectory
        cases hisFile.2.symm.trans hdirectory.2
      · rintro fault ⟨-, hfault, -⟩
        cases hisFile.2.symm.trans hfault
  have hmore : { search with paths := file :: search.paths }.exclude = patterns.map some := hpatterns
  refine collect_congr h hmore hproper ?_ ?_ ?_
  · exact List.forall_mem_cons.2 ⟨collect_proper h hproper file hfile, hproper⟩
  · exact List.forall_mem_cons.2 ⟨⟨hself.2, fun hdirectory => absurd hdirectory hself.1⟩, hall⟩
  · intro other
    refine and_congr_right fun _ => ?_
    constructor
    · rintro ⟨one, hone, hstands'⟩
      rcases List.mem_cons.1 hone with rfl | hone
      · rcases hstands' with ⟨-, rfl⟩ | ⟨hdirectory, -⟩
        · exact ⟨given, hgiven, hstands⟩
        · exact absurd hdirectory hself.1
      · exact ⟨one, hone, hstands'⟩
    · rintro ⟨one, hone, hstands'⟩
      exact ⟨one, List.mem_cons_of_mem _ hone, hstands'⟩

end Collected

end Search

theorem Path.isExcluded_congr {patterns others : List Text} (h : ∀ pattern, pattern ∈ others ↔ pattern ∈ patterns)
    (path : Path) : path.isExcluded others = path.isExcluded patterns := by
  unfold isExcluded
  rw [Bool.eq_iff_iff, List.any_eq_true, List.any_eq_true]
  exact exists_congr fun pattern => and_congr_left' (h pattern)

theorem Path.map_ofText_proper (texts : List Text) : ∀ given ∈ texts.map ofText, given.Proper := by
  intro given hm
  obtain ⟨text, -, rfl⟩ := List.mem_map.1 hm
  exact ofText_proper text

/-- A search collects, in order, the files that the given paths stand for, and it does so if all of them can be walked.
With an extension that is one of the last name, these are the files with such a name in the directories that can be
listed; in a tree that is open these are all below the given directory. -/
theorem collected_files_exact (disk : Disk) (texts extensions patterns : List Text) :
    ((∃ paths, Search.collect ⟨texts.map Path.ofText, extensions, patterns.map some⟩ disk = .ok paths) ↔
      ∀ text ∈ texts, disk.CanWalk extensions (Path.ofText text)) ∧
    (∀ given extension, IsPlainExtension extension →
      ((∃ files, disk.filesBelow given ("*.".toList ++ extension) = .ok files) ↔
        (∀ steps lower, disk.Descends steps given lower → steps < disk.room ∧ disk.LetsPass lower) ∧
          ∀ file, disk.Lists extension given file → ∀ fault, ¬ disk.Refuses file fault) ∧
      ∀ file, disk.FindsBelow ("*.".toList ++ extension) given file ↔ disk.Lists extension given file) ∧
    (∀ tree : FileTree, disk = tree.disk → tree.IsOpen → ∀ given file extension, disk.Has given .directory →
      disk.Has file .file → (disk.Lists extension given file ↔ ∃ up name, file = given.below (up ++ [name]) ∧
        (∀ part ∈ up ++ [name], Path.IsName part ∧ part ≠ "..".toList) ∧
        (Wildcard.ofText ("*.".toList ++ extension)).fits name = true)) ∧
    ∀ paths, Search.collect ⟨texts.map Path.ofText, extensions, patterns.map some⟩ disk = .ok paths →
      paths.Pairwise Path.Before ∧
      (∀ path, path ∈ paths ↔ path.isExcluded patterns = false ∧
        ∃ text ∈ texts, disk.StandsFor extensions (Path.ofText text) path) ∧
      (∀ texts' extensions' patterns' : List Text, (∀ text, text ∈ texts' ↔ text ∈ texts) →
        (∀ extension, extension ∈ extensions' ↔ extension ∈ extensions) →
        (∀ pattern, pattern ∈ patterns' ↔ pattern ∈ patterns) →
        Search.collect ⟨texts'.map Path.ofText, extensions', patterns'.map some⟩ disk = .ok paths) ∧
      ∀ path ∈ paths,
        Search.collect ⟨path :: texts.map Path.ofText, extensions, patterns.map some⟩ disk = .ok paths := by
  have hwalks : (∃ paths, Search.collect ⟨texts.map Path.ofText, extensions, patterns.map some⟩ disk = .ok paths) ↔
      ∀ text ∈ texts, disk.CanWalk extensions (Path.ofText text) :=
    (Search.exists_collect_iff rfl).trans List.forall_mem_map
  refine ⟨hwalks, fun given extension hplain => ⟨Disk.exists_filesBelow_iff hplain,
    fun file => Disk.findsBelow_plain_iff hplain⟩, ?_, fun paths hpaths => ⟨?_, fun path => ?_, ?_, ?_⟩⟩
  · rintro tree rfl hopen given file extension hgiven hfile
    exact hopen.lists_iff hgiven hfile
  · exact Search.collect_increasing hpaths (Path.map_ofText_proper texts)
  · rw [Search.mem_collect hpaths, Search.excludes_eq_false rfl]
    simp only [List.mem_map, exists_exists_and_eq_and]
  · intro texts' extensions' patterns' htexts hextensions hpatterns
    have hgiven : ∀ given, given ∈ texts'.map Path.ofText ↔ given ∈ texts.map Path.ofText := by
      intro given
      rw [List.mem_map, List.mem_map]
      exact exists_congr fun text => and_congr_left' (htexts text)
    refine Search.collect_congr hpaths rfl (Path.map_ofText_proper texts) (Path.map_ofText_proper texts') ?_ ?_
    · intro given hm
      have hwalk := (Search.exists_collect_iff rfl).1 ⟨paths, hpaths⟩ given ((hgiven given).1 hm)
      exact ⟨hwalk.1, fun hdirectory extension hm => hwalk.2 hdirectory extension ((hextensions extension).1 hm)⟩
    · intro file
      simp only [Disk.StandsFor, hgiven, hextensions, Search.excludes_map, Path.isExcluded_congr hpatterns]
  · intro path hm
    have hagain := Search.collect_again hpaths rfl (Path.map_ofText_proper texts) hm
    exact hagain

/-- Files in a directory, and in one below it. -/
def nestedTree : FileTree where
  entries := [(["a.php".toList], .file []), (["d".toList, "b.php".toList], .file []),
    (["d".toList, "x.d".toList, "b.php".toList], .file [])]

/-- A working directory with files, and with a directory below that may not be listed. -/
def shutTree : FileTree where
  entries := [(["w".toList, "a.php".toList], .file []), (["w".toList, "d".toList, "b.php".toList], .file []),
    (["w".toList, "d".toList, "x".toList, "c.php".toList], .file []),
    (["w".toList, "d".toList, "x".toList], .directory false)]
  home := ["w".toList]

theorem shutTree_collect :
    Search.collect ⟨["/w/d".toList, ".".toList].map Path.ofText, ["php".toList], ["a*".toList].map some⟩ shutTree.disk =
      .ok [⟨"/".toList, ["w".toList, "d".toList, "b.php".toList]⟩, ⟨[], ["d".toList, "b.php".toList]⟩] := by
  have heval : (["/w/d".toList, ".".toList].map Path.ofText |>.mapM (Search.expand
      ⟨["/w/d".toList, ".".toList].map Path.ofText, ["php".toList], ["a*".toList].map some⟩ shutTree.disk)).toOption.any
        (·.flatten.eraseDups == [⟨"/".toList, ["w".toList, "d".toList, "b.php".toList]⟩,
          ⟨[], ["d".toList, "b.php".toList]⟩]) = true := by
    decide +kernel
  obtain ⟨found, hfound, hpaths⟩ := exists_eq_ok_of_any heval
  unfold Search.collect
  rw [hfound]
  show Except.ok (found.flatten.eraseDups.mergeSort Path.le) = _
  rw [eq_of_beq hpaths, List.mergeSort_of_pairwise (by decide)]

/-- A directory that is given from the root on and lies in the working directory, which is given too; a file that is left
out, one in a directory that may not be listed, and one that is found in an open tree. -/
theorem collected_files_exact_nested :
    ∃ paths, Search.collect ⟨["/w/d".toList, ".".toList].map Path.ofText, ["php".toList], ["a*".toList].map some⟩
        shutTree.disk = .ok paths ∧
      paths.Pairwise Path.Before ∧ ⟨[], ["d".toList, "b.php".toList]⟩ ∈ paths ∧
      ⟨"/".toList, ["w".toList, "d".toList, "b.php".toList]⟩ ∈ paths ∧
      ⟨[], ["a.php".toList]⟩ ∉ paths ∧ ⟨[], ["d".toList, "x".toList, "c.php".toList]⟩ ∉ paths ∧
      Search.collect ⟨[".".toList, "/w/d".toList, ".".toList].map Path.ofText, ["php".toList, "php".toList],
        ["a*".toList, "a*".toList].map some⟩ shutTree.disk = .ok paths ∧
      Search.collect ⟨⟨[], ["d".toList, "b.php".toList]⟩ :: ["/w/d".toList, ".".toList].map Path.ofText,
        ["php".toList], ["a*".toList].map some⟩ shutTree.disk = .ok paths ∧
      nestedTree.disk.StandsFor ["php".toList] (Path.ofText "d".toList)
        ⟨[], ["d".toList, "x.d".toList, "b.php".toList]⟩ := by
  have hplain : IsPlainExtension "php".toList := by
    unfold IsPlainExtension
    decide
  obtain ⟨-, -, -, hall⟩ :=
    collected_files_exact shutTree.disk ["/w/d".toList, ".".toList] ["php".toList] ["a*".toList]
  obtain ⟨hincreasing, hmem, hsame, hagain⟩ := hall _ shutTree_collect
  refine ⟨_, shutTree_collect, hincreasing, by decide, by decide, ?_, by decide, ?_, hagain _ (by decide), ?_⟩
  · intro hm
    exact absurd ((hmem _).1 hm).1 (by decide +kernel)
  · refine hsame _ _ _ (fun text => ?_) (fun extension => ?_) fun pattern => ?_
    · simp only [List.mem_cons, List.not_mem_nil, or_false]
      exact ⟨fun h => h.elim Or.inr id, fun h => h.elim (Or.inr ∘ Or.inl) Or.inl⟩
    · simp
    · simp
  · obtain ⟨-, hwalks, hopen, -⟩ := collected_files_exact nestedTree.disk [] [] []
    have hgiven : nestedTree.disk.Has (Path.ofText "d".toList) .directory := by
      unfold Disk.Has
      decide +kernel
    have hfile : nestedTree.disk.Has ⟨[], ["d".toList, "x.d".toList, "b.php".toList]⟩ .file := by
      unfold Disk.Has
      decide +kernel
    have htree : nestedTree.IsOpen := by
      apply FileTree.isOpen_of_entries
      unfold nestedTree
      simp
    refine Or.inr ⟨hgiven, hfile, "php".toList, by decide, ?_⟩
    refine ((hwalks (Path.ofText "d".toList) _ hplain).2 _).2 ((hopen _ rfl htree _ _ _ hgiven hfile).2 ?_)
    exact ⟨["x.d".toList], "b.php".toList, rfl, by decide, by decide +kernel⟩

/-- Two stars in an extension stop the search, and one with a slash is not an extension of the last name. -/
theorem collected_by_last_names :
    Search.collect ⟨[Path.ofText ".".toList], ["p**".toList], []⟩ nestedTree.disk = .error .embeddedStars ∧
      Search.collect ⟨[Path.ofText ".".toList], ["d/*".toList], []⟩ nestedTree.disk =
        .ok [⟨[], ["d".toList, "x.d".toList, "b.php".toList]⟩] ∧
      (Wildcard.ofText "*.d/*".toList).fits "b.php".toList = false := by
  refine ⟨rfl, ?_, by decide +kernel⟩
  have heval : ([Path.ofText ".".toList].mapM
      (Search.expand ⟨[Path.ofText ".".toList], ["d/*".toList], []⟩ nestedTree.disk)).toOption.map (·.flatten.eraseDups) =
        some [⟨[], ["d".toList, "x.d".toList, "b.php".toList]⟩] := by
    decide +kernel
  -- the sort does not reduce, but one path needs none
  unfold Search.collect
  dsimp only
  cases hfound : [Path.ofText ".".toList].mapM
      (Search.expand ⟨[Path.ofText ".".toList], ["d/*".toList], []⟩ nestedTree.disk) with
  | error fault =>
    rw [hfound] at heval
    cases heval
  | ok found =>
    rw [hfound] at heval
    have hpaths : found.flatten.eraseDups = [⟨[], ["d".toList, "x.d".toList, "b.php".toList]⟩] := Option.some.inj heval
    show Except.ok (found.flatten.eraseDups.mergeSort Path.le) = _
    rw [hpaths, List.mergeSort_singleton]

end DocLint
