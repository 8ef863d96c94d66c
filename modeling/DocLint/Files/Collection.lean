import DocLint.Files.Walk

/-!
# Collected files

The files that a list of paths stands for. A directory stands for the files below it that have one of the
extensions; any other path stands for itself, whether there is such a file or not. A path that fits an
exclusion pattern is left out either way. The result is in path order and holds no path twice.
-/

namespace DocLint

/-- What to look for. -/
structure Search where
  /-- Files and directories. -/
  paths : List Path
  /-- The extensions of files in directories. -/
  extensions : List Text
  /-- The patterns of paths to leave out; `none` for each one that was dropped. -/
  exclude : List (Option Text)

namespace Search

/-- Is the path left out? The patterns are tried in order, so one that was dropped does no harm to a path
that an earlier one fits. -/
def excludes : (exclude : List (Option Text)) → Path → Except SearchFault Bool
  | [], _ => .ok false
  | none :: _, _ => .error .lostPattern
  | some pattern :: rest, path =>
    if path.isExcluded [pattern] then .ok true else excludes rest path

/-- The paths that are not left out. -/
def keep (search : Search) (paths : List Path) : Except SearchFault (List Path) :=
  passing (fun path => (excludes search.exclude path).map (!·)) paths

/-- The files that one given path stands for. -/
def expand (search : Search) (disk : Disk) (path : Path) : Except SearchFault (List Path) := do
  if ← (disk.isDirectory path).mapError .system then
    let found ← search.extensions.mapM fun extension => do
      search.keep (← disk.filesBelow path ("*.".toList ++ extension))
    return found.flatten
  else search.keep [path]

/-- The files to scan. -/
def collect (search : Search) (disk : Disk) : Except SearchFault (List Path) := do
  let found ← search.paths.mapM (search.expand disk)
  return found.flatten.eraseDups.mergeSort Path.le

end Search

end DocLint
