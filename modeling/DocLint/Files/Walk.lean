import DocLint.Files.Disk

/-!
# Walks

A directory is walked with a pattern: a path below it is found if its last names fit the parts of the
pattern, at any depth. Links are not followed on the way down, but a part of a pattern may name one. A
directory that may not be listed holds nothing; any other fault ends the walk.
-/

namespace DocLint

/-- Why files cannot be looked for. -/
inductive SearchFault where
  /-- Two stars in a pattern are not a part of their own. -/
  | embeddedStars
  /-- The system does not answer. -/
  | system (fault : SystemFault)
  /-- Directories within one another go too deep. -/
  | tooDeep
  /-- A path would have to be compared with a pattern that was dropped. -/
  | lostPattern
  deriving DecidableEq

/-- One part of a pattern. -/
inductive Selector where
  /-- Any number of directories. -/
  | anyDepth
  /-- Exactly this name. -/
  | named (name : Text)
  /-- Every name that fits. -/
  | fitting (pattern : Wildcard)
  /-- The end of a pattern with a slash there, which only a directory has. -/
  | slash
  deriving DecidableEq

namespace Selector

/-- Reads one part of a pattern. -/
def ofText (part : Text) : Except SearchFault Selector :=
  if part = "**".toList then .ok anyDepth
  else if Text.hasInfix "**".toList part then .error .embeddedStars
  else if part.any fun c => c == '*' || c == '?' || c == '[' then
    .ok (fitting (Wildcard.ofText part))
  else .ok (named part)

/-- Reads the parts of a pattern. -/
def all (pattern : Text) : Except SearchFault (List Selector) := do
  let selectors ← (Path.ofText pattern).names.mapM ofText
  return if pattern.getLast? = some '/' then selectors ++ [slash] else selectors

end Selector

/-- The items that pass a test, if all of them can be tested. -/
def passing {ε α : Type} (test : α → Except ε Bool) : List α → Except ε (List α)
  | [] => .ok []
  | item :: rest => do
    let passes ← test item
    let others ← passing test rest
    return if passes then item :: others else others

namespace Disk

/-- What a directory holds; nothing if it may not be listed. -/
def entries (disk : Disk) (path : Path) : Except SystemFault (List Listed) :=
  match disk.listing path with
  | .ok entries => .ok entries
  | .error fault => if fault.saysDenied then .ok [] else .error fault

/-- A directory and all directories below it. -/
def directories (disk : Disk) : (room : Nat) → Path → Except SearchFault (List Path)
  | 0, _ => .error .tooDeep
  | room + 1, path => do
    let entries ← (disk.entries path).mapError .system
    let below ← (entries.filter (·.kind = .directory)).mapM fun entry =>
      disk.directories room (path.below [entry.name])
    return path :: below.flatten

/-- Does an entry of a directory lead to a directory? A link is followed. -/
def leadsDown (disk : Disk) (path : Path) (entry : Listed) : Except SystemFault Bool :=
  match entry.kind with
  | .directory => .ok true
  | .link => disk.isDirectory (path.below [entry.name])
  | .other => .ok false

/-- The entries that lead to directories, up to the first one that may not be looked at. -/
def leadingDown (disk : Disk) (path : Path) : List Listed → Except SystemFault (List Listed)
  | [] => .ok []
  | entry :: rest =>
    match disk.leadsDown path entry with
    | .error fault => if fault.saysDenied then .ok [] else .error fault
    | .ok down => do
      let others ← disk.leadingDown path rest
      return if down then entry :: others else others

/-- The entries of a directory that a part of a pattern may stand for: all of them if it is the last part, and
else those that lead to directories. -/
def candidates (disk : Disk) (path : Path) (last : Bool) : Except SystemFault (List Listed) := do
  let entries ← disk.entries path
  if last then return entries else disk.leadingDown path entries

/-- May a part of a pattern stand for the path? Anything may be there if it is the last part, and else a
directory has to be. -/
def isCandidate (disk : Disk) (path : Path) (last : Bool) : Except SystemFault Bool :=
  if last then disk.isThere path else disk.isDirectory path

/-- The paths, below a directory, that fit the parts of a pattern. -/
def select (disk : Disk) : List Selector → Path → Except SearchFault (List Path)
  | [], path | .slash :: _, path => .ok [path]
  | .anyDepth :: rest, path => do
    let directories ← disk.directories disk.room path
    let found ← directories.mapM (disk.select rest)
    return found.flatten
  | .named name :: rest, path =>
    match disk.isCandidate (path.below [name]) rest.isEmpty with
    | .ok true => disk.select rest (path.below [name])
    | .ok false => .ok []
    | .error fault => if fault.saysDenied then .ok [] else .error (.system fault)
  | .fitting pattern :: rest, path => do
    let entries ← (disk.candidates path rest.isEmpty).mapError .system
    let found ← (entries.filter (pattern.fits ·.name)).mapM fun entry =>
      disk.select rest (path.below [entry.name])
    return found.flatten

/-- The files below a directory that fit a pattern at any depth. -/
def filesBelow (disk : Disk) (path : Path) (pattern : Text) : Except SearchFault (List Path) := do
  let selectors ← Selector.all pattern
  let found ← disk.select (.anyDepth :: selectors) path
  passing (fun file => (disk.isFile file).mapError .system) found

end Disk

end DocLint
