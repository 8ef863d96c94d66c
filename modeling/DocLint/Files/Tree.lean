import DocLint.Files.Disk
import DocLint.Text.Utf8

/-!
# File trees

A disk that is given by the list of its files and directories under their names. A directory need not be
listed if something below it is, or the working directory. A path with a root is followed from the root on, and
any other from the working directory. Each name but the last has to be a directory that may be entered; two
dots lead back up, and at the root nowhere. A name has at most 255 bytes and a path at most 4095.
-/

namespace DocLint

/-- A file or a directory, and what is permitted. -/
inductive Entry where
  /-- A file with its bytes. -/
  | file (bytes : List UInt8) (readable : Bool := true)
  /-- A directory. To list it is to ask for its names, and to enter it to ask for what is below. -/
  | directory (listable : Bool := true) (enterable : Bool := true)
  deriving DecidableEq

/-- The place of an entry. -/
def Entry.place : Entry → Place
  | file _ _ => .file
  | directory _ _ => .directory

/-- Files and directories. -/
structure FileTree where
  /-- Names from the root on, and what is there. -/
  entries : List (List Text × Entry)
  /-- The names of the working directory. -/
  home : List Text := []

namespace FileTree

/-- The names of all that is known to be there. -/
def known (tree : FileTree) : List (List Text) := tree.home :: tree.entries.map (·.1)

/-- What is listed under the names, or follows from what is known below them. -/
def entry? (tree : FileTree) (names : List Text) : Option Entry :=
  match tree.entries.find? (·.1 == names) with
  | some (_, entry) => some entry
  | none => if tree.known.any names.isPrefixOf then some .directory else none

/-- Is the name too long for a file? -/
def isLong (name : Text) : Bool := 255 < Utf8.size name

/-- Is the path too long to be asked for? -/
def isFar (path : Path) : Bool := 4096 ≤ Utf8.size path.toText

/-- Where names lead to from the directory with the names `base`, and what is there. -/
def follow (tree : FileTree) : (base names : List Text) → Except SystemFault (List Text × Entry)
  | base, [] =>
    match tree.entry? base with
    | some entry => .ok (base, entry)
    | none => .error .missing
  | base, name :: names =>
    match tree.entry? base with
    | none => .error .missing
    | some (.file _ _) => .error .notDirectory
    | some (.directory _ enterable) =>
      if !enterable then .error .denied
      else if name = ".".toList then tree.follow base names
      else if name = "..".toList then tree.follow base.dropLast names
      else if isLong name then .error .longName
      else tree.follow (base ++ [name]) names

/-- Where a path leads to, and what is there. A path without names is a single dot. -/
def find (tree : FileTree) (path : Path) : Except SystemFault (List Text × Entry) :=
  if isFar path then .error .longName
  else if !path.root.isEmpty then tree.follow [] path.names
  else tree.follow tree.home (if path.names.isEmpty then [".".toList] else path.names)

/-- The names in a directory. -/
def children (tree : FileTree) (directory : List Text) : List Text :=
  (tree.known.filterMap fun names =>
    if directory.isPrefixOf names then (names.drop directory.length).head? else none).eraseDups

/-- The entry of a directory under a name. -/
def listed? (tree : FileTree) (directory : List Text) (name : Text) : Option Listed :=
  if h : Path.IsName name ∧ name ≠ "..".toList then
    let isDirectory := (tree.entry? (directory ++ [name])).any (·.place = .directory)
    some { name, isName := h.1, notUp := h.2, kind := if isDirectory then .directory else .other }
  else none

/-- What a directory holds. -/
def listing (tree : FileTree) (path : Path) : Except SystemFault (List Listed) :=
  match tree.find path with
  | .error fault => .error fault
  | .ok (_, .file _ _) => .error .notDirectory
  | .ok (names, .directory listable _) =>
    if listable then .ok ((tree.children names).filterMap (tree.listed? names)) else .error .denied

/-- The bytes of a file. -/
def bytes (tree : FileTree) (path : Path) : Except SystemFault (List UInt8) :=
  match tree.find path with
  | .error fault => .error fault
  | .ok (_, .file bytes readable) => if readable then .ok bytes else .error .denied
  | .ok (_, .directory listable _) => .error (if listable then .isDirectory else .denied)

/-- The tree as a disk. -/
def disk (tree : FileTree) : Disk where
  place path := (tree.find path).map (·.2.place)
  listing := tree.listing
  bytes := tree.bytes
  room := 989

end FileTree

end DocLint
