import DocLint.Files.Path
import DocLint.Text.Quoted

/-!
# Disks

What the system answers about paths: what is at a path, what a directory holds, and the bytes of a file.
Every answer may be a fault instead. Some faults only say that nothing is there, and count as that answer.
-/

namespace DocLint

/-- A fault of the system, by its number and wording. -/
structure SystemFault where
  /-- The number. -/
  number : Nat
  /-- The wording. -/
  text : String
  deriving DecidableEq

namespace SystemFault

/-- Nothing is there. -/
def missing : SystemFault := ⟨2, "No such file or directory"⟩

/-- It is not permitted. -/
def denied : SystemFault := ⟨13, "Permission denied"⟩

/-- A name stands below something that is no directory. -/
def notDirectory : SystemFault := ⟨20, "Not a directory"⟩

/-- A directory has no bytes. -/
def isDirectory : SystemFault := ⟨21, "Is a directory"⟩

/-- A name or a path is too long. -/
def longName : SystemFault := ⟨36, "File name too long"⟩

/-- Does the fault only say that nothing is there? A name may be missing or stand below a file, and links may
lead round in a circle. -/
def saysAbsent (fault : SystemFault) : Bool := [2, 9, 20, 40].contains fault.number

/-- Does the fault say that something is not permitted? -/
def saysDenied (fault : SystemFault) : Bool := [1, 13].contains fault.number

/-- The wording of a fault about a path. -/
def message (fault : SystemFault) (path : Path) : Text :=
  "[Errno ".toList ++ Text.ofInt fault.number ++ "] ".toList ++ fault.text.toList ++ ": ".toList ++
    Text.quoted path.toText

end SystemFault

/-- What is at a path. -/
inductive Place where
  /-- A file. -/
  | file
  /-- A directory. -/
  | directory
  /-- Something else. -/
  | other
  deriving DecidableEq

/-- What a directory holds under a name. -/
inductive ListedKind where
  /-- A directory of its own. -/
  | directory
  /-- A link to something. -/
  | link
  /-- A file, or something else. -/
  | other
  deriving DecidableEq

/-- An entry of a directory. -/
structure Listed where
  /-- The name. -/
  name : Text
  /-- It is a name. -/
  isName : Path.IsName name
  /-- It does not lead back up. -/
  notUp : name ≠ "..".toList
  /-- What is there. -/
  kind : ListedKind

/-- The answers of the system. -/
structure Disk where
  /-- What is at a path. -/
  place : Path → Except SystemFault Place
  /-- What the directory at a path holds. -/
  listing : Path → Except SystemFault (List Listed)
  /-- The bytes of the file at a path. -/
  bytes : Path → Except SystemFault (List UInt8)
  /-- How many directories, each in the one before, a walk can have open. -/
  room : Nat

namespace Disk

/-- What is at a path, if there is anything. No name holds a null character. -/
def place? (disk : Disk) (path : Path) : Except SystemFault (Option Place) :=
  if path.toText.contains '\x00' then .ok none
  else match disk.place path with
    | .ok place => .ok (some place)
    | .error fault => if fault.saysAbsent then .ok none else .error fault

/-- Is there anything? -/
def isThere (disk : Disk) (path : Path) : Except SystemFault Bool := (disk.place? path).map (·.isSome)

/-- Is there a directory? -/
def isDirectory (disk : Disk) (path : Path) : Except SystemFault Bool :=
  (disk.place? path).map (· == some .directory)

/-- Is there a file? -/
def isFile (disk : Disk) (path : Path) : Except SystemFault Bool := (disk.place? path).map (· == some .file)

end Disk

end DocLint
