import DocLint.Text.Wildcard

/-!
# Paths

A path is a root and the names below it. Repeated slashes, slashes at the end and names that are a
single dot leave no trace; two dots are a name like any other. Paths are ordered name by name, so a
directory's files come before a neighbour whose name only starts alike.
-/

namespace DocLint

/-- A path of files and directories. -/
structure Path where
  /-- Empty, one slash, or two. -/
  root : Text := []
  /-- The names, from the root on. -/
  names : List Text := []
  deriving DecidableEq

namespace Path

/-- A name that a directory can hold. -/
structure IsName (name : Text) : Prop where
  ne_nil : name ≠ []
  no_slash : '/' ∉ name
  ne_dot : name ≠ ['.']

instance (name : Text) : Decidable (IsName name) :=
  decidable_of_iff (name ≠ [] ∧ '/' ∉ name ∧ name ≠ ['.'])
    ⟨fun h => ⟨h.1, h.2.1, h.2.2⟩, fun h => ⟨h.ne_nil, h.no_slash, h.ne_dot⟩⟩

/-- Reads a path. A text that starts with exactly two slashes keeps both. -/
def ofText (text : Text) : Path :=
  let slashes := text.takeWhile (· == '/')
  let root := if slashes.length = 2 then slashes else slashes.take 1
  let names := Text.splitWhere (· == '/') (text.dropWhile (· == '/'))
  ⟨root, names.filter fun name => !name.isEmpty && name != ['.']⟩

/-- The text of a path; a path without a root and without names is a dot. -/
def toText (path : Path) : Text :=
  let text := path.root ++ Text.join ['/'] path.names
  if text.isEmpty then ['.'] else text

/-- The last name; empty if there is none. -/
def name (path : Path) : Text := path.names.getLast?.getD []

/-- The path of something below. -/
def below (path : Path) (names : List Text) : Path := { path with names := path.names ++ names }

/-- The root, if there is one, and the names. -/
def parts (path : Path) : List Text :=
  if path.root.isEmpty then path.names else path.root :: path.names

/-- Order by the first part that differs; a path comes before all that lies below it. -/
def partsLe : List Text → List Text → Bool
  | [], _ => true
  | _ :: _, [] => false
  | a :: as, b :: bs => if a = b then partsLe as bs else Text.le a b

/-- Order of paths. -/
def le (a b : Path) : Bool := partsLe a.parts b.parts

/-- Is the path, or its last name, matched by one of the patterns? -/
def isExcluded (path : Path) (patterns : List Text) : Bool :=
  patterns.any fun pattern =>
    (Wildcard.ofText pattern).fits path.toText || (Wildcard.ofText pattern).fits path.name

end Path

end DocLint
