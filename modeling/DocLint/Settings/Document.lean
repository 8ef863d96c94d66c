import DocLint.Settings.Reader

/-!
# Settings files

A settings file is a sequence of lines: a key with its value, the header of a table or of the next item
of a list of tables, a comment, or nothing. No key is given twice, no table is opened twice, and what
was written in one piece is not added to.
-/

namespace DocLint.Settings

/-- A file as far as it is read. -/
structure Document where
  /-- All keys and values. -/
  settings : Settings := []
  /-- The table that is open. -/
  header : List Text := []
  /-- The marks on keys. -/
  marks : List Mark := []
  /-- Keys of tables that were opened by a key with dots; they are marked when the next table opens. -/
  pending : List (List Text) := []

namespace Document

/-- The document after a key with its value. -/
def assign (document : Document) (path : List Text) (item : Setting) : Option Document := do
  let opened := (List.range' 1 (path.length - 1)).map fun count =>
    document.header ++ path.take count
  guard (!opened.any (isMarked document.marks false))
  let parent := document.header ++ path.dropLast
  guard (!isMarked document.marks true parent)
  let settings ← alterAt true (addNew (path.getLast?.getD []) item) parent document.settings
  return { document with
    settings
    marks := document.marks ++ marksOf (document.header ++ path) item
    pending := document.pending ++ opened }

/-- The document with all pending marks made. -/
def settle (document : Document) : Document :=
  { document with
    marks := document.marks ++ document.pending.map fun path => ⟨path, false, false⟩
    pending := [] }

/-- The document after the header of a table. -/
def openTable (document : Document) (path : List Text) : Option Document := do
  let document := document.settle
  guard (!isMarked document.marks false path && !isMarked document.marks true path)
  let settings ← alterAt true some path document.settings
  return { document with
    settings, header := path, marks := document.marks ++ [⟨path, false, false⟩] }

/-- Adds an empty table to the list at a key, which is made if there is none. -/
def appendTable (key : Text) (settings : Settings) : Option Settings :=
  match settings.get? key with
  | none => some (settings ++ [(key, .list [.table []])])
  | some (.list items) => some (replace key (.list (items ++ [.table []])) settings)
  | some _ => none

/-- The document after the header of the next item of a list of tables. -/
def openItem (document : Document) (path : List Text) : Option Document := do
  let document := document.settle
  guard (!isMarked document.marks true path)
  let settings ← alterAt true (appendTable (path.getLast?.getD [])) path.dropLast document.settings
  let kept := document.marks.filter fun mark => !path.isPrefixOf mark.path
  return { document with settings, header := path, marks := kept ++ [⟨path, false, false⟩] }

/-- The document after one statement, and what follows it. -/
def statement (document : Document) (text : Text) : Except SettingFault (Document × Text) :=
  match text with
  | '[' :: '[' :: rest => do
    let (path, rest) ← orMalformed (key (skipBlanks rest))
    let rest ← orMalformed (Text.after? "]]".toList rest)
    return (← orMalformed (document.openItem path), rest)
  | '[' :: rest => do
    let (path, rest) ← orMalformed (key (skipBlanks rest))
    let rest ← orMalformed (Text.after? "]".toList rest)
    return (← orMalformed (document.openTable path), rest)
  | '#' :: _ => .ok (document, text)
  | text => do
    let (path, rest) ← orMalformed (key text)
    let rest ← orMalformed (Text.after? "=".toList rest)
    let rest := skipBlanks rest
    let (item, rest) ← value (2 * rest.length + 2) wholeRoom rest
    return (← orMalformed (document.assign path item), rest)

/-- Reads the statements of a text. -/
def read : (steps : Nat) → Document → Text → Except SettingFault Document
  | 0, _, _ => .error .malformed
  | steps + 1, document, text =>
    match skipBlanks text with
    | [] => .ok document
    | '\n' :: rest => read steps document rest
    | text => do
      let (document, rest) ← document.statement text
      match ← orMalformed (skipComment? (skipBlanks rest)) with
      | [] => return document
      | '\n' :: rest => read steps document rest
      | _ => .error .malformed

end Document

/-- A text with each pair of carriage return and line feed made a line feed. -/
def unifyLineEnds : Text → Text
  | [] => []
  | '\r' :: '\n' :: rest => '\n' :: unifyLineEnds rest
  | c :: rest => c :: unifyLineEnds rest

/-- Reads a settings file. -/
def ofText (text : Text) : Except SettingFault Settings :=
  let text := unifyLineEnds text
  (Document.read (text.length + 1) {} text).map (·.settings)

end DocLint.Settings
