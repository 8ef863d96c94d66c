import DocLint.Editor
import DocLint.Finding.Metrics
import DocLint.Uri

/-!
# A workspace in memory

The texts of documents in a table, by their decoded URIs: URIs that differ only in how they write characters
name one document. The URI is looked at when a document is made. An event that would make one with a URI that
can name none is refused; it changes nothing, and there is no text after it.
-/

namespace DocLint

/-- The texts of documents, and whether the last event was refused. -/
structure Documents where
  /-- The texts by decoded URIs. -/
  texts : Table Text Text := []
  /-- Was the last event refused? -/
  refused : Bool := false

namespace Documents

/-- The text of a document that was opened or changed. -/
def get? (documents : Documents) (uri : Text) : Option Text := documents.texts.get? (Uri.decode uri)

/-- The documents with the text of one of them set. -/
def put (documents : Documents) (uri text : Text) : Documents where
  texts := documents.texts.adjust (Uri.decode uri) text fun _ => text

/-- The documents after an event. -/
def after (documents : Documents) : EditorEvent → Documents
  | .opened uri text =>
    if Uri.isUsable uri then documents.put uri text else { documents with refused := true }
  | .changed uri text =>
    if (documents.get? uri).isSome || Uri.isUsable uri then documents.put uri text
    else { documents with refused := true }
  | .saved _ => { documents with refused := false }

/-- The documents after all that was said. -/
def ofEvents (past : List EditorEvent) : Documents := past.foldl after {}

/-- The workspace that keeps texts in a table. -/
def workspace : Workspace where
  document := Uri.decode
  text? past uri :=
    let documents := ofEvents past
    if documents.refused then none else documents.get? uri

end Documents

end DocLint
