import MarkupQuery.Markup.Page
import MarkupQuery.Matching
import MarkupQuery.Selector.Groups
import MarkupQuery.View

/-!
# MarkupQuery.Query — asking a document by selectors

A query holds a document, which may be read from a text, and answers selectors. The
text of a document and that of a selector have to be read to their ends. Of the groups
of a selector only the first is searched for.
-/

namespace MarkupQuery

/-- A document to be asked. -/
structure Query where
  document : Document
deriving DecidableEq

namespace Query

/-- A query of the document that a text is as a whole. -/
def parse (text : String) : Except Error Query :=
  match Markup.parse text with
  | .error fault => .error (.unreadable .html fault)
  | .ok document => .ok ⟨document⟩

/-- What a selector finds. -/
def find (q : Query) (selector : String) : Except Error Selection :=
  match Selector.parse selector with
  | .error fault => .error (.unreadable .selector fault)
  | .ok groups =>
    match q.document.findGroup (groups.headD []) with
    | .error err => .error err
    | .ok found => .ok ⟨found⟩

end Query

end MarkupQuery
