import MarkupQuery.Markup.Tree
import MarkupQuery.Text.Fault

/-!
# MarkupQuery.Markup.Page — reading a whole document

A document is what the pieces at the front of a text make, as many as can be read.
Reading never fails; it may stop before the end of the text.
-/

namespace MarkupQuery.Markup

/-- The document at the front of a text, and the text left. -/
def document (cs : List Char) : Document × List Char :=
  let (ts, rest) := tokens cs
  (buildTree ts, rest)

/-- What reading leaves is a tail of the text. -/
theorem document_suffix (cs : List Char) : (document cs).2 <:+ cs :=
  Reader.many_suffix token token_consumes cs

/-- The document that a text is as a whole. -/
def parse (text : String) : Except Fault Document :=
  wholly text.toList (document text.toList)

end MarkupQuery.Markup
