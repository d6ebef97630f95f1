import MarkupQuery.Document.Basic
import MarkupQuery.Text.Occurrence
import MarkupQuery.Text.WhiteSpace

/-!
# MarkupQuery.Document.Element — what an element tells about itself

The value of an attribute, the test for a class, and the text below an element. The text is
built in one walk over the nodes below, in document order, which writes behind what it has
written already.
-/

namespace MarkupQuery

namespace Node

mutual

/-- The walk comes to a node with `written`: a text is trimmed on its own and put behind that,
and of an element the contents are walked. -/
def appendText (written : String) : Node → String
  | .element _ _ contents => appendTextAll written contents
  | .text content => written ++ Text.trim content

/-- The walk goes on over the nodes of a forest, one behind the other. -/
def appendTextAll (written : String) : List Node → String
  | [] => written
  | n :: ns => appendTextAll (appendText written n) ns

end

end Node

namespace Element

/-- The value of the first attribute with this key. -/
def attribute? (e : Element) (key : String) : Option String :=
  (e.attributes.find? (·.key == key)).map (·.value)

/-- Some attribute `class`, not only the first, has a value in which `name` occurs. The
value is not cut into words, so the class `red` is found in `class="bordered"`. -/
def hasClass (e : Element) (name : String) : Bool :=
  e.attributes.any fun a => a.key == "class" && Text.occursIn name.toList a.value.toList

/-- Every text below the element in document order, each trimmed on its own. -/
def text (e : Element) : String :=
  Node.appendTextAll "" e.contents

end Element

end MarkupQuery
