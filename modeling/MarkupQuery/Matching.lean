import MarkupQuery.Document.Element
import MarkupQuery.Document.Located
import MarkupQuery.Error

/-!
# MarkupQuery.Matching — searching a document for a group of a selector

A group is cut into compounds at its descendant combinators. The search goes through
the document in document order looking for the first compound. Below an element that
satisfies it, the search goes on with the compounds behind it; when there are none, the
element is found and nothing below it is looked at. Below any other node the search for
the same compounds goes on.

Only types, classes and the descendant combinator have a test. The tokens of a compound
are tested in order up to the first that does not hold, and the search fails at a token
without a test as soon as it comes to it.
-/

namespace MarkupQuery

open Selector (Token Group)

/-! ## Tests of one node -/

/-- Whether a token holds of a node; a node that is no element is given as `none`. A
test of the attribute `class` asks for the class, whatever the test. -/
def tokenHolds (e : Option Element) (token : Token) : Except Error Bool :=
  match token with
  | .tag name => .ok (e.any (·.name == name))
  | .attr name _ value =>
    if name = "class" then .ok (e.any (·.hasClass value)) else .error (.unsupported token)
  | _ => .error (.unsupported token)

/-- Whether every token of a compound holds of a node. -/
def compoundHolds (e : Option Element) : Group → Except Error Bool
  | [] => .ok true
  | token :: tokens =>
    match tokenHolds e token with
    | .error err => .error err
    | .ok false => .ok false
    | .ok true => compoundHolds e tokens

/-- The first compound of a group, and what stands behind its descendant combinator, if
there is one. -/
def splitDescendant : Group → Group × Option Group
  | [] => ([], none)
  | .combinator .descendant :: later => ([], some later)
  | token :: tokens => (token :: (splitDescendant tokens).1, (splitDescendant tokens).2)

/-! ## The search -/

mutual

/-- The elements found in a node that stands at `position`, in document order. -/
def findInNode (group : Group) (position : Nat) : Node → Except Error (List Located)
  | .element name attributes contents =>
    match compoundHolds (some ⟨name, attributes, contents⟩) (splitDescendant group).1 with
    | .error err => .error err
    | .ok false => findInNodes group (position + 1) contents
    | .ok true =>
      match (splitDescendant group).2 with
      | none => .ok [⟨position, ⟨name, attributes, contents⟩⟩]
      | some later => findInNodes later (position + 1) contents
  | .text _ =>
    match compoundHolds none (splitDescendant group).1 with
    | .error err => .error err
    | .ok _ => .ok []

/-- The elements found in a forest whose first node stands at `position`. -/
def findInNodes (group : Group) (position : Nat) : List Node → Except Error (List Located)
  | [] => .ok []
  | node :: nodes =>
    match findInNode group position node with
    | .error err => .error err
    | .ok found =>
      match findInNodes group (position + node.size) nodes with
      | .error err => .error err
      | .ok more => .ok (found ++ more)

end

/-- The elements found in a document. The document itself is tested first, as a node
that is no element. -/
def Document.findGroup (d : Document) (group : Group) : Except Error (List Located) :=
  match compoundHolds none (splitDescendant group).1 with
  | .error err => .error err
  | .ok _ => findInNodes group 0 d.contents

end MarkupQuery
