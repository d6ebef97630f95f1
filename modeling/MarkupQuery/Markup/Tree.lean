import MarkupQuery.Markup.Token

/-!
# MarkupQuery.Markup.Tree — nesting the pieces of markup

Pieces are nested with a stack of open elements. A closing tag closes the innermost
open element of its name together with everything opened inside it, and says nothing
if no element of that name is open. At most `maxDepth` elements are open at once: an
opening tag met at that depth first closes the innermost one, so its element lands
beside that one. What is open at the end is closed there.

A growing tree keeps the finished nodes of the innermost open element, and for each
open element the finished nodes that stand before it in its parent.
-/

namespace MarkupQuery.Markup

/-- An element that is open, and the finished nodes before it, latest first. -/
structure OpenElement where
  name : String
  attributes : List Attribute
  earlier : List Node
deriving DecidableEq

/-- A tree under construction: the finished nodes of the innermost open element, or of
the document when none is open, latest first; and the open elements, innermost first. -/
structure GrowingTree where
  latest : List Node
  opened : List OpenElement
deriving DecidableEq

/-- How many elements can be open at once. -/
def maxDepth : Nat := 512

/-- A node behind the finished ones, which are given latest first. A text joins a text
right before it. -/
def joinNode (node : Node) (latest : List Node) : List Node :=
  match node, latest with
  | .text content, .text before :: earlier => .text (before ++ content) :: earlier
  | _, _ => node :: latest

namespace GrowingTree

/-- Nothing read. -/
def empty : GrowingTree := ⟨[], []⟩

/-- Add a finished node in the innermost open element. -/
def add (t : GrowingTree) (node : Node) : GrowingTree :=
  { t with latest := joinNode node t.latest }

/-- Close the innermost open element, if there is one. -/
def close (t : GrowingTree) : GrowingTree :=
  match t.opened with
  | [] => t
  | e :: outer => ⟨.element e.name e.attributes t.latest.reverse :: e.earlier, outer⟩

/-- Close the innermost open elements, as many as `n`. -/
def closeMany : Nat → GrowingTree → GrowingTree
  | 0, t => t
  | n + 1, t => closeMany n t.close

/-- Open an element inside the innermost one. -/
def openInside (t : GrowingTree) (name : String) (attributes : List Attribute) :
    GrowingTree :=
  ⟨[], ⟨name, attributes, t.latest⟩ :: t.opened⟩

/-- Open an element where the depth allows it. -/
def enter (t : GrowingTree) (name : String) (attributes : List Attribute) : GrowingTree :=
  if t.opened.length = maxDepth then t.close.openInside name attributes
  else t.openInside name attributes

/-- Close the innermost open element of this name and what is open inside it. -/
def leave (t : GrowingTree) (name : String) : GrowingTree :=
  match t.opened.findIdx? fun e => sameName e.name name with
  | none => t
  | some inside => closeMany (inside + 1) t

/-- Take up one piece. -/
def step (t : GrowingTree) : Token → GrowingTree
  | .opening name attributes => t.enter name attributes
  | .closing name => t.leave name
  | .whole e => t.add e.toNode
  | .text content => t.add (.text content)
  | .skipped => t

/-- The document, with everything that is still open closed. -/
def finish (t : GrowingTree) : Document :=
  ⟨(closeMany t.opened.length t).latest.reverse⟩

end GrowingTree

/-- The document that a sequence of pieces makes. -/
def buildTree (ts : List Token) : Document :=
  (ts.foldl GrowingTree.step GrowingTree.empty).finish

end MarkupQuery.Markup
