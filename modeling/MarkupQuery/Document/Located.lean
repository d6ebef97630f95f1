import MarkupQuery.Document.Basic

/-!
# MarkupQuery.Document.Located — elements and their places

The place of a node in a document is the number of nodes before it in document order,
where a node comes before its contents and texts count too. Two elements that look
alike still differ in their places.
-/

namespace MarkupQuery

/-- An element and its place in document order. -/
structure Located where
  position : Nat
  element : Element
deriving DecidableEq, Inhabited

/-- The nodes of a forest with their places, when the first stands at `start`. -/
def locate (start : Nat) : List Node → List (Nat × Node)
  | [] => []
  | n :: ns => (start, n) :: locate (start + n.size) ns

namespace Located

/-- The elements directly inside an element, with their places. -/
def children (l : Located) : List Located :=
  (locate (l.position + 1) l.element.contents).filterMap fun (position, node) =>
    node.element?.map fun e => ⟨position, e⟩

end Located

end MarkupQuery
