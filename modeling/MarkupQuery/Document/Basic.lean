/-!
# MarkupQuery.Document.Basic — documents, their nodes and elements

A document is an ordered forest whose nodes are elements and texts. An element keeps
its attributes in source order, duplicates included; looking one up answers the first
of its key.
-/

namespace MarkupQuery

/-- One `key="value"` of an element. -/
structure Attribute where
  key : String
  value : String
deriving Repr, DecidableEq

/-- A node of a document: an element with its contents, or a text. -/
inductive Node where
  | element (name : String) (attributes : List Attribute) (contents : List Node)
  | text (content : String)
deriving Inhabited

namespace Node

mutual

/-- Two nodes are compared part by part. -/
def decEq : (m n : Node) → Decidable (m = n)
  | .element name attributes contents, .element name' attributes' contents' =>
    have := decEqAll contents contents'
    decidable_of_iff (name = name' ∧ attributes = attributes' ∧ contents = contents') (by simp)
  | .text content, .text content' => decidable_of_iff (content = content') (by simp)
  | .element .., .text _ => isFalse (by simp)
  | .text _, .element .. => isFalse (by simp)

/-- Two forests are compared node by node. -/
def decEqAll : (ms ns : List Node) → Decidable (ms = ns)
  | [], [] => isTrue rfl
  | m :: ms, n :: ns =>
    have := decEq m n
    have := decEqAll ms ns
    decidable_of_iff (m = n ∧ ms = ns) (by simp)
  | [], _ :: _ => isFalse (by simp)
  | _ :: _, [] => isFalse (by simp)

end

instance : DecidableEq Node := decEq

end Node

/-- The parts of a node that is an element. -/
structure Element where
  name : String
  attributes : List Attribute
  contents : List Node
deriving DecidableEq, Inhabited

/-- A document: the nodes at its top, in order. -/
structure Document where
  contents : List Node
deriving DecidableEq, Inhabited

/-- The element as a node. -/
def Element.toNode (e : Element) : Node :=
  .element e.name e.attributes e.contents

namespace Node

/-- The node as an element, if it is one. -/
def element? : Node → Option Element
  | .element name attributes contents => some ⟨name, attributes, contents⟩
  | .text _ => none

/-- The nodes inside a node; a text holds none. -/
def contents : Node → List Node
  | .element _ _ contents => contents
  | .text _ => []

/-! ## Size -/

mutual

/-- How many nodes a node holds, itself included. -/
def size : Node → Nat
  | .element _ _ contents => 1 + sizeAll contents
  | .text _ => 1

/-- How many nodes a forest holds. -/
def sizeAll : List Node → Nat
  | [] => 0
  | n :: ns => n.size + sizeAll ns

end

end Node

end MarkupQuery
