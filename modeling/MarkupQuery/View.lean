import MarkupQuery.Document.Element
import MarkupQuery.Document.Located
import MarkupQuery.Error

/-!
# MarkupQuery.View — reading what was found

A view shows at most one element, a selection all that a search found, in order.
Picking out of a selection never fails: a pick that is not there is a view of nothing,
and only reading a value from it is an error. A view of nothing has no children.
-/

namespace MarkupQuery

/-- A view of at most one element of a document. -/
structure View where
  target? : Option Located
deriving DecidableEq

namespace View

/-- The element in view. -/
def element (v : View) : Except Error Element :=
  match v.target? with
  | some l => .ok l.element
  | none => .error .noElement

/-- The value of the first attribute with this key, if there is one. -/
def attr (v : View) (key : String) : Except Error (Option String) :=
  v.element.map (·.attribute? key)

/-- The name occurs in the value of some `class`. -/
def hasClass (v : View) (name : String) : Except Error Bool :=
  v.element.map (·.hasClass name)

/-- The trimmed texts below the element, one behind the other. -/
def text (v : View) : Except Error String :=
  v.element.map (·.text)

/-- The name of the element. -/
def name (v : View) : Except Error String :=
  v.element.map (·.name)

/-- The value of the first attribute `href`, if there is one. -/
def href (v : View) : Except Error (Option String) :=
  v.attr "href"

/-- The elements directly inside the element. -/
def children (v : View) : List View :=
  match v.target? with
  | some l => l.children.map fun child => ⟨some child⟩
  | none => []

end View

/-- What a search found, in document order. -/
structure Selection where
  found : List Located
deriving DecidableEq, Inhabited

namespace Selection

/-- A view of the element at `index`, counted from 0. -/
def pick (s : Selection) (index : Nat) : View :=
  ⟨s.found[index]?⟩

/-- A view of the first element. -/
def first (s : Selection) : View :=
  s.pick 0

/-- A view of the last element. -/
def last (s : Selection) : View :=
  ⟨s.found.getLast?⟩

/-- How many elements were found. -/
def size (s : Selection) : Nat :=
  s.found.length

/-- Nothing was found. -/
def isEmpty (s : Selection) : Bool :=
  s.found.isEmpty

/-- Views of all that was found, in order. -/
def toList (s : Selection) : List View :=
  s.found.map fun l => ⟨some l⟩

/-- What `f` makes of each element, in order. -/
def map {α : Type} (f : View → α) (s : Selection) : List α :=
  s.toList.map f

/-! ## Reading from the first element -/

/-- An attribute of the first element. -/
def attr (s : Selection) (key : String) : Except Error (Option String) :=
  s.first.attr key

/-- A class of the first element. -/
def hasClass (s : Selection) (name : String) : Except Error Bool :=
  s.first.hasClass name

/-- The text of the first element. -/
def text (s : Selection) : Except Error String :=
  s.first.text

/-- The name of the first element. -/
def name (s : Selection) : Except Error String :=
  s.first.name

/-- The `href` of the first element. -/
def href (s : Selection) : Except Error (Option String) :=
  s.first.href

/-- The children of the first element. -/
def children (s : Selection) : List View :=
  s.first.children

end Selection

end MarkupQuery
