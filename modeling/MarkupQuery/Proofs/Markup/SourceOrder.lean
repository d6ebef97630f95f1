import MarkupQuery.Proofs.Markup.Growing

/-!
# MarkupQuery.Proofs.Markup.SourceOrder — documents keep the order of their source

An element gets into its parent only when it is closed, which may be long after other pieces
were read, and by a closing tag that is not its own. Still a walk through the document in
document order meets every element and every character of a text in the order of the pieces
that brought them, each of them once (`events_buildTree`).

A growing tree has met what stands before its open elements, each open element, and the
nodes in the innermost one (`GrowingTree.events`). To close an element adds nothing to
that (`events_close`), and a piece adds what it says at the end (`events_step`).
-/

namespace MarkupQuery

open Markup

/-! ## Walks -/

/-- What is met on a walk: an element, without its contents, or one character of a text. -/
inductive Event where
  | element (name : String) (attributes : List Attribute)
  | char (c : Char)
deriving Repr, DecidableEq

/-- The characters of a text are met one by one. -/
def textEvents (content : String) : List Event :=
  content.toList.map .char

/-- It does not matter to a walk whether a text is in one piece. -/
theorem textEvents_append (a b : String) :
    textEvents (a ++ b) = textEvents a ++ textEvents b := by
  simp [textEvents]

namespace Node

mutual

/-- What a walk through a node meets, in document order. -/
def events : Node → List Event
  | .element name attributes contents => .element name attributes :: eventsAll contents
  | .text content => textEvents content

/-- What a walk through a forest meets, in document order. -/
def eventsAll : List Node → List Event
  | [] => []
  | n :: ns => n.events ++ eventsAll ns

end

theorem eventsAll_append (ms ns : List Node) :
    eventsAll (ms ++ ns) = eventsAll ms ++ eventsAll ns := by
  induction ms with
  | nil => rfl
  | cons m ms ih => rw [List.cons_append, eventsAll, eventsAll, ih, List.append_assoc]

/-- A node that is the latest of its forest is met last. -/
theorem eventsAll_reverse_cons (n : Node) (latest : List Node) :
    eventsAll (n :: latest).reverse = eventsAll latest.reverse ++ n.events := by
  rw [List.reverse_cons, eventsAll_append, eventsAll, eventsAll, List.append_nil]

/-- A node that is joined to the latest ones is met last, also where it only goes on a text. -/
theorem eventsAll_reverse_joinNode (n : Node) (latest : List Node) :
    eventsAll (joinNode n latest).reverse = eventsAll latest.reverse ++ n.events := by
  unfold joinNode
  split
  · -- the text before it and the text itself are one node now
    rename_i content before earlier
    rw [eventsAll_reverse_cons, eventsAll_reverse_cons]
    simp only [events, textEvents_append, List.append_assoc]
  · exact eventsAll_reverse_cons n latest

end Node

namespace Markup

open Node (events eventsAll eventsAll_append eventsAll_reverse_cons eventsAll_reverse_joinNode)

/-- What a piece brings to a walk: an opening tag its element, an element that is read as a
whole all that is in it, a text its characters. -/
def Token.events : Token → List Event
  | .opening name attributes => [.element name attributes]
  | .whole e => e.toNode.events
  | .text content => textEvents content
  | .closing _ => []
  | .skipped => []

namespace GrowingTree

/-! ## Walks through a growing tree -/

/-- What stands before the nodes of the innermost of these open elements: from the outermost
one on, the finished nodes before each of them and the element itself. -/
def eventsBefore : List OpenElement → List Event
  | [] => []
  | e :: outer =>
    eventsBefore outer ++ (eventsAll e.earlier.reverse ++ [.element e.name e.attributes])

/-- What a walk through a growing tree meets. -/
def events (t : GrowingTree) : List Event :=
  eventsBefore t.opened ++ eventsAll t.latest.reverse

/-- A node that is added is met last. -/
theorem events_add (t : GrowingTree) (n : Node) : (t.add n).events = t.events ++ n.events := by
  rw [events, events, opened_add, List.append_assoc, ← eventsAll_reverse_joinNode]
  rfl

/-- An element that is opened is met last. -/
theorem events_openInside (t : GrowingTree) (name : String) (attributes : List Attribute) :
    (t.openInside name attributes).events = t.events ++ [.element name attributes] := by
  simp [events, openInside, eventsBefore, eventsAll]

/-- Closing an element moves what is in it, and changes nothing about when it is met. -/
theorem events_close (t : GrowingTree) : t.close.events = t.events := by
  unfold close
  split
  · rfl
  · rename_i e outer hopened
    rw [events, events, hopened, eventsBefore, eventsAll_reverse_cons, Node.events]
    simp only [List.append_assoc, List.singleton_append]

theorem events_closeMany (n : Nat) (t : GrowingTree) : (closeMany n t).events = t.events := by
  apply closeMany_keeps (P := fun u => u.events = t.events) _ n rfl
  intro u hu
  rw [events_close, hu]

/-- Whatever it closes, a piece brings what it says behind all that was met before. -/
theorem events_step (t : GrowingTree) (piece : Token) :
    (t.step piece).events = t.events ++ piece.events := by
  cases piece with
  | opening name attributes =>
    simp only [step, enter]
    split
    · -- at the limit of the depth an element is closed first
      rw [events_openInside, events_close, Token.events]
    · rw [events_openInside, Token.events]
  | closing name =>
    rw [Token.events, List.append_nil]
    simp only [step, leave]
    split
    · rfl
    · exact events_closeMany _ t
  | whole e => exact events_add t e.toNode
  | text content => exact events_add t (.text content)
  | skipped => exact (List.append_nil _).symm

theorem events_foldl_step (ts : List Token) (t : GrowingTree) :
    (ts.foldl step t).events = t.events ++ ts.flatMap Token.events := by
  induction ts generalizing t with
  | nil => simp
  | cons piece ts ih =>
    rw [List.foldl_cons, ih, events_step, List.flatMap_cons, List.append_assoc]

/-- When everything is closed, the document is met as the growing tree was. -/
theorem eventsAll_finish (t : GrowingTree) : eventsAll t.finish.contents = t.events := by
  have hopened : (closeMany t.opened.length t).opened = [] := by
    rw [opened_closeMany, List.drop_length]
  rw [← events_closeMany t.opened.length t, events, hopened]
  rfl

end GrowingTree

/-! ## The document -/

/-- A walk through a document meets what its pieces say, in their order: nothing is lost,
doubled or moved, whatever the closing tags are, how deep the pieces nest, and what is left
open at the end. -/
theorem events_buildTree (ts : List Token) :
    eventsAll (buildTree ts).contents = ts.flatMap Token.events := by
  rw [GrowingTree.buildTree_eq, GrowingTree.eventsAll_finish, GrowingTree.grown,
    GrowingTree.events_foldl_step]
  rfl

/-- A closing tag that closes two elements at once, and one that closes none. -/
example : eventsAll (buildTree [.opening "ul" [], .opening "li" [], .text "a", .closing "ul",
      .closing "b", .text "c"]).contents =
    [.element "ul" [], .element "li" [], .char 'a', .char 'c'] := by decide

end Markup

end MarkupQuery
