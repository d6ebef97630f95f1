import MarkupQuery.Proofs.Markup.Growing

/-!
# MarkupQuery.Proofs.Markup.Balance — trees are nested balanced pieces

Pieces need not be balanced: closing tags may be missing, may close several elements at
once, or may close nothing, and an element may be closed because the depth is used up.
`balance` writes out a closing tag for each element that is closed and drops those that
close nothing. What it writes is properly nested, so that it can be read as a grammar
(`Nests`) and not only by a stack of open elements.

* `unwinds_balanceFrom` — behind open elements, the balanced pieces are properly nested but
  for one closing tag per open element, from the innermost on;
* `foldl_step_of_nests` — properly nested pieces grow a tree by the forest they nest to;
* `finish_foldl_balanceFrom` — pieces and balanced pieces grow the same tree.
-/

namespace MarkupQuery.Markup

/-! ## Balanced pieces -/

/-- What is written for a piece behind open elements of the given names, innermost first, and
the names that are open behind it. -/
def balanceStep (opened : List String) : Token → List Token × List String
  | .opening name attributes =>
    if opened.length = maxDepth then
      ((opened.take 1).map .closing ++ [.opening name attributes], name :: opened.drop 1)
    else ([.opening name attributes], name :: opened)
  | .closing name =>
    match opened.findIdx? fun n => sameName n name with
    | none => ([], opened)
    | some inside => ((opened.take (inside + 1)).map .closing, opened.drop (inside + 1))
  | piece => ([piece], opened)

/-- The pieces behind open elements of the given names, with a closing tag for each element
that is closed. -/
def balanceFrom (opened : List String) : List Token → List Token
  | [] => opened.map .closing
  | piece :: ts =>
    (balanceStep opened piece).1 ++ balanceFrom (balanceStep opened piece).2 ts

/-- The pieces with a closing tag for each element that is closed. -/
def balance (ts : List Token) : List Token :=
  balanceFrom [] ts

/-- A text in front of a forest; the text that the forest may start with is joined to it. -/
def joinFront (content : String) : List Node → List Node
  | .text behind :: ns => .text (content ++ behind) :: ns
  | ns => .text content :: ns

/-- The pieces are properly nested, with at most so many elements open at once, and they nest
to this forest: an opening tag is ended by a closing tag of its own name, and what lies
between them are its contents. -/
inductive Nests : Nat → List Token → List Node → Prop where
  | nil {room : Nat} : Nests room [] []
  | text {room : Nat} {ts : List Token} {ns : List Node} {content : String} :
      Nests room ts ns → Nests room (.text content :: ts) (joinFront content ns)
  | skipped {room : Nat} {ts : List Token} {ns : List Node} :
      Nests room ts ns → Nests room (.skipped :: ts) ns
  | whole {room : Nat} {ts : List Token} {ns : List Node} {e : Element} :
      Nests room ts ns → Nests room (.whole e :: ts) (e.toNode :: ns)
  | element {room : Nat} {inner ts : List Token} {contents ns : List Node} {name : String}
      {attributes : List Attribute} :
      Nests room inner contents → Nests (room + 1) ts ns →
      Nests (room + 1) (.opening name attributes :: (inner ++ .closing name :: ts))
        (.element name attributes contents :: ns)

/-! ## Growing nested pieces -/

theorem textsApart_joinFront {content : String} {ns : List Node} (h : Node.TextsApart ns) :
    Node.TextsApart (joinFront content ns) := by
  rcases ns with _ | ⟨n, ns⟩
  · exact List.isChain_singleton _
  · cases n with
    | text behind =>
      -- the joined text has the same neighbour
      obtain ⟨hside, hns⟩ := Node.textsApart_cons.1 h
      exact Node.textsApart_cons.2 ⟨hside, hns⟩
    | element name attributes contents =>
      exact Node.textsApart_cons.2 ⟨fun h => h.2, h⟩

/-- In a forest that pieces nest to no texts meet. -/
theorem Nests.textsApart {room : Nat} {ts : List Token} {ns : List Node}
    (h : Nests room ts ns) : Node.TextsApart ns := by
  induction h with
  | nil => exact List.isChain_nil
  | text _ ih => exact textsApart_joinFront ih
  | skipped _ ih => exact ih
  | whole _ ih => exact Node.textsApart_cons.2 ⟨fun h => h.1, ih⟩
  | element _ _ _ ih => exact Node.textsApart_cons.2 ⟨fun h => h.1, ih⟩

namespace GrowingTree

/-- Adding a joined text is adding both texts. -/
theorem foldl_add_joinFront (content : String) (ns : List Node) (g : GrowingTree) :
    (joinFront content ns).foldl add g = ns.foldl add (g.add (.text content)) := by
  rcases ns with _ | ⟨n, ns⟩
  · rfl
  · cases n with
    | text behind => simp only [joinFront, List.foldl_cons, add_text_add_text]
    | element name attributes contents => rfl

/-- An element that is opened, filled and closed is added as it is. -/
theorem close_foldl_add {g : GrowingTree} {contents : List Node}
    (h : Node.TextsApart contents) (name : String) (attributes : List Attribute) :
    (contents.foldl add (g.openInside name attributes)).step (.closing name) =
      g.add (.element name attributes contents) := by
  have hfill : contents.foldl add (g.openInside name attributes) =
      ⟨contents.reverse, ⟨name, attributes, g.latest⟩ :: g.opened⟩ := by
    have hempty : ¬ (Node.StartsWithText contents ∧
        Node.StartsWithText (g.openInside name attributes).latest) := fun h => h.2
    rw [foldl_add_of_apart h hempty]
    simp [openInside]
  have hapart : ¬ (Node.StartsWithText [.element name attributes contents] ∧
      Node.StartsWithText g.latest) := fun h => h.1
  rw [hfill, step, leave_innermost (e := ⟨name, attributes, g.latest⟩) rfl, add_of_apart hapart]
  simp [close]

/-- Where there is room for them, nested pieces add the forest that they nest to. -/
theorem foldl_step_of_nests {room : Nat} {ts : List Token} {ns : List Node}
    (h : Nests room ts ns) (g : GrowingTree) (hroom : g.opened.length + room ≤ maxDepth) :
    ts.foldl step g = ns.foldl add g := by
  induction h generalizing g with
  | nil => rfl
  | text _ ih =>
    rw [foldl_add_joinFront]
    exact ih _ hroom
  | skipped _ ih => exact ih g hroom
  | whole _ ih => exact ih _ hroom
  | @element room inner ts contents ns name attributes hinner hts ihInner ih =>
    have hopen : g.step (.opening name attributes) = g.openInside name attributes :=
      if_neg (by omega)
    have hinside : inner.foldl step (g.openInside name attributes) =
        contents.foldl add (g.openInside name attributes) := by
      apply ihInner
      rw [opened_openInside, List.length_cons]
      omega
    rw [List.foldl_cons, hopen, List.foldl_append, hinside, List.foldl_cons,
      close_foldl_add hinner.textsApart, List.foldl_cons]
    exact ih _ hroom

/-- Properly nested pieces make the forest that they nest to. -/
theorem buildTree_of_nests {ts : List Token} {ns : List Node} (h : Nests maxDepth ts ns) :
    buildTree ts = ⟨ns⟩ := by
  have hgrown : ts.foldl step empty = ⟨ns.reverse, []⟩ := by
    have hempty : ¬ (Node.StartsWithText ns ∧ Node.StartsWithText empty.latest) := fun h => h.2
    rw [foldl_step_of_nests h empty (by simp [empty]), foldl_add_of_apart h.textsApart hempty]
    simp [empty]
  simp [buildTree, hgrown, finish, closeMany]

/-! ## Growing balanced pieces -/

/-- The names of the open elements, innermost first. -/
def names (t : GrowingTree) : List String :=
  t.opened.map OpenElement.name

theorem length_names (t : GrowingTree) : t.names.length = t.opened.length :=
  List.length_map _

theorem names_closeMany (n : Nat) (t : GrowingTree) : (closeMany n t).names = t.names.drop n := by
  rw [names, opened_closeMany, List.map_drop, names]

/-- Closing tags of the innermost open elements close these. -/
theorem foldl_closings (n : Nat) (t : GrowingTree) :
    ((t.names.take n).map Token.closing).foldl step t = closeMany n t := by
  induction n generalizing t with
  | zero => simp [closeMany]
  | succ n ih =>
    have hrest := ih t.close
    rw [names, opened_close] at hrest
    cases hopened : t.opened with
    | nil =>
      have hclose : t.close = t := by simp [close, hopened]
      rw [hopened, hclose] at hrest
      rw [closeMany, names, hclose, hopened, ← hrest]
      simp
    | cons e outer =>
      have hfirst : t.step (.closing e.name) = t.close := leave_innermost hopened
      rw [hopened, List.tail_cons] at hrest
      rw [closeMany, names, hopened, List.map_cons, List.take_succ_cons, List.map_cons,
        List.foldl_cons, hfirst, hrest]

/-- What is written for a piece grows a tree as the piece does. -/
theorem foldl_balanceStep (t : GrowingTree) (piece : Token) :
    (balanceStep t.names piece).1.foldl step t = t.step piece ∧
      (balanceStep t.names piece).2 = (t.step piece).names := by
  cases piece with
  | opening name attributes =>
    simp only [balanceStep, length_names]
    split
    · -- the innermost element is closed first
      rename_i hfull
      have hroom : (closeMany 1 t).opened.length ≠ maxDepth := by
        have hpos : 0 < maxDepth := by decide
        rw [opened_closeMany, List.length_drop]
        omega
      have hclosed : t.step (.opening name attributes) =
          (closeMany 1 t).openInside name attributes := if_pos hfull
      have hopen : (closeMany 1 t).step (.opening name attributes) =
          (closeMany 1 t).openInside name attributes := if_neg hroom
      constructor
      · rw [List.foldl_append, foldl_closings, List.foldl_cons, hopen, hclosed]
        rfl
      · rw [hclosed, ← names_closeMany]
        rfl
    · rename_i hroom
      have hopen : t.step (.opening name attributes) = t.openInside name attributes :=
        if_neg hroom
      exact ⟨rfl, hopen ▸ rfl⟩
  | closing name =>
    have hfind : (t.names.findIdx? fun n => sameName n name) =
        t.opened.findIdx? fun e => sameName e.name name := by
      rw [names, List.findIdx?_map]
      rfl
    simp only [balanceStep, step, leave, hfind]
    cases t.opened.findIdx? fun e => sameName e.name name with
    | none => exact ⟨rfl, rfl⟩
    | some inside => exact ⟨foldl_closings _ t, (names_closeMany _ t).symm⟩
  | whole e => exact ⟨rfl, rfl⟩
  | text content => exact ⟨rfl, rfl⟩
  | skipped => exact ⟨rfl, rfl⟩

/-- Pieces and balanced pieces grow the same tree, whatever is open before them. -/
theorem finish_foldl_balanceFrom (ts : List Token) (t : GrowingTree) :
    ((balanceFrom t.names ts).foldl step t).finish = (ts.foldl step t).finish := by
  induction ts generalizing t with
  | nil =>
    have hall := foldl_closings t.names.length t
    rw [List.take_length] at hall
    rw [balanceFrom, hall, finish_closeMany]
    rfl
  | cons piece ts ih =>
    obtain ⟨hstep, hnames⟩ := foldl_balanceStep t piece
    rw [balanceFrom, List.foldl_append, hstep, hnames, ih, List.foldl_cons]

end GrowingTree

/-! ## Balanced pieces are nested -/

/-- Properly nested pieces but for closing tags of these names, one after the other; behind
each of them one element fewer is open. -/
inductive Unwinds : List String → List Token → Prop where
  | done {ts : List Token} {ns : List Node} : Nests maxDepth ts ns → Unwinds [] ts
  | close {inner ts : List Token} {contents : List Node} {name : String}
      {outer : List String} :
      Nests (maxDepth - (outer.length + 1)) inner contents → Unwinds outer ts →
      Unwinds (name :: outer) (inner ++ .closing name :: ts)

namespace Unwinds

variable {opened : List String} {ts : List Token}

/-- A piece that may stand in front of nested pieces may stand in front of these. -/
theorem piece {p : Token}
    (hp : ∀ room ts ns, Nests room ts ns → ∃ ns', Nests room (p :: ts) ns')
    (h : Unwinds opened ts) : Unwinds opened (p :: ts) := by
  cases h with
  | done hts =>
    obtain ⟨ns, hns⟩ := hp _ _ _ hts
    exact .done hns
  | close hinner hts =>
    obtain ⟨contents, hcontents⟩ := hp _ _ _ hinner
    exact .close hcontents hts

/-- Behind an opening tag its element has to be closed first. -/
theorem opening {name : String} (attributes : List Attribute) (hroom : opened.length < maxDepth)
    (h : Unwinds (name :: opened) ts) : Unwinds opened (.opening name attributes :: ts) := by
  cases h with
  | @close inner ts contents _ _ hinner hts =>
    cases hts with
    | done hts => exact .done (.element hinner hts)
    | @close behind ts _ outerName outer hbehind hts =>
      -- the element and what stands behind it lie in the next open element
      obtain ⟨ns, hboth⟩ : ∃ ns, Nests (maxDepth - (outer.length + 1))
          (.opening name attributes :: (inner ++ .closing name :: behind)) ns := by
        have hless : maxDepth - (outer.length + 1) =
            maxDepth - ((outerName :: outer).length + 1) + 1 := by
          rw [List.length_cons] at hroom ⊢
          omega
        rw [hless] at hbehind ⊢
        exact ⟨_, .element hinner hbehind⟩
      simpa using Unwinds.close hboth hts

/-- The innermost elements may be closed at once. -/
theorem closings {n : Nat} (h : Unwinds (opened.drop n) ts) :
    Unwinds opened ((opened.take n).map .closing ++ ts) := by
  induction n generalizing opened with
  | zero => exact h
  | succ n ih =>
    cases opened with
    | nil => exact h
    | cons name outer =>
      have hnothing : Nests (maxDepth - (outer.length + 1)) [] [] := .nil
      exact .close hnothing (ih h)

end Unwinds

/-- Never more than `maxDepth` names are open. -/
theorem length_balanceStep_le {opened : List String} (hdepth : opened.length ≤ maxDepth)
    (piece : Token) : (balanceStep opened piece).2.length ≤ maxDepth := by
  have hpos : 0 < maxDepth := by decide
  cases piece with
  | opening name attributes =>
    simp only [balanceStep]
    split
    · rw [List.length_cons, List.length_drop]
      omega
    · rw [List.length_cons]
      omega
  | closing name =>
    simp only [balanceStep]
    split
    · exact hdepth
    · rw [List.length_drop]
      omega
  | whole e => exact hdepth
  | text content => exact hdepth
  | skipped => exact hdepth

/-- What is written for a piece may stand in front of what closes the elements behind it. -/
theorem unwinds_balanceStep {opened : List String} (hdepth : opened.length ≤ maxDepth)
    {piece : Token} {ts : List Token} (h : Unwinds (balanceStep opened piece).2 ts) :
    Unwinds opened ((balanceStep opened piece).1 ++ ts) := by
  cases piece with
  | opening name attributes =>
    simp only [balanceStep] at h ⊢
    split at h
    · rename_i hfull
      have hpos : 0 < maxDepth := by decide
      have hless : (opened.drop 1).length < maxDepth := by
        rw [List.length_drop]
        omega
      rw [if_pos hfull, List.append_assoc]
      exact (h.opening attributes hless).closings
    · rename_i hroom
      rw [if_neg hroom]
      exact h.opening attributes (Nat.lt_of_le_of_ne hdepth hroom)
  | closing name =>
    simp only [balanceStep] at h ⊢
    split at h
    · exact h
    · exact h.closings
  | whole e => exact h.piece fun _ _ _ h => ⟨_, .whole h⟩
  | text content => exact h.piece fun _ _ _ h => ⟨_, .text h⟩
  | skipped => exact h.piece fun _ _ _ h => ⟨_, .skipped h⟩

/-- Balanced pieces close all that is open before them. -/
theorem unwinds_balanceFrom (ts : List Token) {opened : List String}
    (hdepth : opened.length ≤ maxDepth) : Unwinds opened (balanceFrom opened ts) := by
  induction ts generalizing opened with
  | nil =>
    have hnil : Unwinds (opened.drop opened.length) [] := by
      rw [List.drop_length]
      exact .done .nil
    have hall := hnil.closings
    rwa [List.take_length, List.append_nil] at hall
  | cons piece ts ih =>
    exact unwinds_balanceStep hdepth (ih (length_balanceStep_le hdepth piece))

/-- Balanced pieces are properly nested. -/
theorem exists_nests_balance (ts : List Token) : ∃ ns, Nests maxDepth (balance ts) ns := by
  have hnone : ([] : List String).length ≤ maxDepth := Nat.zero_le _
  cases h : unwinds_balanceFrom ts hnone with
  | done hns => exact ⟨_, hns⟩

/-- The balanced pieces are properly nested, make the same document, and the document is the
only forest that they nest to. -/
theorem buildTree_balance (ts : List Token) :
    (∃ ns, Nests maxDepth (balance ts) ns) ∧ buildTree (balance ts) = buildTree ts ∧
      ∀ ns, Nests maxDepth (balance ts) ns ↔ buildTree ts = ⟨ns⟩ := by
  have hsame : buildTree (balance ts) = buildTree ts :=
    GrowingTree.finish_foldl_balanceFrom ts GrowingTree.empty
  obtain ⟨forest, hforest⟩ := exists_nests_balance ts
  have hmake := GrowingTree.buildTree_of_nests hforest
  refine ⟨⟨forest, hforest⟩, hsame, ?_⟩
  intro ns
  constructor
  · intro h
    rw [← hsame]
    exact GrowingTree.buildTree_of_nests h
  · intro h
    -- the forest that the pieces nest to is the document
    rw [← hsame, hmake, Document.mk.injEq] at h
    rwa [← h]

/-- A list item that is not closed is closed with its list. -/
example : balance [.opening "ul" [], .opening "li" [], .text "a", .closing "b", .closing "UL"] =
    [.opening "ul" [], .opening "li" [], .text "a", .closing "li", .closing "ul"] := by decide

end MarkupQuery.Markup
