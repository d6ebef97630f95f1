import MarkupQuery.Document.Located

/-!
# MarkupQuery.Proofs.Matching.Places — where nodes stand in a forest

`Stands start ns ancestors position node` says that `node` stands at `position` of the
forest `ns`, whose first node stands at `start`, and that `ancestors` are the elements
around it, from the outermost on. Every node of a tree stands somewhere, texts included.

* `stands_cons` — the places of a forest are those of its first node and of the others;
* `Stands.unique` — a position determines the node there and its ancestors.
-/

namespace MarkupQuery

/-- A node stands at a position of a forest below these ancestors, outermost first. -/
inductive Stands : Nat → List Node → List Located → Nat → Node → Prop where
  | top {start : Nat} {ns : List Node} {position : Nat} {node : Node} :
      (position, node) ∈ locate start ns → Stands start ns [] position node
  | inside {start : Nat} {ns : List Node} {name : String} {attributes : List Attribute}
      {contents : List Node} {ancestors : List Located} {outer position : Nat} {node : Node} :
      (outer, .element name attributes contents) ∈ locate start ns →
      Stands (outer + 1) contents ancestors position node →
      Stands start ns (⟨outer, ⟨name, attributes, contents⟩⟩ :: ancestors) position node

/-- A node stands at a position of a document below these ancestors, outermost first. -/
def Document.Stands (d : Document) (ancestors : List Located) (position : Nat) (node : Node) :
    Prop :=
  MarkupQuery.Stands 0 d.contents ancestors position node

/-! ## Nodes side by side -/

/-- A node takes up at least its own position. -/
theorem Node.size_pos (n : Node) : 0 < n.size := by
  cases n with
  | element name attributes contents => simp only [Node.size]; omega
  | text content => simp only [Node.size]; omega

/-- The nodes side by side in a forest keep within its positions. -/
theorem locate_bounds {start : Nat} {ns : List Node} {position : Nat} {n : Node}
    (h : (position, n) ∈ locate start ns) :
    start ≤ position ∧ position + n.size ≤ start + Node.sizeAll ns := by
  induction ns generalizing start with
  | nil => simp [locate] at h
  | cons m ms ih =>
    simp only [locate, List.mem_cons, Prod.mk.injEq] at h
    simp only [Node.sizeAll]
    rcases h with ⟨rfl, rfl⟩ | h
    · omega
    · have := ih h
      omega

/-- Two nodes side by side whose positions overlap are one. -/
theorem locate_unique {start : Nat} {ns : List Node} {p q : Nat} {m n : Node}
    (hm : (p, m) ∈ locate start ns) (hn : (q, n) ∈ locate start ns)
    (hpq : p < q + n.size) (hqp : q < p + m.size) : p = q ∧ m = n := by
  induction ns generalizing start with
  | nil => simp [locate] at hm
  | cons k ks ih =>
    simp only [locate, List.mem_cons, Prod.mk.injEq] at hm hn
    -- one of them at the front would end before the other starts
    rcases hm with ⟨rfl, rfl⟩ | hm
    · rcases hn with ⟨rfl, rfl⟩ | hn
      · exact ⟨rfl, rfl⟩
      · have := locate_bounds hn
        omega
    · rcases hn with ⟨rfl, rfl⟩ | hn
      · have := locate_bounds hm
        omega
      · exact ih hm hn

/-! ## Places -/

/-- Nothing stands in a forest without nodes. -/
theorem not_stands_nil {start position : Nat} {ancestors : List Located} {node : Node} :
    ¬ Stands start [] ancestors position node := by
  intro h
  cases h with
  | top h => simp [locate] at h
  | inside h _ => simp [locate] at h

/-- The places of a forest are those in its first node and those in the others. -/
theorem stands_cons {start position : Nat} {n : Node} {ns : List Node}
    {ancestors : List Located} {node : Node} :
    Stands start (n :: ns) ancestors position node ↔
      Stands start [n] ancestors position node ∨
        Stands (start + n.size) ns ancestors position node := by
  constructor
  · intro h
    cases h with
    | top h =>
      simp only [locate, List.mem_cons] at h
      rcases h with h | h
      · exact .inl (.top (by simp [locate, h]))
      · exact .inr (.top h)
    | inside h below =>
      simp only [locate, List.mem_cons] at h
      rcases h with h | h
      · exact .inl (.inside (by simp [locate, h]) below)
      · exact .inr (.inside h below)
  · rintro (h | h)
    · cases h with
      | top h => exact .top (by simp_all [locate])
      | inside h below => exact .inside (by simp_all [locate]) below
    · cases h with
      | top h => exact .top (by simp [locate, h])
      | inside h below => exact .inside (by simp [locate, h]) below

/-- In an element stand the element itself and what stands in its contents. -/
theorem stands_element {start position : Nat} {name : String} {attributes : List Attribute}
    {contents : List Node} {ancestors : List Located} {node : Node} :
    Stands start [.element name attributes contents] ancestors position node ↔
      (ancestors = [] ∧ position = start ∧ node = .element name attributes contents) ∨
      ∃ inner, ancestors = ⟨start, ⟨name, attributes, contents⟩⟩ :: inner ∧
        Stands (start + 1) contents inner position node := by
  constructor
  · intro h
    cases h with
    | top h =>
      simp only [locate, List.mem_singleton, Prod.mk.injEq] at h
      exact .inl ⟨rfl, h.1, h.2⟩
    | inside h below =>
      simp only [locate, List.mem_singleton, Prod.mk.injEq, Node.element.injEq] at h
      rcases h with ⟨rfl, rfl, rfl, rfl⟩
      exact .inr ⟨_, rfl, below⟩
  · rintro (⟨rfl, rfl, rfl⟩ | ⟨inner, rfl, below⟩)
    · exact .top (by simp [locate])
    · exact .inside (by simp [locate]) below

/-- A text stands in itself and holds nothing. -/
theorem stands_text {start position : Nat} {content : String} {ancestors : List Located}
    {node : Node} :
    Stands start [.text content] ancestors position node ↔
      ancestors = [] ∧ position = start ∧ node = .text content := by
  constructor
  · intro h
    cases h with
    | top h =>
      simp only [locate, List.mem_singleton, Prod.mk.injEq] at h
      exact ⟨rfl, h.1, h.2⟩
    | inside h _ => simp [locate] at h
  · rintro ⟨rfl, rfl, rfl⟩
    exact .top (by simp [locate])

/-- What stands in a forest stands within its positions. -/
theorem Stands.bounds {start position : Nat} {ns : List Node} {ancestors : List Located}
    {node : Node} (h : Stands start ns ancestors position node) :
    start ≤ position ∧ position < start + Node.sizeAll ns := by
  induction h with
  | @top start ns position n h =>
    have hb := locate_bounds h
    have hp := n.size_pos
    omega
  | inside h _ ih =>
    have hb := locate_bounds h
    simp only [Node.size] at hb
    omega

/-- The ancestors around a node stand in the forest themselves, each below the ones
before it. -/
theorem Stands.ancestor {start position : Nat} {ns : List Node} {ancestors : List Located}
    {node : Node} (h : Stands start ns ancestors position node) {outer inner : List Located}
    {a : Located} (ha : ancestors = outer ++ a :: inner) :
    Stands start ns outer a.position a.element.toNode := by
  induction h generalizing outer with
  | top _ => simp at ha
  | inside h _ ih =>
    cases outer with
    | nil =>
      simp only [List.nil_append, List.cons.injEq] at ha
      rcases ha with ⟨rfl, -⟩
      exact .top h
    | cons b outer =>
      simp only [List.cons_append, List.cons.injEq] at ha
      rcases ha with ⟨rfl, ha⟩
      exact .inside h (ih ha)

/-- A position determines the node that stands there and the ancestors around it. -/
theorem Stands.unique {start position : Nat} {ns : List Node}
    {ancestors ancestors' : List Located} {node node' : Node}
    (h : Stands start ns ancestors position node)
    (h' : Stands start ns ancestors' position node') : ancestors = ancestors' ∧ node = node' := by
  induction h generalizing ancestors' with
  | @top start ns position n h =>
    cases h' with
    | top h' =>
      have hn := n.size_pos
      have hn' := node'.size_pos
      exact ⟨rfl, (locate_unique h h' (by omega) (by omega)).2⟩
    | inside h' below =>
      -- a node at the top would stand both at its own position and inside another
      have hb := below.bounds
      have hu := locate_unique h h' (by simp only [Node.size]; omega) (by omega)
      omega
  | inside h below ih =>
    cases h' with
    | top h' =>
      have hb := below.bounds
      have hu := locate_unique h' h (by simp only [Node.size]; omega) (by omega)
      omega
    | inside h' below' =>
      -- both stand in the element that holds the position
      have hb := below.bounds
      have hb' := below'.bounds
      have hu := locate_unique h h' (by simp only [Node.size]; omega)
        (by simp only [Node.size]; omega)
      simp only [Node.element.injEq] at hu
      rcases hu with ⟨rfl, rfl, rfl, rfl⟩
      rcases ih below' with ⟨rfl, rfl⟩
      exact ⟨rfl, rfl⟩

end MarkupQuery
