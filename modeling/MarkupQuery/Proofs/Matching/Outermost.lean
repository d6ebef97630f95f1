import MarkupQuery.Proofs.Matching.Compounds
import MarkupQuery.Proofs.Matching.Places
import MarkupQuery.Query

/-!
# MarkupQuery.Proofs.Matching.Outermost — a supported selector finds its outermost matches

For a group all of whose tokens are supported the search succeeds, and what it finds are
the outermost of the elements that the compounds of the group describe, each once and in
document order.

Shape of the proof: `Finds` says this of one forest and of the compounds still to be
matched. The lemmas `finds_*` are its cases, one for each way the search goes on from a
node; `findInNodes_finds` puts them together by induction on the forest. The search takes
the first ancestor that satisfies a compound; `described_cons_of_satisfies` is why nothing
is lost by that.
-/

namespace MarkupQuery

open Selector (Token Group)

/-! ## Matches -/

/-- The compounds describe the element where it stands in the document. -/
def Document.IsMatch (d : Document) (cs : List Group) (l : Located) : Prop :=
  ∃ ancestors, d.Stands ancestors l.position l.element.toNode ∧ Described cs ancestors l.element

/-- The element `a` of the document is a proper ancestor of `l`. -/
def Document.IsAncestor (d : Document) (a l : Located) : Prop :=
  ∃ ancestors, d.Stands ancestors l.position l.element.toNode ∧ a ∈ ancestors

/-- The element is a match, and none of its proper ancestors is. -/
def Document.IsOutermostMatch (d : Document) (cs : List Group) (l : Located) : Prop :=
  d.IsMatch cs l ∧ ∀ a, d.IsAncestor a l → ¬ d.IsMatch cs a

/-- An outermost match within a forest: the compounds describe it by its ancestors in the
forest, and no ancestor of it by those before that one. -/
def Outermost (cs : List Group) (start : Nat) (ns : List Node) (l : Located) : Prop :=
  ∃ ancestors, Stands start ns ancestors l.position l.element.toNode ∧
    Described cs ancestors l.element ∧
    ∀ outer a inner, ancestors = outer ++ a :: inner → ¬ Described cs outer a.element

/-- The answer of a search is the list of the outermost matches of a forest, in order. -/
def Finds (cs : List Group) (start : Nat) (ns : List Node)
    (answer : Except Error (List Located)) : Prop :=
  ∃ found, answer = .ok found ∧ found.Pairwise (fun a b => a.position < b.position) ∧
    ∀ l, l ∈ found ↔ Outermost cs start ns l

/-! ## Outermost matches of a forest -/

/-- The outermost matches of a forest are those of its first node and of the others. -/
theorem outermost_cons {cs : List Group} {start : Nat} {n : Node} {ns : List Node}
    {l : Located} :
    Outermost cs start (n :: ns) l ↔
      Outermost cs start [n] l ∨ Outermost cs (start + n.size) ns l := by
  constructor
  · rintro ⟨ancestors, hs, hrest⟩
    rcases stands_cons.1 hs with h | h
    · exact .inl ⟨ancestors, h, hrest⟩
    · exact .inr ⟨ancestors, h, hrest⟩
  · rintro (⟨ancestors, h, hrest⟩ | ⟨ancestors, h, hrest⟩)
    · exact ⟨ancestors, stands_cons.2 (.inl h), hrest⟩
    · exact ⟨ancestors, stands_cons.2 (.inr h), hrest⟩

/-- A text holds no match. -/
theorem not_outermost_text {cs : List Group} {start : Nat} {content : String} {l : Located} :
    ¬ Outermost cs start [.text content] l := by
  rintro ⟨ancestors, hs, -⟩
  have htext := (stands_text.1 hs).2.2
  simp [Element.toNode] at htext

/-- Where an element is not described itself, and its contents are described below it by
`cs` as they are by `inner` on their own, the outermost matches are those of its contents. -/
theorem outermost_element_of_not_described {cs inner : List Group} {start : Nat}
    {name : String} {attributes : List Attribute} {contents : List Node}
    (hself : ¬ Described cs [] ⟨name, attributes, contents⟩)
    (hbelow : ∀ ancestors e, Described cs (⟨start, ⟨name, attributes, contents⟩⟩ :: ancestors) e ↔
      Described inner ancestors e) {l : Located} :
    Outermost cs start [.element name attributes contents] l ↔
      Outermost inner (start + 1) contents l := by
  constructor
  · rintro ⟨ancestors, hs, hd, hout⟩
    rcases stands_element.1 hs with ⟨rfl, -, hnode⟩ | ⟨within, rfl, hin⟩
    · -- the element itself
      have hl : l.element = ⟨name, attributes, contents⟩ := by
        cases hle : l.element
        simp_all [Element.toNode]
      exact absurd (hl ▸ hd) hself
    · refine ⟨within, hin, (hbelow _ _).1 hd, ?_⟩
      intro outer a rest hsplit ha
      exact hout (_ :: outer) a rest (by rw [hsplit]; rfl) ((hbelow _ _).2 ha)
  · rintro ⟨within, hin, hd, hout⟩
    refine ⟨_, stands_element.2 (.inr ⟨within, rfl, hin⟩), (hbelow _ _).2 hd, ?_⟩
    intro outer a rest hsplit ha
    -- an ancestor is the element itself or one inside of it
    cases outer with
    | nil =>
      simp only [List.nil_append, List.cons.injEq] at hsplit
      rw [← hsplit.1] at ha
      exact hself ha
    | cons b outer =>
      simp only [List.cons_append, List.cons.injEq] at hsplit
      rw [← hsplit.1] at ha
      exact hout outer a rest hsplit.2 ((hbelow _ _).1 ha)

/-- An element that is described without ancestors is the only outermost match in it. -/
theorem outermost_element_of_described {cs : List Group} {start : Nat} {name : String}
    {attributes : List Attribute} {contents : List Node}
    (hself : Described cs [] ⟨name, attributes, contents⟩) {l : Located} :
    Outermost cs start [.element name attributes contents] l ↔
      l = ⟨start, ⟨name, attributes, contents⟩⟩ := by
  constructor
  · rintro ⟨ancestors, hs, -, hout⟩
    rcases stands_element.1 hs with ⟨-, hp, hnode⟩ | ⟨within, rfl, -⟩
    · cases l with
      | mk position e =>
        cases e
        simp_all [Element.toNode]
    · exact absurd hself (hout [] _ within rfl)
  · rintro rfl
    refine ⟨[], stands_element.2 (.inl ⟨rfl, rfl, rfl⟩), hself, ?_⟩
    intro outer a inner h
    simp at h

/-! ## Cases of the search -/

/-- There is nothing to be found in a forest without nodes. -/
theorem finds_nil (cs : List Group) (start : Nat) : Finds cs start [] (.ok []) := by
  refine ⟨[], rfl, List.Pairwise.nil, ?_⟩
  intro l
  constructor
  · intro h
    simp at h
  · rintro ⟨ancestors, hs, -⟩
    exact absurd hs not_stands_nil

/-- What is found in the first node stands before what is found in the others. -/
theorem finds_cons {cs : List Group} {start : Nat} {n : Node} {ns : List Node}
    {found more : List Located} (hn : Finds cs start [n] (.ok found))
    (hns : Finds cs (start + n.size) ns (.ok more)) :
    Finds cs start (n :: ns) (.ok (found ++ more)) := by
  rcases hn with ⟨_, heq, hsorted, hfound⟩
  cases heq
  rcases hns with ⟨_, heq, hsorted', hmore⟩
  cases heq
  refine ⟨_, rfl, List.pairwise_append.2 ⟨hsorted, hsorted', ?_⟩, ?_⟩
  · -- the positions in the first node end where those of the others start
    intro a ha b hb
    rcases (hfound a).1 ha with ⟨_, hsa, -⟩
    rcases (hmore b).1 hb with ⟨_, hsb, -⟩
    have hba := hsa.bounds
    have hbb := hsb.bounds
    simp only [Node.sizeAll] at hba
    omega
  · intro l
    rw [List.mem_append, hfound, hmore]
    exact outermost_cons.symm

/-- Nothing is found in a text. -/
theorem finds_text (cs : List Group) (start : Nat) (content : String) :
    Finds cs start [.text content] (.ok []) := by
  refine ⟨[], rfl, List.Pairwise.nil, ?_⟩
  intro l
  simp [not_outermost_text]

/-- In an element that does not satisfy the first compound the search goes on as before. -/
theorem finds_element_of_not_satisfies {c : Group} {cs : List Group} {start : Nat}
    {name : String} {attributes : List Attribute} {contents : List Node}
    {answer : Except Error (List Located)}
    (h : ¬ Element.Satisfies ⟨name, attributes, contents⟩ c)
    (hin : Finds (c :: cs) (start + 1) contents answer) :
    Finds (c :: cs) start [.element name attributes contents] answer := by
  rcases hin with ⟨found, rfl, hsorted, hfound⟩
  have hself : ¬ Described (c :: cs) [] ⟨name, attributes, contents⟩ := by
    by_cases hcs : cs = []
    · subst hcs
      rwa [described_singleton]
    · exact not_described_nil hcs
  refine ⟨found, rfl, hsorted, ?_⟩
  intro l
  rw [hfound]
  exact (outermost_element_of_not_described hself
    fun ancestors e => described_cons_of_not_satisfies h).symm

/-- In an element that satisfies the first of several compounds the search goes on with
the others. -/
theorem finds_element_of_satisfies {c : Group} {cs : List Group} {start : Nat}
    {name : String} {attributes : List Attribute} {contents : List Node}
    {answer : Except Error (List Located)} (hcs : cs ≠ [])
    (h : Element.Satisfies ⟨name, attributes, contents⟩ c)
    (hin : Finds cs (start + 1) contents answer) :
    Finds (c :: cs) start [.element name attributes contents] answer := by
  rcases hin with ⟨found, rfl, hsorted, hfound⟩
  refine ⟨found, rfl, hsorted, ?_⟩
  intro l
  rw [hfound]
  exact (outermost_element_of_not_described (not_described_nil hcs)
    fun ancestors e => described_cons_of_satisfies hcs h).symm

/-- An element that satisfies the last compound is found, and nothing in it. -/
theorem finds_element_of_satisfies_last {c : Group} {start : Nat} {name : String}
    {attributes : List Attribute} {contents : List Node}
    (h : Element.Satisfies ⟨name, attributes, contents⟩ c) :
    Finds [c] start [.element name attributes contents]
      (.ok [⟨start, ⟨name, attributes, contents⟩⟩]) := by
  refine ⟨_, rfl, List.pairwise_singleton _ _, ?_⟩
  intro l
  rw [outermost_element_of_described (described_singleton.2 h), List.mem_singleton]

/-! ## The search -/

mutual

/-- The search finds the outermost matches in a node. -/
theorem findInNode_finds (n : Node) (group : Group) (start : Nat)
    (hs : ∀ c ∈ compounds group, ∀ t ∈ c, t.HasTest) :
    Finds (compounds group) start [n] (findInNode group start n) := by
  have hcut := compounds_eq group
  have hfirst : ∀ t ∈ (splitDescendant group).1, t.HasTest :=
    hs _ (by rw [hcut]; exact List.mem_cons_self)
  cases n with
  | text content =>
    rcases compoundHolds_of_tests none hfirst with ⟨b, hb, -⟩
    simp only [findInNode, hb]
    exact finds_text _ _ _
  | element name attributes contents =>
    rcases compoundHolds_of_tests (some ⟨name, attributes, contents⟩) hfirst with ⟨b, hb, hiff⟩
    rw [passes_some] at hiff
    simp only [findInNode, hb]
    cases b with
    | false =>
      -- not this element: the search goes on inside for all the compounds
      have ih := findInNodes_finds contents group (start + 1) hs
      rw [hcut] at ih ⊢
      exact finds_element_of_not_satisfies (fun h => absurd (hiff.2 h) (by simp)) ih
    | true =>
      cases hlater : (splitDescendant group).2 with
      | none =>
        -- the last compound: the element itself is found
        rw [hlater] at hcut
        rw [hcut]
        exact finds_element_of_satisfies_last (hiff.1 rfl)
      | some later =>
        -- the search goes on inside for the compounds behind this one
        rw [hlater] at hcut
        simp only [Option.map_some, Option.getD_some] at hcut
        have ih := findInNodes_finds contents later (start + 1)
          fun c hc => hs c (by rw [hcut]; exact List.mem_cons_of_mem _ hc)
        rw [hcut]
        exact finds_element_of_satisfies (List.splitOn_ne_nil _ _) (hiff.1 rfl) ih

/-- The search finds the outermost matches in a forest. -/
theorem findInNodes_finds (ns : List Node) (group : Group) (start : Nat)
    (hs : ∀ c ∈ compounds group, ∀ t ∈ c, t.HasTest) :
    Finds (compounds group) start ns (findInNodes group start ns) := by
  cases ns with
  | nil =>
    simp only [findInNodes]
    exact finds_nil _ _
  | cons n ns =>
    have hn := findInNode_finds n group start hs
    have hns := findInNodes_finds ns group (start + n.size) hs
    rcases hn with ⟨found, hfound, hprops⟩
    rcases hns with ⟨more, hmore, hprops'⟩
    simp only [findInNodes, hfound, hmore]
    exact finds_cons ⟨found, rfl, hprops⟩ ⟨more, rfl, hprops'⟩

end

/-- The outermost matches of a document are those of its forest: since a position
determines the ancestors, it makes no difference by which of them one is described. -/
theorem isOutermostMatch_iff {d : Document} {cs : List Group} {l : Located} :
    d.IsOutermostMatch cs l ↔ Outermost cs 0 d.contents l := by
  constructor
  · rintro ⟨⟨ancestors, hs, hd⟩, hout⟩
    refine ⟨ancestors, hs, hd, ?_⟩
    intro outer a inner hsplit ha
    exact hout a ⟨ancestors, hs, by rw [hsplit]; simp⟩ ⟨outer, hs.ancestor hsplit, ha⟩
  · -- an ancestor that is described by any ancestors is described by those around it
    rintro ⟨ancestors, hs, hd, hout⟩
    refine ⟨⟨ancestors, hs, hd⟩, ?_⟩
    rintro a ⟨ancestors', hs', ha⟩ ⟨outer', hsa, hda⟩
    rcases hs.unique hs' with ⟨rfl, -⟩
    rcases List.append_of_mem ha with ⟨outer, inner, hsplit⟩
    rcases (hs.ancestor hsplit).unique hsa with ⟨rfl, -⟩
    exact hout outer a inner hsplit hda

/-- On a document, a group of supported tokens finds the outermost matches. -/
theorem findGroup_finds (d : Document) {group : Group} (hs : ∀ t ∈ group, t.IsSupported) :
    Finds (compounds group) 0 d.contents (d.findGroup group) := by
  have htests := hasTest_of_mem_compounds hs
  have hfirst : ∀ t ∈ (splitDescendant group).1, t.HasTest :=
    htests _ (by rw [compounds_eq group]; exact List.mem_cons_self)
  rcases compoundHolds_of_tests none hfirst with ⟨b, hb, -⟩
  simp only [Document.findGroup, hb]
  exact findInNodes_finds d.contents group 0 htests

/-- A selector that is read to its end and whose first group holds only supported tokens
finds exactly the outermost matches of that group, each once, in document order. -/
theorem find_outermost_matches (q : Query) {selector : String} {groups : List Group}
    (hread : Selector.parse selector = .ok groups)
    (hs : ∀ t ∈ groups.headD [], t.IsSupported) :
    ∃ found : List Located, q.find selector = .ok ⟨found⟩ ∧
      found.Pairwise (fun a b => a.position < b.position) ∧
      ∀ l, l ∈ found ↔ q.document.IsOutermostMatch (compounds (groups.headD [])) l := by
  rcases findGroup_finds q.document hs with ⟨found, hfound, hsorted, hmem⟩
  refine ⟨found, by simp only [Query.find, hread, hfound], hsorted, ?_⟩
  intro l
  rw [hmem, isOutermostMatch_iff]

/-- Of nested lists of the class `foo` the items found are the outermost: the one inside
another item is not, and the one outside of `foo` is no match. -/
theorem find_outermost_items :
    let group : Group := [.ofClass "foo", .combinator .descendant, .tag "li"]
    let inner : Element := ⟨"li", [], [.text "b"]⟩
    let outer : Element := ⟨"li", [], [.text "a", inner.toNode]⟩
    let list : Node := .element "ul" [⟨"class", "x"⟩, ⟨"class", "food"⟩] [outer.toNode]
    let q : Query := ⟨⟨[list, inner.toNode]⟩⟩
    Selector.parse ".foo li" = .ok [group] ∧ (∀ t ∈ group, t.IsSupported) ∧
      q.find ".foo li" = .ok ⟨[⟨1, outer⟩]⟩ ∧
      ∀ l, q.document.IsOutermostMatch (compounds group) l ↔ l = ⟨1, outer⟩ := by
  intro group inner outer list q
  have hread : Selector.parse ".foo li" = .ok [group] := by decide +kernel
  have hs : ∀ t ∈ group, t.IsSupported := by decide
  have hfind : q.find ".foo li" = .ok ⟨[⟨1, outer⟩]⟩ := by decide +kernel
  refine ⟨hread, hs, hfind, ?_⟩
  rcases find_outermost_matches q hread hs with ⟨found, hfound, -, hmem⟩
  have hone : found = [⟨1, outer⟩] := by
    rw [hfind] at hfound
    simpa using hfound.symm
  intro l
  have hl := hmem l
  rw [hone, List.mem_singleton] at hl
  exact hl.symm

end MarkupQuery
