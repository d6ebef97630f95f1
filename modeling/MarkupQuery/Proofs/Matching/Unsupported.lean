import MarkupQuery.Proofs.Matching.Compounds
import MarkupQuery.Proofs.Matching.Places
import MarkupQuery.Query

/-!
# MarkupQuery.Proofs.Matching.Unsupported — when a selector fails, and at which token

A group may hold tokens that the search cannot deal with. Only the first of them matters,
and it is reported exactly if the search comes to it: if there is a node whose ancestors
satisfy the compounds before, and which passes the tokens before it in its own compound
(`Document.Meets`). A text and the document itself pass a compound without tokens, and
nothing else. If there is no such node the search succeeds and finds nothing.

Shape of the proof: `Answers` says this of one forest, for the compounds still to be
matched; `findInNodes_answers` follows the search by induction on the forest.
-/

namespace MarkupQuery

open Selector (Token Group)

/-! ## The first unsupported token -/

/-- The first token of a group that the search cannot deal with: the compounds `earlier`
stand before the one that holds it, and the tokens `passed` before it in that compound. -/
structure FirstUnsupported (group : Group) (earlier : List Group) (passed : Group) (u : Token) :
    Prop where
  split : ∃ later others, compounds group = earlier ++ (passed ++ u :: later) :: others
  earlier_supported : ∀ c ∈ earlier, ∀ t ∈ c, t.IsSupported
  passed_supported : ∀ t ∈ passed, t.IsSupported
  unsupported : ¬ u.IsSupported

/-- Where some member of a list fails a test there is a first that does. -/
theorem exists_first_not {α : Type} {p : α → Prop} {xs : List α} (h : ∃ x ∈ xs, ¬ p x) :
    ∃ front x back, xs = front ++ x :: back ∧ (∀ y ∈ front, p y) ∧ ¬ p x := by
  induction xs with
  | nil => simp at h
  | cons y ys ih =>
    by_cases hy : p y
    · have hys : ∃ x ∈ ys, ¬ p x := by
        rcases h with ⟨x, hx, hpx⟩
        rcases List.mem_cons.1 hx with rfl | hx
        · exact absurd hy hpx
        · exact ⟨x, hx, hpx⟩
      rcases ih hys with ⟨front, x, back, rfl, hfront, hx⟩
      refine ⟨y :: front, x, back, rfl, ?_, hx⟩
      intro z hz
      rcases List.mem_cons.1 hz with rfl | hz
      · exact hy
      · exact hfront z hz
    · exact ⟨[], y, ys, rfl, by simp, hy⟩

/-- A group with an unsupported token has a first one. -/
theorem exists_firstUnsupported {group : Group} (h : ∃ t ∈ group, ¬ t.IsSupported) :
    ∃ earlier passed u, FirstUnsupported group earlier passed u := by
  rcases h with ⟨t, ht, hu⟩
  rcases exists_compound_of_mem ht (fun heq => hu (.inr heq)) with ⟨c, hc, htc⟩
  have hbad : ∃ c ∈ compounds group, ¬ ∀ t ∈ c, t.IsSupported :=
    ⟨c, hc, fun hall => hu (hall t htc)⟩
  rcases exists_first_not hbad with ⟨earlier, c, others, hsplit, hearlier, hc⟩
  have hbad' : ∃ t ∈ c, ¬ t.IsSupported := by
    by_contra hnone
    exact hc fun t ht => by_contra fun hnot => hnone ⟨t, ht, hnot⟩
  rcases exists_first_not hbad' with ⟨passed, u, later, rfl, hpassed, hu⟩
  exact ⟨earlier, passed, u, ⟨later, others, hsplit⟩, hearlier, hpassed, hu⟩

/-! ## Meeting it -/

/-- In a forest there is a node that passes `passed` below ancestors that satisfy the
compounds `earlier`. -/
def Meets (earlier : List Group) (passed : Group) (start : Nat) (ns : List Node) : Prop :=
  ∃ ancestors position node, Stands start ns ancestors position node ∧
    Descends earlier ancestors ∧ node.Satisfies passed

/-- The search comes to the token behind `earlier` and `passed`: at some node of the
document, or at the document itself, which has no ancestors and is no element. -/
def Document.Meets (d : Document) (earlier : List Group) (passed : Group) : Prop :=
  (earlier = [] ∧ passed = []) ∨
    ∃ ancestors position node, d.Stands ancestors position node ∧
      Descends earlier ancestors ∧ node.Satisfies passed

/-- The answer is a report of `u` if it is met, and nothing found otherwise. -/
def Answers (u : Token) (met : Prop) (answer : Except Error (List Located)) : Prop :=
  (met → answer = .error (.unsupported u)) ∧ (¬ met → answer = .ok [])

/-- A token is met in a forest if it is met in its first node or in the others. -/
theorem meets_cons {earlier : List Group} {passed : Group} {start : Nat} {n : Node}
    {ns : List Node} :
    Meets earlier passed start (n :: ns) ↔
      Meets earlier passed start [n] ∨ Meets earlier passed (start + n.size) ns := by
  constructor
  · rintro ⟨ancestors, position, node, hs, hrest⟩
    rcases stands_cons.1 hs with h | h
    · exact .inl ⟨ancestors, position, node, h, hrest⟩
    · exact .inr ⟨ancestors, position, node, h, hrest⟩
  · rintro (⟨ancestors, position, node, h, hrest⟩ | ⟨ancestors, position, node, h, hrest⟩)
    · exact ⟨ancestors, position, node, stands_cons.2 (.inl h), hrest⟩
    · exact ⟨ancestors, position, node, stands_cons.2 (.inr h), hrest⟩

/-- Nothing is met in a forest without nodes. -/
theorem not_meets_nil {earlier : List Group} {passed : Group} {start : Nat} :
    ¬ Meets earlier passed start [] := by
  rintro ⟨ancestors, position, node, hs, -⟩
  exact not_stands_nil hs

/-- In a text a token is met only if nothing stands before it. -/
theorem meets_text {earlier : List Group} {passed : Group} {start : Nat} {content : String} :
    Meets earlier passed start [.text content] ↔ earlier = [] ∧ passed = [] := by
  constructor
  · rintro ⟨ancestors, position, node, hs, hd, hp⟩
    rcases stands_text.1 hs with ⟨rfl, -, rfl⟩
    exact ⟨descends_nil_right.1 hd, hp⟩
  · rintro ⟨rfl, rfl⟩
    exact ⟨[], start, _, stands_text.2 ⟨rfl, rfl, rfl⟩, descends_nil _, rfl⟩

section Element

variable {start : Nat} {name : String} {attributes : List Attribute} {contents : List Node}

/-- A token of the first compound is met in an element that passes what stands before it,
and in what is inside the element. -/
theorem meets_element_nil {passed : Group} :
    Meets [] passed start [.element name attributes contents] ↔
      Element.Satisfies ⟨name, attributes, contents⟩ passed ∨
        Meets [] passed (start + 1) contents := by
  constructor
  · rintro ⟨ancestors, position, node, hs, -, hp⟩
    rcases stands_element.1 hs with ⟨-, -, rfl⟩ | ⟨inner, -, hin⟩
    · exact .inl hp
    · exact .inr ⟨inner, position, node, hin, descends_nil _, hp⟩
  · rintro (hp | ⟨inner, position, node, hin, -, hp⟩)
    · exact ⟨[], start, _, stands_element.2 (.inl ⟨rfl, rfl, rfl⟩), descends_nil _, hp⟩
    · exact ⟨_, position, node, stands_element.2 (.inr ⟨inner, rfl, hin⟩), descends_nil _, hp⟩

/-- A token of a later compound is met in an element only inside it: there as by `inner`,
if below the element the earlier compounds are met as `inner` is. -/
theorem meets_element_cons {c : Group} {cs inner : List Group} {passed : Group}
    (hbelow : ∀ ancestors, Descends (c :: cs) (⟨start, ⟨name, attributes, contents⟩⟩ :: ancestors) ↔
      Descends inner ancestors) :
    Meets (c :: cs) passed start [.element name attributes contents] ↔
      Meets inner passed (start + 1) contents := by
  constructor
  · rintro ⟨ancestors, position, node, hs, hd, hp⟩
    rcases stands_element.1 hs with ⟨rfl, -, -⟩ | ⟨within, rfl, hin⟩
    · exact absurd (descends_nil_right.1 hd) (by simp)
    · exact ⟨within, position, node, hin, (hbelow _).1 hd, hp⟩
  · rintro ⟨within, position, node, hin, hd, hp⟩
    exact ⟨_, position, node, stands_element.2 (.inr ⟨within, rfl, hin⟩), (hbelow _).2 hd, hp⟩

end Element

/-! ## The search -/

/-- Answers for two parts of a forest make one for both: the first report ends the search. -/
theorem answers_cons {u : Token} {met met' : Prop} {group : Group} {start : Nat} {n : Node}
    {ns : List Node} (hn : Answers u met (findInNode group start n))
    (hns : Answers u met' (findInNodes group (start + n.size) ns)) :
    Answers u (met ∨ met') (findInNodes group start (n :: ns)) := by
  by_cases h : met
  · -- the others are not looked at
    have herr := hn.1 h
    refine ⟨fun _ => by simp only [findInNodes, herr], fun hnot => absurd (.inl h) hnot⟩
  · have hok := hn.2 h
    refine ⟨?_, ?_⟩
    · intro hor
      have herr := hns.1 (hor.resolve_left h)
      simp only [findInNodes, hok, herr]
    · intro hnot
      have hok' := hns.2 fun h' => hnot (.inr h')
      simp only [findInNodes, hok, hok', List.append_nil]

mutual

/-- The search of a node reports the first unsupported token if it is met there. -/
theorem findInNode_answers (n : Node) (group : Group) (start : Nat) {earlier : List Group}
    {passed later : Group} {u : Token} {others : List Group}
    (hsplit : compounds group = earlier ++ (passed ++ u :: later) :: others)
    (he : ∀ c ∈ earlier, ∀ t ∈ c, t.HasTest) (hp : ∀ t ∈ passed, t.HasTest)
    (hu : ¬ u.HasTest) :
    Answers u (Meets earlier passed start [n]) (findInNode group start n) := by
  have hcut := compounds_eq group
  rw [hsplit] at hcut
  cases earlier with
  | nil =>
    -- the token is in the first compound, so no node ever satisfies that
    simp only [List.nil_append, List.cons.injEq] at hcut
    cases n with
    | text content =>
      have htest := compoundHolds_of_untested none later hp hu
      rw [hcut.1, passes_none] at htest
      rw [meets_text]
      refine ⟨fun h => by simp only [findInNode, htest.1 h.2], ?_⟩
      intro hnot
      simp only [findInNode, htest.2 fun h => hnot ⟨rfl, h⟩]
    | element name attributes contents =>
      have htest := compoundHolds_of_untested (some ⟨name, attributes, contents⟩)
        later hp hu
      rw [hcut.1, passes_some] at htest
      have ih := findInNodes_answers contents group (start + 1) hsplit he hp hu
      rw [meets_element_nil]
      by_cases hself : Element.Satisfies ⟨name, attributes, contents⟩ passed
      · -- the search ends here, whatever is inside
        have herr := htest.1 hself
        exact ⟨fun _ => by simp only [findInNode, herr], fun hnot => absurd (.inl hself) hnot⟩
      · have hok := htest.2 hself
        simp only [findInNode, hok, or_iff_right hself]
        exact ih
  | cons c cs =>
    -- the first compound is decided, and the search goes on with it or behind it
    simp only [List.cons_append, List.cons.injEq] at hcut
    have hfirst : ∀ t ∈ (splitDescendant group).1, t.HasTest := by
      rw [← hcut.1]
      exact he c List.mem_cons_self
    cases n with
    | text content =>
      -- a text has nothing inside of it to go on in
      rcases compoundHolds_of_tests none hfirst with ⟨b, hb, -⟩
      simp only [findInNode, hb, meets_text]
      exact ⟨fun h => absurd h.1 (by simp), fun _ => rfl⟩
    | element name attributes contents =>
      rcases compoundHolds_of_tests (some ⟨name, attributes, contents⟩) hfirst with
        ⟨b, hb, hiff⟩
      rw [passes_some, ← hcut.1] at hiff
      simp only [findInNode, hb]
      cases b with
      | false =>
        have hself : ¬ Element.Satisfies ⟨name, attributes, contents⟩ c := by
          intro h
          exact absurd (hiff.2 h) (by simp)
        rw [meets_element_cons fun ancestors => descends_cons_of_not_satisfies hself]
        exact findInNodes_answers contents group (start + 1) hsplit he hp hu
      | true =>
        rw [meets_element_cons fun ancestors => descends_cons_of_satisfies (hiff.1 rfl)]
        cases hlater : (splitDescendant group).2 with
        | none => simp [hlater] at hcut
        | some more =>
          simp only [hlater, Option.map_some, Option.getD_some] at hcut
          exact findInNodes_answers contents more (start + 1) hcut.2.symm
            (fun c hc => he c (List.mem_cons_of_mem _ hc)) hp hu

/-- The search of a forest reports the first unsupported token if it is met there. -/
theorem findInNodes_answers (ns : List Node) (group : Group) (start : Nat)
    {earlier : List Group} {passed later : Group} {u : Token} {others : List Group}
    (hsplit : compounds group = earlier ++ (passed ++ u :: later) :: others)
    (he : ∀ c ∈ earlier, ∀ t ∈ c, t.HasTest) (hp : ∀ t ∈ passed, t.HasTest)
    (hu : ¬ u.HasTest) :
    Answers u (Meets earlier passed start ns) (findInNodes group start ns) := by
  cases ns with
  | nil =>
    refine ⟨fun h => absurd h not_meets_nil, fun _ => ?_⟩
    simp only [findInNodes]
  | cons n ns =>
    have hn := findInNode_answers n group start hsplit he hp hu
    have hns := findInNodes_answers ns group (start + n.size) hsplit he hp hu
    rw [meets_cons]
    exact answers_cons hn hns

end

/-- The search of a document reports the first unsupported token if it is met. -/
theorem findGroup_answers (d : Document) {group : Group} {earlier : List Group}
    {passed : Group} {u : Token} (h : FirstUnsupported group earlier passed u) :
    Answers u (d.Meets earlier passed) (d.findGroup group) := by
  rcases h.split with ⟨later, others, hsplit⟩
  have htest : ∀ c ∈ compounds group, ∀ t ∈ c, t.IsSupported → t.HasTest := by
    intro c hc t ht hsupp
    exact hsupp.resolve_right (mem_of_mem_compounds hc ht).2
  have he : ∀ c ∈ earlier, ∀ t ∈ c, t.HasTest := by
    intro c hc t ht
    exact htest c (by simp [hsplit, hc]) t ht (h.earlier_supported c hc t ht)
  have hp : ∀ t ∈ passed, t.HasTest := by
    intro t ht
    exact htest (passed ++ u :: later) (by simp [hsplit]) t (by simp [ht])
      (h.passed_supported t ht)
  have hu : ¬ u.HasTest := fun hu => h.unsupported (.inl hu)
  have hforest := findInNodes_answers d.contents group 0 hsplit he hp hu
  -- the document is tested before its nodes
  have hcut := compounds_eq group
  rw [hsplit] at hcut
  cases earlier with
  | nil =>
    simp only [List.nil_append, List.cons.injEq] at hcut
    have htest := compoundHolds_of_untested none later hp hu
    rw [hcut.1, passes_none] at htest
    by_cases hroot : passed = []
    · -- the document passes what has no tokens, and fails at once
      have herr := htest.1 hroot
      refine ⟨fun _ => by simp only [Document.findGroup, herr], ?_⟩
      intro hnot
      exact absurd (.inl ⟨rfl, hroot⟩) hnot
    · have hmeets : d.Meets [] passed ↔ Meets [] passed 0 d.contents :=
        or_iff_right fun hr => hroot hr.2
      rw [hmeets]
      simp only [Document.findGroup, htest.2 hroot]
      exact hforest
  | cons c cs =>
    simp only [List.cons_append, List.cons.injEq] at hcut
    have hfirst : ∀ t ∈ (splitDescendant group).1, t.HasTest := by
      rw [← hcut.1]
      exact he c List.mem_cons_self
    -- the test of the document has no say where the first compound is decided
    rcases compoundHolds_of_tests none hfirst with ⟨b, hb, -⟩
    have hmeets : d.Meets (c :: cs) passed ↔ Meets (c :: cs) passed 0 d.contents :=
      or_iff_right fun hr => absurd hr.1 (by simp)
    rw [hmeets]
    simp only [Document.findGroup, hb]
    exact hforest

/-- A selector that is read to its end and whose first group holds an unsupported token
has a first such token. It fails exactly if the search meets that one, and then reports
it; in every other case it succeeds and finds nothing. -/
theorem find_unsupported_iff (q : Query) {selector : String} {groups : List Group}
    (hread : Selector.parse selector = .ok groups)
    (hu : ∃ t ∈ groups.headD [], ¬ t.IsSupported) :
    (∃ earlier passed u, FirstUnsupported (groups.headD []) earlier passed u) ∧
    ∀ earlier passed u, FirstUnsupported (groups.headD []) earlier passed u →
      (q.find selector = .error (.unsupported u) ↔ q.document.Meets earlier passed) ∧
      (¬ q.document.Meets earlier passed → q.find selector = .ok ⟨[]⟩) := by
  refine ⟨exists_firstUnsupported hu, ?_⟩
  intro earlier passed u hfirst
  have hanswer := findGroup_answers q.document hfirst
  have hok : ¬ q.document.Meets earlier passed → q.find selector = .ok ⟨[]⟩ := by
    intro hnot
    simp only [Query.find, hread, hanswer.2 hnot]
  refine ⟨⟨?_, ?_⟩, hok⟩
  · intro herr
    by_contra hnot
    rw [hok hnot] at herr
    simp at herr
  · intro hmet
    simp only [Query.find, hread, hanswer.1 hmet]

/-- In `ul li#main` the id is the first unsupported token. The search meets it at an item
below a list, but not where the item stands outside of lists. -/
theorem find_unsupported_below_list :
    let group : Group := [.tag "ul", .combinator .descendant, .tag "li", .ofId "main"]
    let item : Node := .element "li" [] []
    let inside : Query := ⟨⟨[.text "a", .element "ul" [] [.text "b", item]]⟩⟩
    let outside : Query := ⟨⟨[item, .element "ul" [] [.text "b"]]⟩⟩
    Selector.parse "ul li#main, a" = .ok [group, [.tag "a"]] ∧
      (∃ t ∈ group, ¬ t.IsSupported) ∧
      FirstUnsupported group [[.tag "ul"]] [.tag "li"] (.ofId "main") ∧
      inside.document.Meets [[.tag "ul"]] [.tag "li"] ∧
      ¬ outside.document.Meets [[.tag "ul"]] [.tag "li"] := by
  intro group item inside outside
  have hread : Selector.parse "ul li#main, a" = .ok [group, [.tag "a"]] := by decide +kernel
  have hu : ∃ t ∈ group, ¬ t.IsSupported := by decide
  have hfirst : FirstUnsupported group [[.tag "ul"]] [.tag "li"] (.ofId "main") :=
    ⟨⟨[], [], by decide⟩, by decide, by decide, by decide⟩
  have hinside : inside.find "ul li#main, a" = .error (.unsupported (.ofId "main")) := by
    decide +kernel
  have houtside : outside.find "ul li#main, a" = .ok ⟨[]⟩ := by decide +kernel
  refine ⟨hread, hu, hfirst, ?_, ?_⟩
  · exact ((find_unsupported_iff inside hread hu).2 _ _ _ hfirst).1.1 hinside
  · intro hmet
    have herr := ((find_unsupported_iff outside hread hu).2 _ _ _ hfirst).1.2 hmet
    rw [houtside] at herr
    simp at herr

end MarkupQuery
