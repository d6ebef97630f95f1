import MarkupQuery.Proofs.Matching.Outermost
import MarkupQuery.Proofs.Matching.Unsupported

/-!
# MarkupQuery.Proofs.Matching.Composition — a descendant combinator composes two searches

To search for `group`, a descendant combinator and `later` is to search for `group` first, and
then for `later` in the nodes inside of each element found (`findGroup_descendant`). The one
search meets the tokens of both in another order than the two do, so it has to be said which
failure is reported.

The two agree since a single compound never both fails and finds something: if it has a token
without a test, nothing ever satisfies it, and `later` is not searched for at all; otherwise
the search for it cannot fail, and only the searches for `later` can, which come in the same
order in both.
-/

namespace MarkupQuery

open Selector (Token Group)

/-! ## Searching several nodes -/

/-- The nodes directly inside an element, texts included, with their places. -/
def Located.childNodes (l : Located) : List (Nat × Node) :=
  locate (l.position + 1) l.element.contents

/-- What is found in each of these nodes, one behind the other. The first failure ends it. -/
def findInEach (group : Group) (nodes : List (Nat × Node)) : Except Error (List Located) := do
  let found ← nodes.mapM fun (position, node) => findInNode group position node
  return found.flatten

/-- What is found inside of these elements, in their order. -/
def findInside (group : Group) (ls : List Located) : Except Error (List Located) :=
  findInEach group (ls.flatMap Located.childNodes)

theorem findInEach_cons (group : Group) (position : Nat) (node : Node)
    (nodes : List (Nat × Node)) :
    findInEach group ((position, node) :: nodes) = do
      let found ← findInNode group position node
      let more ← findInEach group nodes
      return found ++ more := by
  simp [findInEach, List.mapM_cons]

/-- What is found in some nodes and then in others is found in all of them. -/
theorem findInEach_append (group : Group) (nodes others : List (Nat × Node)) :
    findInEach group (nodes ++ others) = do
      let found ← findInEach group nodes
      let more ← findInEach group others
      return found ++ more := by
  simp [findInEach, List.mapM_append]

theorem findInside_append (group : Group) (ls others : List Located) :
    findInside group (ls ++ others) = do
      let found ← findInside group ls
      let more ← findInside group others
      return found ++ more := by
  rw [findInside, List.flatMap_append, findInEach_append]
  rfl

/-- In a forest the first node is searched and then the others. -/
theorem findInNodes_cons (group : Group) (start : Nat) (n : Node) (ns : List Node) :
    findInNodes group start (n :: ns) = do
      let found ← findInNode group start n
      let more ← findInNodes group (start + n.size) ns
      return found ++ more := by
  rw [findInNodes]
  cases findInNode group start n with
  | error err => rfl
  | ok found =>
    cases findInNodes group (start + n.size) ns with
    | error err => rfl
    | ok more => rfl

theorem findInNodes_eq (group : Group) (start : Nat) (ns : List Node) :
    findInNodes group start ns = findInEach group (locate start ns) := by
  induction ns generalizing start with
  | nil => rfl
  | cons n ns ih => rw [findInNodes_cons, locate, findInEach_cons, ih]

/-! ## Groups of one compound -/

/-- A group without descendant combinators is part of the first compound. -/
theorem splitDescendant_append {group : Group} (hgroup : .combinator .descendant ∉ group)
    (tail : Group) :
    splitDescendant (group ++ tail) =
      (group ++ (splitDescendant tail).1, (splitDescendant tail).2) := by
  induction group with
  | nil => rfl
  | cons t ts ih =>
    rw [List.mem_cons, not_or] at hgroup
    rw [List.cons_append, splitDescendant.eq_3 _ _ (Ne.symm hgroup.1), ih hgroup.2]
    rfl

/-- It is cut at the first one behind it. -/
theorem splitDescendant_descendant {group : Group} (hgroup : .combinator .descendant ∉ group)
    (later : Group) :
    splitDescendant (group ++ .combinator .descendant :: later) = (group, some later) := by
  rw [splitDescendant_append hgroup, splitDescendant, List.append_nil]

/-- On its own it is one compound. -/
theorem splitDescendant_of_not_mem {group : Group} (hgroup : .combinator .descendant ∉ group) :
    splitDescendant group = (group, none) := by
  have hcut := splitDescendant_append hgroup []
  rwa [splitDescendant, List.append_nil] at hcut

theorem compounds_of_not_mem {group : Group} (hgroup : .combinator .descendant ∉ group) :
    compounds group = [group] := by
  rw [compounds_eq, splitDescendant_of_not_mem hgroup]
  rfl

theorem compounds_append {group : Group} (hgroup : .combinator .descendant ∉ group)
    (later : Group) :
    compounds (group ++ .combinator .descendant :: later) = group :: compounds later := by
  rw [compounds_eq, splitDescendant_descendant hgroup]
  rfl

/-! ## A compound that has all its tests -/

section Tested

variable {group : Group} (hgroup : .combinator .descendant ∉ group)
  (htests : ∀ t ∈ group, t.HasTest)

include hgroup htests

/-- All the tokens of its compounds have a test, so the search for it does not fail. -/
theorem hasTest_of_mem_single : ∀ c ∈ compounds group, ∀ t ∈ c, t.HasTest := by
  rw [compounds_of_not_mem hgroup]
  simpa using htests

mutual

/-- What the search comes to inside of a node is what it comes to inside of the elements that
the compound finds there. -/
theorem findInNode_descendant (later : Group) (start : Nat) (n : Node) :
    findInNode (group ++ .combinator .descendant :: later) start n =
      findInNode group start n >>= findInside later := by
  have hcut := splitDescendant_descendant hgroup later
  have hone := splitDescendant_of_not_mem hgroup
  cases n with
  | text content =>
    obtain ⟨b, hb, -⟩ := compoundHolds_of_tests none htests
    simp only [findInNode, hcut, hone, hb]
    rfl
  | element name attributes contents =>
    obtain ⟨b, hb, -⟩ := compoundHolds_of_tests (some ⟨name, attributes, contents⟩) htests
    simp only [findInNode, hcut, hone, hb]
    cases b with
    | false => exact findInNodes_descendant later (start + 1) contents
    | true =>
      -- the element is found, and its contents are where the search goes on
      show findInNodes later (start + 1) contents =
        findInside later [⟨start, ⟨name, attributes, contents⟩⟩]
      rw [findInNodes_eq, findInside, List.flatMap_singleton]
      rfl

theorem findInNodes_descendant (later : Group) (start : Nat) (ns : List Node) :
    findInNodes (group ++ .combinator .descendant :: later) start ns =
      findInNodes group start ns >>= findInside later := by
  cases ns with
  | nil =>
    simp only [findInNodes]
    rfl
  | cons n ns =>
    have hs := hasTest_of_mem_single hgroup htests
    obtain ⟨found, hfound, -⟩ := findInNode_finds n group start hs
    obtain ⟨more, hmore, -⟩ := findInNodes_finds ns group (start + n.size) hs
    have hn := findInNode_descendant later start n
    have hns := findInNodes_descendant later (start + n.size) ns
    rw [findInNodes_cons, findInNodes_cons, hn, hns, hfound, hmore]
    show _ = findInside later (found ++ more)
    rw [findInside_append]
    rfl

end

end Tested

/-! ## A compound that lacks a test -/

/-- With a token that has no test in it, the compound finds nothing anywhere, and what stands
behind it has no say. -/
theorem findGroup_of_untested (d : Document) {group : Group}
    (hgroup : .combinator .descendant ∉ group) (hno : ¬ ∀ t ∈ group, t.HasTest)
    (later : Group) :
    d.findGroup (group ++ .combinator .descendant :: later) = d.findGroup group ∧
      ∀ found, d.findGroup group = .ok found → found = [] := by
  have hunsupported : ∃ t ∈ group, ¬ t.IsSupported := by
    by_contra hall
    refine hno fun t ht => ?_
    have hsupported : t.IsSupported := by_contra fun h => hall ⟨t, ht, h⟩
    exact hsupported.resolve_right fun h => hgroup (h ▸ ht)
  obtain ⟨earlier, passed, u, hfirst⟩ := exists_firstUnsupported hunsupported
  obtain ⟨last, others, hsplit⟩ := hfirst.split
  -- the group is one compound, so the token is in the first
  obtain ⟨rfl, hone, -⟩ : earlier = [] ∧ passed ++ u :: last = group ∧ others = [] := by
    rw [compounds_of_not_mem hgroup] at hsplit
    cases earlier <;> simp_all
  have hfirst' : FirstUnsupported (group ++ .combinator .descendant :: later) [] passed u :=
    ⟨⟨last, compounds later, by rw [compounds_append hgroup, ← hone]; rfl⟩,
      hfirst.earlier_supported, hfirst.passed_supported, hfirst.unsupported⟩
  have hanswer := findGroup_answers d hfirst
  have hanswer' := findGroup_answers d hfirst'
  by_cases hmet : d.Meets [] passed
  · rw [hanswer.1 hmet, hanswer'.1 hmet]
    exact ⟨rfl, by simp⟩
  · rw [hanswer.2 hmet, hanswer'.2 hmet]
    exact ⟨rfl, by simp⟩

/-! ## The composition -/

/-- To search for a compound and, behind a descendant combinator, for a group is to search for
the compound, and then for the group in each node directly inside of each element found. If
the first search fails the failure is its own, and otherwise it is that of the first of the
other searches that fails. -/
theorem findGroup_descendant (d : Document) {group : Group}
    (hgroup : .combinator .descendant ∉ group) (later : Group) :
    d.findGroup (group ++ .combinator .descendant :: later) =
      d.findGroup group >>= findInside later := by
  by_cases htests : ∀ t ∈ group, t.HasTest
  · obtain ⟨b, hb, -⟩ := compoundHolds_of_tests none htests
    simp only [Document.findGroup, splitDescendant_descendant hgroup,
      splitDescendant_of_not_mem hgroup, hb]
    exact findInNodes_descendant hgroup htests later 0 d.contents
  · obtain ⟨hsame, hnothing⟩ := findGroup_of_untested d hgroup htests later
    rw [hsame]
    cases hfound : d.findGroup group with
    | error err => rfl
    | ok found =>
      rw [hnothing found hfound]
      rfl

/-- Of two lists the second has an item of the class `a`, and the id asked of such items is a
token without a test: `ul li.a#b` fails there, although `ul` fails nowhere. The items of both
are found by `ul li`, in their order. -/
theorem findGroup_items_of_lists :
    let list : Group := [.tag "ul"]
    let plain : Element := ⟨"li", [], []⟩
    let marked : Element := ⟨"li", [⟨"class", "a"⟩], []⟩
    let first : Element := ⟨"ul", [], [.text "x", plain.toNode]⟩
    let second : Element := ⟨"ul", [], [marked.toNode]⟩
    let d : Document := ⟨[first.toNode, plain.toNode, second.toNode]⟩
    (.combinator .descendant ∉ list) ∧
      d.findGroup list = .ok [⟨0, first⟩, ⟨4, second⟩] ∧
      d.findGroup (list ++ [.combinator .descendant, .tag "li", .ofClass "a", .ofId "b"]) =
        .error (.unsupported (.ofId "b")) ∧
      d.findGroup (list ++ [.combinator .descendant, .tag "li"]) =
        .ok [⟨2, plain⟩, ⟨5, marked⟩] := by
  intro list plain marked first second d
  have hlist : .combinator .descendant ∉ list := by decide
  have hfound : d.findGroup list = .ok [⟨0, first⟩, ⟨4, second⟩] := by decide +kernel
  refine ⟨hlist, hfound, ?_, ?_⟩
  · rw [findGroup_descendant d hlist, hfound]
    decide +kernel
  · rw [findGroup_descendant d hlist, hfound]
    decide +kernel

end MarkupQuery
