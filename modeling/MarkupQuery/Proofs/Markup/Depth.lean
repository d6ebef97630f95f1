import MarkupQuery.Proofs.Markup.Shape
import MarkupQuery.Proofs.Matching.Places

/-!
# MarkupQuery.Proofs.Markup.Depth — how deep documents are nested

At most `maxDepth` elements are open at once, so an element that is opened has fewer than
that around it. An element that is read as a whole is never open: it is added wherever the
text has got to, also where `maxDepth` elements are open around it. Such elements, and no
others, stand one level deeper (`document_nestsWithin`).

What carries this is the number of levels that a growing tree takes up, finished or not
(`GrowingTree.levels`): closing an element does not change it, opening one makes it as large
as the number of open elements, and at the end it is the depth of the document.
-/

namespace MarkupQuery

open Markup

/-! ## Depth and ancestors -/

namespace Node

theorem depthAll_append (ms ns : List Node) :
    depthAll (ms ++ ns) = max (depthAll ms) (depthAll ns) := by
  induction ms with
  | nil => simp [depthAll]
  | cons m ms ih => rw [List.cons_append, depthAll, depthAll, ih, Nat.max_assoc]

theorem depthAll_reverse (ns : List Node) : depthAll ns.reverse = depthAll ns := by
  induction ns with
  | nil => rfl
  | cons n ns ih =>
    rw [List.reverse_cons, depthAll_append, ih, depthAll, depthAll, depthAll, Nat.max_zero,
      Nat.max_comm]

end Node

/-- What stands in a forest is nested within its depth. -/
theorem Stands.length_add_depth_le {start position : Nat} {ns : List Node}
    {ancestors : List Located} {node : Node} (h : Stands start ns ancestors position node) :
    ancestors.length + node.depth ≤ Node.depthAll ns := by
  -- a node side by side with others is as deep as they are or less
  have hside {start position : Nat} {ns : List Node} {n : Node}
      (h : (position, n) ∈ locate start ns) : n.depth ≤ Node.depthAll ns := by
    induction ns generalizing start with
    | nil => simp [locate] at h
    | cons m ms ih =>
      simp only [locate, List.mem_cons, Prod.mk.injEq] at h
      rw [Node.depthAll]
      rcases h with ⟨-, rfl⟩ | h
      · exact Nat.le_max_left _ _
      · exact (ih h).trans (Nat.le_max_right _ _)
  induction h with
  | top h => simpa using hside h
  | inside h _ ih =>
    have houter := hside h
    rw [Node.depth] at houter
    rw [List.length_cons]
    omega

mutual

/-- In an element there is an element on every level of its depth. -/
theorem exists_stands_of_lt_depth (n : Node) (start : Nat) {k : Nat} (h : k < n.depth) :
    ∃ ancestors position e, Stands start [n] ancestors position (Element.toNode e) ∧
      ancestors.length = k := by
  match n with
  | .text content => simp [Node.depth] at h
  | .element name attributes contents =>
    cases k with
    | zero =>
      exact ⟨[], start, ⟨name, attributes, contents⟩, stands_element.2 (.inl ⟨rfl, rfl, rfl⟩),
        rfl⟩
    | succ k =>
      rw [Node.depth, Nat.succ_lt_succ_iff] at h
      obtain ⟨ancestors, position, e, hstands, rfl⟩ :=
        exists_stands_of_lt_depthAll contents (start + 1) h
      exact ⟨_, position, e, stands_element.2 (.inr ⟨ancestors, rfl, hstands⟩), rfl⟩

/-- In a forest there is an element on every level of its depth. -/
theorem exists_stands_of_lt_depthAll (ns : List Node) (start : Nat) {k : Nat}
    (h : k < Node.depthAll ns) :
    ∃ ancestors position e, Stands start ns ancestors position (Element.toNode e) ∧
      ancestors.length = k := by
  match ns with
  | [] => simp [Node.depthAll] at h
  | n :: ns =>
    rw [Node.depthAll] at h
    by_cases hfirst : k < n.depth
    · obtain ⟨ancestors, position, e, hstands, hlength⟩ :=
        exists_stands_of_lt_depth n start hfirst
      exact ⟨ancestors, position, e, stands_cons.2 (.inl hstands), hlength⟩
    · obtain ⟨ancestors, position, e, hstands, hlength⟩ :=
        exists_stands_of_lt_depthAll ns (start + n.size) (k := k) (by omega)
      exact ⟨ancestors, position, e, stands_cons.2 (.inr hstands), hlength⟩

end

/-- Every element of the document has fewer than so many elements around it. -/
def Document.NestsWithin (d : Document) (levels : Nat) : Prop :=
  ∀ ancestors position e, d.Stands ancestors position (Element.toNode e) →
    ancestors.length < levels

/-- A document nests within so many levels exactly if it is no deeper. -/
theorem nestsWithin_iff {d : Document} {levels : Nat} :
    d.NestsWithin levels ↔ Node.depthAll d.contents ≤ levels := by
  constructor
  · intro h
    by_contra hdeep
    obtain ⟨ancestors, position, e, hstands, rfl⟩ :=
      exists_stands_of_lt_depthAll d.contents 0 (Nat.lt_of_not_le hdeep)
    exact Nat.lt_irrefl _ (h ancestors position e hstands)
  · intro h ancestors position e hstands
    have hdepth := Stands.length_add_depth_le hstands
    have hpos : 0 < e.toNode.depth := by
      rw [Element.toNode, Node.depth]
      omega
    omega

namespace Markup

/-! ## The levels of a growing tree -/

/-- The levels taken up by the finished nodes before open elements. -/
def levelsBefore : List OpenElement → Nat
  | [] => 0
  | e :: outer => max (Node.depthAll e.earlier + outer.length) (levelsBefore outer)

/-- An element that is read as a whole takes up one level. -/
theorem HoldsNoMarkup.depth {e : Element} (h : HoldsNoMarkup e) : e.toNode.depth = 1 := by
  rw [Element.toNode, Node.depth]
  rcases h.contents with hnil | ⟨-, raw, -, hraw, -⟩
  · rw [hnil, Node.depthAll]
  · rw [hraw]
    rfl

/-- A joined text takes up no level of its own. -/
theorem depthAll_joinNode (n : Node) (latest : List Node) :
    Node.depthAll (joinNode n latest) = max n.depth (Node.depthAll latest) := by
  unfold joinNode
  split
  · simp [Node.depthAll, Node.depth]
  · rfl

namespace GrowingTree

/-- The levels that a growing tree takes up. -/
def levels (t : GrowingTree) : Nat :=
  max (Node.depthAll t.latest + t.opened.length) (levelsBefore t.opened)

theorem levels_close (t : GrowingTree) : t.close.levels = t.levels := by
  cases hopened : t.opened with
  | nil => simp [close, hopened]
  | cons e outer =>
    simp only [levels, close, hopened, levelsBefore, Node.depthAll, Node.depth,
      Node.depthAll_reverse, List.length_cons]
    omega

theorem levels_closeMany (n : Nat) (t : GrowingTree) : (closeMany n t).levels = t.levels := by
  induction n generalizing t with
  | zero => rfl
  | succ n ih => rw [closeMany, ih, levels_close]

theorem levels_openInside (t : GrowingTree) (name : String) (attributes : List Attribute) :
    (t.openInside name attributes).levels = max (t.opened.length + 1) t.levels := by
  simp [levels, openInside, levelsBefore, Node.depthAll]

theorem levels_add (t : GrowingTree) (n : Node) :
    (t.add n).levels = max (n.depth + t.opened.length) t.levels := by
  simp only [levels, add, depthAll_joinNode]
  omega

/-- At the end the levels of the tree are those of the document. -/
theorem depthAll_finish (t : GrowingTree) : Node.depthAll t.finish.contents = t.levels := by
  have hclosed := levels_closeMany t.opened.length t
  rw [← hclosed, levels, opened_closeMany, List.drop_length]
  simp [finish, Node.depthAll_reverse, levelsBefore]

/-! ## Growing too deep -/

/-- Only a whole element takes up a level too many, where no more elements can be open. -/
theorem lt_levels_step {t : GrowingTree} (hdepth : t.opened.length ≤ maxDepth) {piece : Token}
    (hpiece : piece.WellShaped) : maxDepth < (t.step piece).levels ↔
      maxDepth < t.levels ∨ ∃ e, piece = .whole e ∧ t.opened.length = maxDepth := by
  -- any other piece changes nothing about being too deep
  have hkeeps (hnot : ∀ e, piece ≠ .whole e) :
      maxDepth < (t.step piece).levels ↔ maxDepth < t.levels := by
    apply step_keeps (P := fun g => maxDepth < g.levels ↔ maxDepth < t.levels) _ _ _ hdepth
      Iff.rfl
    · intro g hg
      rwa [levels_close]
    · intro g name attributes _ hless hg
      rw [levels_openInside, ← hg]
      omega
    · intro g n hn _ hg
      rcases Token.node?_eq_some hn with ⟨e, rfl, rfl⟩ | ⟨content, rfl, rfl⟩
      · exact absurd rfl (hnot e)
      · rw [levels_add, ← hg, levels, Node.depth]
        omega
  cases piece with
  | whole e =>
    have hone := HoldsNoMarkup.depth hpiece
    rw [step, levels_add, hone]
    simp only [Token.whole.injEq, exists_eq_left']
    omega
  | opening name attributes => simp [hkeeps]
  | closing name => simp [hkeeps]
  | text content => simp [hkeeps]
  | skipped => simp [hkeeps]

/-- Some whole element among the pieces is met where no more elements can be open. -/
def MeetsLimit (t : GrowingTree) (ts : List Token) : Prop :=
  ∃ before e after, ts = before ++ .whole e :: after ∧
    (before.foldl step t).opened.length = maxDepth

theorem meetsLimit_cons {t : GrowingTree} {piece : Token} {ts : List Token} :
    t.MeetsLimit (piece :: ts) ↔
      (∃ e, piece = .whole e ∧ t.opened.length = maxDepth) ∨ (t.step piece).MeetsLimit ts := by
  constructor
  · rintro ⟨before, e, after, hts, hfull⟩
    cases before with
    | nil =>
      simp only [List.nil_append, List.cons.injEq] at hts
      exact .inl ⟨e, hts.1, hfull⟩
    | cons first before =>
      simp only [List.cons_append, List.cons.injEq] at hts
      obtain ⟨rfl, rfl⟩ := hts
      exact .inr ⟨before, e, after, rfl, hfull⟩
  · rintro (⟨e, rfl, hfull⟩ | ⟨before, e, after, rfl, hfull⟩)
    · exact ⟨[], e, ts, rfl, hfull⟩
    · exact ⟨piece :: before, e, after, rfl, hfull⟩

/-- A tree grows too deep exactly by whole elements at the limit. -/
theorem lt_levels_foldl {ts : List Token} (hts : ∀ piece ∈ ts, piece.WellShaped)
    {t : GrowingTree} (hdepth : t.opened.length ≤ maxDepth) :
    maxDepth < (ts.foldl step t).levels ↔ maxDepth < t.levels ∨ t.MeetsLimit ts := by
  induction ts generalizing t with
  | nil => simp [MeetsLimit]
  | cons piece ts ih =>
    obtain ⟨hpiece, hrest⟩ := List.forall_mem_cons.1 hts
    rw [List.foldl_cons, ih hrest (length_opened_step hdepth piece),
      lt_levels_step hdepth hpiece, meetsLimit_cons, or_assoc]

/-- Whole elements reach no further than one level below the open elements. -/
theorem levels_grown_le {ts : List Token} (hts : ∀ piece ∈ ts, piece.WellShaped) :
    (grown ts).levels ≤ maxDepth + 1 := by
  apply grown_keeps (P := fun t => t.levels ≤ maxDepth + 1)
  · exact Nat.zero_le _
  · intro t hlevels
    rwa [levels_close]
  · intro t name attributes _ hless hlevels
    rw [levels_openInside]
    omega
  · intro t piece n hmem hn hopened hlevels
    have hdepth : n.depth ≤ 1 := by
      rcases Token.node?_eq_some hn with ⟨e, rfl, rfl⟩ | ⟨content, rfl, rfl⟩
      · exact Nat.le_of_eq (HoldsNoMarkup.depth (hts _ hmem))
      · exact Nat.zero_le _
    rw [levels_add]
    omega

end GrowingTree

/-- Well-shaped pieces make a document that nests within `maxDepth` levels unless a whole
element among them meets the limit. -/
theorem nestsWithin_buildTree {ts : List Token} (hts : ∀ piece ∈ ts, piece.WellShaped) :
    (buildTree ts).NestsWithin maxDepth ↔ ¬ GrowingTree.empty.MeetsLimit ts := by
  have hfew : GrowingTree.empty.opened.length ≤ maxDepth := Nat.zero_le _
  have hdeep := GrowingTree.lt_levels_foldl hts hfew
  have hempty : ¬ maxDepth < GrowingTree.empty.levels := Nat.not_lt_zero _
  rw [nestsWithin_iff, ← Nat.not_lt, not_iff_not, GrowingTree.buildTree_eq,
    GrowingTree.depthAll_finish, GrowingTree.grown, hdeep, or_iff_right hempty]

theorem fst_document (cs : List Char) : (document cs).1 = buildTree (tokens cs).1 := rfl

/-- No element of a document has more than `maxDepth` elements around it, and none has as many,
so that the document has at most `maxDepth` levels, exactly if no whole element is met where
`maxDepth` elements are open. -/
theorem document_nestsWithin (cs : List Char) :
    (document cs).1.NestsWithin (maxDepth + 1) ∧
      ((document cs).1.NestsWithin maxDepth ↔ Node.depthAll (document cs).1.contents ≤ maxDepth) ∧
      ((document cs).1.NestsWithin maxDepth ↔ ¬ GrowingTree.empty.MeetsLimit (tokens cs).1) := by
  have hts := tokens_wellShaped cs
  rw [fst_document]
  refine ⟨?_, nestsWithin_iff, nestsWithin_buildTree hts⟩
  have hlevels := GrowingTree.levels_grown_le hts
  rw [← GrowingTree.depthAll_finish] at hlevels
  exact nestsWithin_iff.2 hlevels

/-! ## A void element too deep -/

/-- As many opening tags as elements can be open, and a void element behind them. -/
def crowdedText : List Char :=
  (List.replicate maxDepth (writtenOpening "div" [])).flatten ++ writtenOpening "br" []

/-- Opening tags one behind the other are read as such. -/
theorem tokens_replicate_opening (n : Nat) (t : List Char) :
    tokens ((List.replicate n (writtenOpening "div" [])).flatten ++ t) =
      (List.replicate n (.opening "div" []) ++ (tokens t).1, (tokens t).2) := by
  have hname : IsName "div" := isName_iff.2 (by decide)
  induction n with
  | zero => rfl
  | succ n ih =>
    rw [List.replicate_succ, List.flatten_cons, List.append_assoc, tokens,
      Reader.many_of_some (token_element hname (by simp) (by decide) (by decide) _)]
    rw [tokens] at ih
    rw [ih, List.replicate_succ, List.cons_append]

/-- Up to the limit, each opening tag opens an element. -/
theorem length_opened_replicate {n : Nat} (h : n ≤ maxDepth) :
    ((List.replicate n (Token.opening "div" [])).foldl GrowingTree.step
      GrowingTree.empty).opened.length = n := by
  induction n with
  | zero => rfl
  | succ n ih =>
    have hlength := ih (Nat.le_of_succ_le h)
    rw [List.replicate_succ', List.foldl_append, List.foldl_cons, List.foldl_nil,
      GrowingTree.step, GrowingTree.enter, hlength, if_neg (Nat.ne_of_lt h),
      GrowingTree.opened_openInside, List.length_cons, hlength]

/-- The void element has `maxDepth` elements around it. -/
theorem not_nestsWithin_crowdedText : ¬ (document crowdedText).1.NestsWithin maxDepth := by
  have hname : IsName "br" := isName_iff.2 (by decide)
  have hbr : (tokens (writtenOpening "br" [])).1 = [.whole ⟨"br", [], []⟩] := by
    have hread : token (writtenOpening "br" [] ++ []) = some (.whole ⟨"br", [], []⟩, []) :=
      token_void hname (by simp) (by decide) []
    rw [List.append_nil] at hread
    have hnone : token [] = none := by decide
    rw [tokens, Reader.many_of_some hread, Reader.many_of_none hnone]
  have htokens : (tokens crowdedText).1 =
      List.replicate maxDepth (.opening "div" []) ++ [.whole ⟨"br", [], []⟩] := by
    rw [crowdedText, tokens_replicate_opening, hbr]
  have hmeets : GrowingTree.empty.MeetsLimit (tokens crowdedText).1 :=
    ⟨_, _, [], htokens, length_opened_replicate (Nat.le_refl _)⟩
  rw [fst_document, nestsWithin_buildTree (tokens_wellShaped crowdedText)]
  exact fun h => h hmeets

end Markup

end MarkupQuery
