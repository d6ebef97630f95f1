import Mathlib.Data.List.Chain
import MarkupQuery.Markup.Tree
import MarkupQuery.Proofs.Markup.Rendering

/-!
# MarkupQuery.Proofs.Markup.Growing — how a tree grows

A tree grows by three moves: a finished node is added to the innermost open element, an
element is opened inside of it, or it is closed. What a piece does is made of such moves,
and it opens an element only where fewer than `maxDepth` are open (`step_keeps`). So
whatever the moves keep holds of every tree that grows (`grown_keeps`).
-/

namespace MarkupQuery

open Markup

/-! ## Texts side by side -/

namespace Node

/-- No two texts stand side by side. -/
def TextsApart (ns : List Node) : Prop :=
  ns.IsChain fun m n => ¬ (StartsWithText [m] ∧ StartsWithText [n])

theorem textsApart_cons {n : Node} {ns : List Node} :
    TextsApart (n :: ns) ↔ ¬ (StartsWithText [n] ∧ StartsWithText ns) ∧ TextsApart ns := by
  cases ns with
  | nil => simp [TextsApart, StartsWithText]
  | cons m ns =>
    have hhead : StartsWithText (m :: ns) ↔ StartsWithText [m] := by
      cases m <;> rfl
    rw [TextsApart, List.isChain_cons_cons, hhead]
    rfl

theorem textsApart_reverse {ns : List Node} : TextsApart ns.reverse ↔ TextsApart ns := by
  simp only [TextsApart, List.isChain_reverse, and_comm]

end Node

namespace Markup

/-- The finished node that a piece brings, if it brings one. -/
def Token.node? : Token → Option Node
  | .whole e => some e.toNode
  | .text content => some (.text content)
  | .opening _ _ => none
  | .closing _ => none
  | .skipped => none

/-- Whole elements and texts bring nodes. -/
theorem Token.node?_eq_some {piece : Token} {n : Node} (h : piece.node? = some n) :
    (∃ e, piece = .whole e ∧ n = e.toNode) ∨
      ∃ content, piece = .text content ∧ n = .text content := by
  cases piece with
  | whole e => exact .inl ⟨e, rfl, (Option.some.inj h).symm⟩
  | text content => exact .inr ⟨content, rfl, (Option.some.inj h).symm⟩
  | opening name attributes => simp [node?] at h
  | closing name => simp [node?] at h
  | skipped => simp [node?] at h

/-- A name is the same as itself. -/
theorem sameName_self (name : String) : sameName name name = true := by
  simp [sameName]

namespace GrowingTree

/-- The tree that pieces grow. -/
def grown (ts : List Token) : GrowingTree :=
  ts.foldl step empty

theorem buildTree_eq (ts : List Token) : buildTree ts = (grown ts).finish := rfl

/-! ## The open elements -/

@[simp]
theorem opened_add (t : GrowingTree) (n : Node) : (t.add n).opened = t.opened := rfl

@[simp]
theorem opened_openInside (t : GrowingTree) (name : String) (attributes : List Attribute) :
    (t.openInside name attributes).opened = ⟨name, attributes, t.latest⟩ :: t.opened := rfl

@[simp]
theorem opened_close (t : GrowingTree) : t.close.opened = t.opened.tail := by
  unfold close
  split
  · rename_i h
    simp [h]
  · rename_i h
    simp [h]

@[simp]
theorem opened_closeMany (n : Nat) (t : GrowingTree) :
    (closeMany n t).opened = t.opened.drop n := by
  induction n generalizing t with
  | zero => simp [closeMany]
  | succ n ih => rw [closeMany, ih, opened_close, List.drop_tail]

/-! ## Adding nodes -/

/-- A node that is not a text, or has no text before it, is added as it is. -/
theorem add_of_apart {g : GrowingTree} {n : Node}
    (h : ¬ (Node.StartsWithText [n] ∧ Node.StartsWithText g.latest)) :
    g.add n = ⟨n :: g.latest, g.opened⟩ := by
  unfold add joinNode
  split
  · rename_i heq
    rw [heq] at h
    exact absurd ⟨trivial, trivial⟩ h
  · rfl

/-- Two texts added one behind the other are one text. -/
theorem add_text_add_text (g : GrowingTree) (a b : String) :
    (g.add (.text a)).add (.text b) = g.add (.text (a ++ b)) := by
  rcases hlatest : g.latest with _ | ⟨n, earlier⟩
  · simp [add, joinNode, hlatest]
  · cases n with
    | text before => simp [add, joinNode, hlatest, String.append_assoc]
    | element name attributes contents => simp [add, joinNode, hlatest]

/-- A forest in which no texts meet becomes the latest nodes as it is. -/
theorem foldl_add_of_apart {g : GrowingTree} {ns : List Node} (hns : Node.TextsApart ns)
    (h : ¬ (Node.StartsWithText ns ∧ Node.StartsWithText g.latest)) :
    ns.foldl add g = ⟨ns.reverse ++ g.latest, g.opened⟩ := by
  induction ns generalizing g with
  | nil => rfl
  | cons n ns ih =>
    obtain ⟨hside, hns⟩ := Node.textsApart_cons.1 hns
    have hhead : ¬ (Node.StartsWithText [n] ∧ Node.StartsWithText g.latest) := by
      cases n with
      | text _ => exact h
      | element _ _ _ => exact fun h => h.1
    rw [List.foldl_cons, add_of_apart hhead, ih hns]
    · simp
    · -- the latest node is now the one that stood in front of the others
      cases n with
      | text _ => exact fun h => hside ⟨trivial, h.1⟩
      | element _ _ _ => exact fun h => h.2

/-! ## Closing elements -/

/-- A closing tag of the name of the innermost open element closes just that one. -/
theorem leave_innermost {g : GrowingTree} {e : OpenElement} {outer : List OpenElement}
    (h : g.opened = e :: outer) : g.leave e.name = g.close := by
  have hfirst : g.opened.findIdx? (fun o => sameName o.name e.name) = some 0 := by
    simp [h, List.findIdx?_cons, sameName_self]
  simp only [leave, hfirst]
  rfl

/-- What is closed before the end need not be closed there. -/
theorem finish_close (t : GrowingTree) : t.close.finish = t.finish := by
  cases h : t.opened with
  | nil => simp [close, h]
  | cons e outer => simp [finish, h, closeMany]

theorem finish_closeMany (n : Nat) (t : GrowingTree) : (closeMany n t).finish = t.finish := by
  induction n generalizing t with
  | zero => rfl
  | succ n ih => rw [closeMany, ih, finish_close]

/-! ## What every move keeps -/

section

variable {P : GrowingTree → Prop} (hclose : ∀ t, P t → P t.close)

include hclose

/-- What closing an element keeps is kept by closing many. -/
theorem closeMany_keeps (n : Nat) {t : GrowingTree} (h : P t) : P (closeMany n t) := by
  induction n generalizing t with
  | zero => exact h
  | succ n ih => exact ih (hclose t h)

/-- What the moves of a piece keep is kept by the piece. -/
theorem step_keeps {piece : Token}
    (hopen : ∀ t name attributes, piece = .opening name attributes →
      t.opened.length < maxDepth → P t → P (t.openInside name attributes))
    (hadd : ∀ t n, piece.node? = some n → t.opened.length ≤ maxDepth → P t → P (t.add n))
    {t : GrowingTree} (hdepth : t.opened.length ≤ maxDepth) (h : P t) : P (t.step piece) := by
  cases piece with
  | opening name attributes =>
    simp only [step, enter]
    split
    · -- an element was closed to make room
      have hless : t.close.opened.length < maxDepth := by
        have hpos : 0 < maxDepth := by decide
        rw [opened_close, List.length_tail]
        omega
      exact hopen _ name attributes rfl hless (hclose t h)
    · exact hopen t name attributes rfl (by omega) h
  | closing name =>
    simp only [step, leave]
    split
    · exact h
    · exact closeMany_keeps hclose _ h
  | whole e => exact hadd t _ rfl hdepth h
  | text content => exact hadd t _ rfl hdepth h
  | skipped => exact h

end

/-- Never more than `maxDepth` elements are open. -/
theorem length_opened_step {t : GrowingTree} (h : t.opened.length ≤ maxDepth) (piece : Token) :
    (t.step piece).opened.length ≤ maxDepth := by
  apply step_keeps (P := fun t => t.opened.length ≤ maxDepth) _ _ _ h h
  · intro t ht
    rw [opened_close, List.length_tail]
    omega
  · intro t name attributes _ hless _
    rw [opened_openInside, List.length_cons]
    omega
  · intro t n _ ht _
    exact ht

/-- What holds of the empty tree and is kept by the moves of the pieces holds of the tree
that they grow. -/
theorem grown_keeps {P : GrowingTree → Prop} {ts : List Token} (hempty : P empty)
    (hclose : ∀ t, P t → P t.close)
    (hopen : ∀ t name attributes, .opening name attributes ∈ ts →
      t.opened.length < maxDepth → P t → P (t.openInside name attributes))
    (hadd : ∀ t piece n, piece ∈ ts → piece.node? = some n → t.opened.length ≤ maxDepth →
      P t → P (t.add n)) :
    P (grown ts) := by
  have hboth : (grown ts).opened.length ≤ maxDepth ∧ P (grown ts) := by
    apply ts.foldlRecOn step (motive := fun t => t.opened.length ≤ maxDepth ∧ P t)
    · exact ⟨Nat.zero_le _, hempty⟩
    · rintro t ⟨hdepth, ht⟩ piece hpiece
      refine ⟨length_opened_step hdepth piece, ?_⟩
      apply step_keeps hclose _ _ hdepth ht
      · rintro t name attributes rfl
        exact hopen t name attributes hpiece
      · intro t n hn
        exact hadd t piece n hpiece hn
  exact hboth.2

end GrowingTree

end Markup

end MarkupQuery
