import MarkupQuery.Proofs.Selector.ListReading
import MarkupQuery.Query

/-!
# MarkupQuery.Proofs.Selector.CommaList — a list, a comma, and more text

A comma ends every group, together with the blanks before it, and it is in no group. So a
list in front of a comma is read the same whatever stands behind the comma
(`selectorList_comma`): its last group cannot go on, and the repetition of groups goes on
exactly if a list stands behind the comma. If so the groups of that list are appended, and
what it leaves is left. If not the comma is left.

Only the first group of a list is searched for. A query by such a text therefore answers what
its first list answers, or the text is at fault at the comma or behind the second list.
-/

namespace MarkupQuery

namespace Selector.Grammar

open Reader

/-! ## Reading on behind a comma -/

/-- Further groups, blanks and a comma end the group before them. -/
theorem endsGroup_repeated {r w : List Char} {others : List Group}
    (hr : Sentences.Repeated Next r others) (hw : Blanks w) (b : List Char) :
    EndsGroup (r ++ (w ++ ',' :: b)) := by
  cases hr with
  | nil => exact endsGroup_comma hw b
  | cons hn _ =>
    rw [List.append_assoc]
    exact hn.endsGroup _

/-- A list is read in front of a comma up to the blanks at its end. From there on groups are
read as they are behind any list that ends there. -/
theorem selectorList_comma {p : List Char} {gs : List Group} (h : SelectorList p gs)
    (b : List Char) : ∃ w, Blanks w ∧
      selectorList (p ++ ',' :: b) =
        some (gs ++ (many nextGroup nextGroup_consumes (w ++ ',' :: b)).1,
          skipBlanks (many nextGroup nextGroup_consumes (w ++ ',' :: b)).2) := by
  cases h with
  | @intro v q r w first others hv hq hr hw =>
    have hskip : skipBlanks ((v ++ (q ++ (r ++ w))) ++ ',' :: b) =
        q ++ (r ++ (w ++ ',' :: b)) := by
      rw [List.append_assoc, skipBlanks_append hv]
      simp only [List.append_assoc]
      exact skipBlanks_eq_self fun c hc => (hq.endsLink _ c hc).1
    have hfirst : group (q ++ (r ++ (w ++ ',' :: b))) = some (first, r ++ (w ++ ',' :: b)) :=
      group_readsLongest.exact hq (endsGroup_repeated hr hw b)
    have hothers := nextGroup_readsLongest.many_append nextGroup_consumes
      (fun _ _ t hn => hn.endsGroup t) hr (endsGroup_comma hw b)
    refine ⟨w, hw, ?_⟩
    unfold selectorList
    simp only [hskip, hfirst, hothers, List.cons_append]

/-- Behind blanks and a comma the next group is the group that stands there. -/
theorem nextGroup_comma {w : List Char} (hw : Blanks w) (b : List Char) :
    nextGroup (w ++ ',' :: b) = group (skipBlanks b) := by
  have hskip : skipBlanks (w ++ ',' :: b) = ',' :: b := by
    rw [skipBlanks_append hw, skipBlanks_cons (by decide)]
  simp only [nextGroup, hskip]

/-- If a list stands behind the comma its groups are appended. -/
theorem selectorList_comma_of_some {p b rest : List Char} {gs gs' : List Group}
    (h : SelectorList p gs) (hb : selectorList b = some (gs', rest)) :
    selectorList (p ++ ',' :: b) = some (gs ++ gs', rest) := by
  obtain ⟨w, hw, hread⟩ := selectorList_comma h b
  rw [hread]
  unfold selectorList at hb
  cases hgroup : group (skipBlanks b) with
  | none => simp [hgroup] at hb
  | some answer =>
    obtain ⟨first, behind⟩ := answer
    have hnext : nextGroup (w ++ ',' :: b) = some (first, behind) := by
      rw [nextGroup_comma hw, hgroup]
    simp only [hgroup, Option.some.injEq, Prod.mk.injEq] at hb
    obtain ⟨rfl, rfl⟩ := hb
    rw [many_of_some hnext]

/-- If no list stands behind the comma then the comma is left. -/
theorem selectorList_comma_of_none {p b : List Char} {gs : List Group}
    (h : SelectorList p gs) (hb : selectorList b = none) :
    selectorList (p ++ ',' :: b) = some (gs, ',' :: b) := by
  obtain ⟨w, hw, hread⟩ := selectorList_comma h b
  rw [hread]
  unfold selectorList at hb
  cases hgroup : group (skipBlanks b) with
  | some answer => simp [hgroup] at hb
  | none =>
    have hnext : nextGroup (w ++ ',' :: b) = none := by
      rw [nextGroup_comma hw, hgroup]
    rw [many_of_none hnext, List.append_nil, skipBlanks_append hw, skipBlanks_cons (by decide)]

theorem SelectorList.ne_nil {p : List Char} {gs : List Group} (h : SelectorList p gs) :
    gs ≠ [] := by
  cases h
  simp

end Selector.Grammar

open Selector (Group)
open Selector.Grammar (selectorList_readsLongest read_eq_ok_iff selectorList_of_read_error
  selectorList_comma_of_some selectorList_comma_of_none)

/-! ## Queries -/

/-- A selector of which something is left over is at fault there. -/
theorem find_of_left (q : Query) {selector : String} {groups : List Group}
    {taken rest : List Char} (htext : selector.toList = taken ++ rest) (hrest : rest ≠ [])
    (hread : Selector.read selector.toList = .ok (groups, rest)) :
    q.find selector =
      .error (.unreadable .selector ⟨utf8Length taken, "unexpected input"⟩) := by
  have hparse : Selector.parse selector = .error ⟨utf8Length taken, leftOver⟩ := by
    rw [Selector.parse, hread]
    refine wholly_eq_error_iff.2 ⟨hrest, ?_⟩
    rw [htext, offsetOf_append]
  simp only [Query.find, hparse, leftOver]

/-- A selector that is read to its end is searched for by its first group. -/
theorem find_of_whole (q : Query) {selector : String} {groups : List Group}
    (hread : Selector.read selector.toList = .ok (groups, [])) :
    q.find selector = (q.document.findGroup (groups.headD [])).map Selection.mk := by
  have hparse : Selector.parse selector = .ok groups := by
    rw [Selector.parse, hread]
    exact wholly_eq_ok_iff.2 ⟨rfl, rfl⟩
  simp only [Query.find, hparse]
  cases q.document.findGroup (groups.headD []) <;> rfl

theorem utf8Length_toList (s : String) : utf8Length s.toList = s.utf8ByteSize := by
  rw [utf8Length, String.ofList_toList]

/-- A selector `a` that is read to its end may go on behind a comma with any text `b`. If `b`
is read to its end as well, the groups of both are read, and every query answers what it answers
by `a` alone. If not, every query is at fault: at the comma if nothing is read of `b`, and
otherwise behind what is read of it. -/
theorem find_append_comma (q : Query) {a : String} {groups : List Group}
    (ha : Selector.read a.toList = .ok (groups, [])) (b : String) :
    (∀ more, Selector.read b.toList = .ok (more, []) →
      Selector.read (a ++ "," ++ b).toList = .ok (groups ++ more, []) ∧
        q.find (a ++ "," ++ b) = q.find a) ∧
    (∀ fault, Selector.read b.toList = .error fault →
      q.find (a ++ "," ++ b) =
        .error (.unreadable .selector ⟨a.utf8ByteSize, "unexpected input"⟩)) ∧
    (∀ more rest, Selector.read b.toList = .ok (more, rest) → rest ≠ [] →
      ∃ taken, b.toList = taken ++ rest ∧
        q.find (a ++ "," ++ b) = .error (.unreadable .selector
          ⟨a.utf8ByteSize + 1 + utf8Length taken, "unexpected input"⟩)) := by
  obtain ⟨p, hp, hlist⟩ := selectorList_readsLongest.sound (read_eq_ok_iff.1 ha)
  rw [List.append_nil] at hp
  subst hp
  have htext : (a ++ "," ++ b).toList = a.toList ++ ',' :: b.toList := by simp
  refine ⟨?_, ?_, ?_⟩
  · intro more hb
    have hread : Selector.read (a ++ "," ++ b).toList = .ok (groups ++ more, []) := by
      rw [htext, read_eq_ok_iff]
      exact selectorList_comma_of_some hlist (read_eq_ok_iff.1 hb)
    refine ⟨hread, ?_⟩
    -- the first group is one of `a`
    obtain ⟨first, others, rfl⟩ := List.exists_cons_of_ne_nil hlist.ne_nil
    rw [find_of_whole q hread, find_of_whole q ha]
    rfl
  · intro fault hb
    have hread : Selector.read (a ++ "," ++ b).toList = .ok (groups, ',' :: b.toList) := by
      rw [htext, read_eq_ok_iff]
      exact selectorList_comma_of_none hlist (selectorList_of_read_error hb)
    rw [find_of_left q htext (by simp) hread, utf8Length_toList]
  · intro more rest hb hrest
    obtain ⟨taken, htaken, -⟩ := selectorList_readsLongest.sound (read_eq_ok_iff.1 hb)
    have hread : Selector.read (a ++ "," ++ b).toList = .ok (groups ++ more, rest) := by
      rw [htext, read_eq_ok_iff]
      exact selectorList_comma_of_some hlist (read_eq_ok_iff.1 hb)
    have hsplit : (a ++ "," ++ b).toList = (a ++ ",").toList ++ taken ++ rest := by
      simp [htaken]
    have hlength : utf8Length ((a ++ ",").toList ++ taken) =
        a.utf8ByteSize + 1 + utf8Length taken := by
      rw [utf8Length_append, utf8Length_toList, String.utf8ByteSize_append]
      rfl
    refine ⟨taken, htaken, ?_⟩
    rw [find_of_left q hsplit hrest hread, hlength]

/-- Blanks at the end of the first list are no part of its last group, and a token without a
test behind the comma is never met. A comma without a list behind it is left, and so is a
combinator at the end of the second list. -/
theorem find_paragraph_comma :
    let q : Query := ⟨⟨[.element "p" [] []]⟩⟩
    Selector.read "p ".toList = .ok ([[.tag "p"]], []) ∧
      (Selector.read " *#é".toList = .ok ([[.universal, .ofId "é"]], []) ∧
        Selector.read "p , *#é".toList = .ok ([[.tag "p"], [.universal, .ofId "é"]], []) ∧
        q.find "p , *#é" = q.find "p ") ∧
      (Selector.read " )".toList = .error ⟨1, "predicate verification"⟩ ∧
        q.find "p , )" = .error (.unreadable .selector ⟨2, "unexpected input"⟩)) ∧
      (Selector.read "é >".toList = .ok ([[.tag "é"]], ['>']) ∧
        q.find "p ,é >" = .error (.unreadable .selector ⟨6, "unexpected input"⟩)) := by
  intro q
  have ha : Selector.read "p ".toList = .ok ([[.tag "p"]], []) := by decide +kernel
  have hwhole : Selector.read " *#é".toList = .ok ([[.universal, .ofId "é"]], []) := by
    decide +kernel
  have hnone : Selector.read " )".toList = .error ⟨1, "predicate verification"⟩ := by
    decide +kernel
  have hpart : Selector.read "é >".toList = .ok ([[.tag "é"]], ['>']) := by decide +kernel
  refine ⟨ha, ⟨hwhole, ?_⟩, ⟨hnone, ?_⟩, hpart, ?_⟩
  · exact (find_append_comma q ha " *#é").1 _ hwhole
  · exact (find_append_comma q ha " )").2.1 _ hnone
  · obtain ⟨taken, htaken, hfind⟩ := (find_append_comma q ha "é >").2.2 _ _ hpart (by decide)
    obtain rfl : taken = ['é', ' '] := List.append_cancel_right htaken.symm
    exact hfind

end MarkupQuery
