import MarkupQuery.Selector.Simple
import MarkupQuery.Text.Fault

/-!
# MarkupQuery.Selector.Groups — reading selector lists

A group is one compound, then further compounds with a combinator before each; a list
is one group, then further groups with a comma before each. As much is taken as can be
read: a combinator or a comma with nothing readable behind it is left, together with
the blanks before it. Blanks around a whole list are taken.
-/

namespace MarkupQuery.Selector

open Reader

/-! ## Compounds -/

/-- A type or nothing, then simple selectors; of both together there is at least one. -/
def compound : Reader Group := fun cs =>
  let (front, cs) :=
    match typeSelector cs with
    | some (t, rest) => ([t], rest)
    | none => ([], cs)
  let (parts, rest) := many simple simple_consumes cs
  if front ++ parts = [] then none else some (front ++ parts, rest)

/-- A compound has at least one character. -/
theorem compound_consumes : Consumes compound := by
  intro cs group rest h
  unfold compound at h
  cases ht : typeSelector cs with
  | some p =>
    rcases p with ⟨t, tail⟩
    have hc := typeSelector_consumes _ _ _ ht
    simp only [ht, List.cons_append, reduceCtorEq, if_false, Option.some.injEq,
      Prod.mk.injEq] at h
    rcases h with ⟨-, rfl⟩
    have hm := many_suffix simple simple_consumes tail
    exact ⟨hm.trans hc.1, Nat.lt_of_le_of_lt hm.length_le hc.2⟩
  | none =>
    simp only [ht, List.nil_append] at h
    cases hs : simple cs with
    | none =>
      rw [many_of_none hs] at h
      simp at h
    | some p =>
      rcases p with ⟨t, tail⟩
      have hc := simple_consumes _ _ _ hs
      rw [many_of_some hs] at h
      simp only [reduceCtorEq, if_false, Option.some.injEq, Prod.mk.injEq] at h
      rcases h with ⟨-, rfl⟩
      have hm := many_suffix simple simple_consumes tail
      exact ⟨hm.trans hc.1, Nat.lt_of_le_of_lt hm.length_le hc.2⟩

/-! ## Groups -/

/-- One of `>`, `+`, `~` with blanks allowed around it, or else blanks alone, which
stand for a descendant. -/
def combinator : Reader Combinator := fun cs =>
  match skipBlanks cs with
  | '>' :: rest => some (.child, skipBlanks rest)
  | '+' :: rest => some (.nextSibling, skipBlanks rest)
  | '~' :: rest => some (.subsequentSibling, skipBlanks rest)
  | rest => if cs.head?.any isBlank then some (.descendant, rest) else none

/-- A combinator and the compound behind it. -/
def linkedCompound : Reader Group := fun cs =>
  match combinator cs with
  | none => none
  | some (which, cs) => mapValue (fun tokens => .combinator which :: tokens) compound cs

/-- A combinator leaves a tail of its text. -/
theorem combinator_suffix {cs rest : List Char} {which : Combinator}
    (h : combinator cs = some (which, rest)) : rest <:+ cs := by
  have hb := skipBlanks_suffix cs
  unfold combinator at h
  split at h
  case h_4 =>
    split at h
    · simp only [Option.some.injEq, Prod.mk.injEq] at h
      rcases h with ⟨-, rfl⟩
      exact hb
    · simp at h
  all_goals
    rename_i tail heq
    simp only [Option.some.injEq, Prod.mk.injEq] at h
    rcases h with ⟨-, rfl⟩
    exact ((skipBlanks_suffix tail).trans (List.suffix_cons _ _)).trans (heq ▸ hb)

/-- A compound behind a combinator has at least one character. -/
theorem linkedCompound_consumes : Consumes linkedCompound := by
  intro cs group rest h
  unfold linkedCompound at h
  split at h
  · simp at h
  · rename_i which tail hcomb
    have hs := combinator_suffix hcomb
    have hc := mapValue_consumes _ compound_consumes _ _ _ h
    exact ⟨hc.1.trans hs, Nat.lt_of_lt_of_le hc.2 hs.length_le⟩

/-- A group: compounds and the combinators between them, in one sequence. -/
def group : Reader Group := fun cs =>
  match compound cs with
  | none => none
  | some (first, cs) =>
    let (linked, rest) := many linkedCompound linkedCompound_consumes cs
    some (first ++ linked.flatten, rest)

/-- A group has at least its first compound. -/
theorem group_consumes : Consumes group := by
  intro cs tokens rest h
  unfold group at h
  split at h
  · simp at h
  · rename_i first tail hfirst
    have hc := compound_consumes _ _ _ hfirst
    simp only [Option.some.injEq, Prod.mk.injEq] at h
    rcases h with ⟨-, rfl⟩
    have hm := many_suffix linkedCompound linkedCompound_consumes tail
    exact ⟨hm.trans hc.1, Nat.lt_of_le_of_lt hm.length_le hc.2⟩

/-! ## Lists -/

/-- A comma, with blanks allowed around it, and the group behind it. -/
def nextGroup : Reader Group := fun cs =>
  match skipBlanks cs with
  | ',' :: rest => group (skipBlanks rest)
  | _ => none

/-- A group behind a comma has at least one character. -/
theorem nextGroup_consumes : Consumes nextGroup := by
  intro cs tokens rest h
  unfold nextGroup at h
  split at h
  · rename_i tail heq
    have hg := group_consumes _ _ _ h
    have hs : skipBlanks tail <:+ cs :=
      ((skipBlanks_suffix tail).trans (List.suffix_cons ',' tail)).trans
        (heq ▸ skipBlanks_suffix cs)
    exact ⟨hg.1.trans hs, Nat.lt_of_lt_of_le hg.2 hs.length_le⟩
  · simp at h

/-- A selector list. It is nothing only where not even one compound can be read behind
the blanks at the front. -/
def selectorList : Reader (List Group) := fun cs =>
  match group (skipBlanks cs) with
  | none => none
  | some (first, cs) =>
    let (others, rest) := many nextGroup nextGroup_consumes cs
    some (first :: others, skipBlanks rest)

/-! ## Texts -/

/-- The reason for a fault where a selector list has no compound at its front. -/
def noCompound : String := "predicate verification"

/-- The groups at the front of a text, and the text left. -/
def read (cs : List Char) : Except Fault (List Group × List Char) :=
  match selectorList cs with
  | some answer => .ok answer
  | none => .error ⟨offsetOf cs (skipBlanks cs), noCompound⟩

/-- The groups of a text that is a selector list as a whole. -/
def parse (text : String) : Except Fault (List Group) :=
  match read text.toList with
  | .error fault => .error fault
  | .ok answer => wholly text.toList answer

end MarkupQuery.Selector
