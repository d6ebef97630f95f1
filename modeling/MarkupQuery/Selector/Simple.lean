import MarkupQuery.Selector.Basic
import MarkupQuery.Selector.Identifier
import MarkupQuery.Text.Blank
import MarkupQuery.Text.WhiteSpace

/-!
# MarkupQuery.Selector.Simple — reading the parts of a compound

A compound starts with a type or `*`, or with neither, and goes on with simple
selectors: `.name`, `#name`, `[name]`, `[name=value]`, `:name`, `:name(argument)`,
`::name`.
-/

namespace MarkupQuery.Selector

open Reader

/-! ## Tests of attributes -/

/-- The operator of a test. -/
def operator : Reader AttributeTest
  | '~' :: '=' :: cs => some (.includes, cs)
  | '|' :: '=' :: cs => some (.dashMatch, cs)
  | '^' :: '=' :: cs => some (.startsWith, cs)
  | '$' :: '=' :: cs => some (.endsWith, cs)
  | '*' :: '=' :: cs => some (.contains, cs)
  | '!' :: '=' :: cs => some (.differs, cs)
  | '=' :: cs => some (.equals, cs)
  | _ => none

/-- The value of a test: what stands between two equal quotes, or an identifier. -/
def testValue : Reader String := fun cs =>
  match cs with
  | '"' :: quoted => mapValue String.ofList (before '"') quoted
  | '\'' :: quoted => mapValue String.ofList (before '\'') quoted
  | _ => identifier cs

/-- An operator and a value, with blanks allowed between them. -/
def condition : Reader (AttributeTest × String) := fun cs =>
  match operator cs with
  | none => none
  | some (test, cs) => mapValue (fun value => (test, value)) testValue (skipBlanks cs)

/-- The condition at the front of a text; where none can be read nothing is taken, and
the attribute only has to be there. -/
def conditionOrPresent (cs : List Char) : (AttributeTest × String) × List Char :=
  match condition cs with
  | some answer => answer
  | none => ((.present, ""), cs)

/-- The rest of the test of an attribute, behind its `[`. -/
def bracketRest : Reader Token := fun cs =>
  match identifier (skipBlanks cs) with
  | none => none
  | some (name, cs) =>
    match conditionOrPresent (skipBlanks cs) with
    | ((test, value), cs) =>
      match skipBlanks cs with
      | ']' :: rest => some (.attr name test value, rest)
      | _ => none

/-! ## Pseudo-classes -/

/-- The argument of a pseudo-class, between parentheses. -/
def argument : Reader (List Char)
  | '(' :: cs => before ')' cs
  | _ => none

/-- The rest of a pseudo-class, behind its `:`. The argument is trimmed; where no
parenthesis closes it there is none. -/
def pseudoClassRest : Reader Token := fun cs =>
  match identifier cs with
  | none => none
  | some (name, cs) =>
    match argument cs with
    | some (text, rest) =>
      some (.pseudoClass name (some (String.ofList (Text.trimChars text))), rest)
    | none => some (.pseudoClass name none, cs)

/-! ## Parts of a compound -/

/-- A selector that may stand anywhere in a compound. -/
def simple : Reader Token
  | '.' :: cs => mapValue .ofClass identifier cs
  | '#' :: cs => mapValue .ofId identifier cs
  | '[' :: cs => bracketRest cs
  | ':' :: ':' :: cs => mapValue .pseudoElement identifier cs
  | ':' :: cs => pseudoClassRest cs
  | _ => none

/-- A selector that may stand only at the front of a compound: a type or `*`. -/
def typeSelector : Reader Token := fun cs =>
  match cs with
  | '*' :: rest => some (.universal, rest)
  | _ => mapValue .tag identifier cs

/-! ## What the parts take -/

/-- An operator has at least its `=`. -/
theorem operator_consumes : Consumes operator := by
  intro cs test rest h
  unfold operator at h
  split at h
  case h_8 => simp at h
  all_goals
    simp only [Option.some.injEq, Prod.mk.injEq] at h
    rcases h with ⟨-, rfl⟩
  case h_7 => exact leaves_behind (List.suffix_refl _)
  all_goals exact leaves_behind (List.suffix_cons _ _)

/-- A value has at least one character or its quotes. -/
theorem testValue_consumes : Consumes testValue := by
  intro cs value rest h
  unfold testValue at h
  split at h
  · exact leaves_behind (mapValue_consumes _ (before_consumes _) _ _ _ h).1
  · exact leaves_behind (mapValue_consumes _ (before_consumes _) _ _ _ h).1
  · exact identifier_consumes _ _ _ h

/-- A condition has at least its operator. -/
theorem condition_consumes : Consumes condition := by
  intro cs c rest h
  unfold condition at h
  split at h
  · simp at h
  · rename_i test tail hop
    have ho := operator_consumes _ _ _ hop
    have hv := mapValue_consumes _ testValue_consumes _ _ _ h
    have hs := hv.1.trans (skipBlanks_suffix tail)
    exact ⟨hs.trans ho.1, Nat.lt_of_le_of_lt hs.length_le ho.2⟩

/-- With or without a condition, a tail of the text is left. -/
theorem conditionOrPresent_suffix (cs : List Char) : (conditionOrPresent cs).2 <:+ cs := by
  unfold conditionOrPresent
  split
  · rename_i c h
    exact (condition_consumes _ _ _ h).1
  · exact List.suffix_refl cs

/-- What follows a `[` has at least a name. -/
theorem bracketRest_consumes : Consumes bracketRest := by
  intro cs t rest h
  unfold bracketRest at h
  split at h
  · simp at h
  · rename_i name tail hname
    have hn := identifier_consumes _ _ _ hname
    have hc := conditionOrPresent_suffix (skipBlanks tail)
    split at h
    rename_i test value tail' hcond
    rw [hcond] at hc
    split at h
    · rename_i r heq
      simp only [Option.some.injEq, Prod.mk.injEq] at h
      rcases h with ⟨-, rfl⟩
      have hr : r <:+ tail :=
        ((heq ▸ List.suffix_cons ']' r).trans (skipBlanks_suffix tail')).trans
          (hc.trans (skipBlanks_suffix tail))
      exact ⟨(hr.trans hn.1).trans (skipBlanks_suffix cs),
        Nat.lt_of_le_of_lt hr.length_le
          (Nat.lt_of_lt_of_le hn.2 (length_skipBlanks_le cs))⟩
    · simp at h

/-- An argument has at least its parentheses. -/
theorem argument_consumes : Consumes argument := by
  intro cs text rest h
  unfold argument at h
  split at h
  · exact leaves_behind (before_consumes _ _ _ _ h).1
  · simp at h

/-- A pseudo-class has at least a name. -/
theorem pseudoClassRest_consumes : Consumes pseudoClassRest := by
  intro cs t rest h
  unfold pseudoClassRest at h
  split at h
  · simp at h
  · rename_i name tail hname
    have hn := identifier_consumes _ _ _ hname
    split at h
    · rename_i text tail' harg
      simp only [Option.some.injEq, Prod.mk.injEq] at h
      rcases h with ⟨-, rfl⟩
      have ha := argument_consumes _ _ _ harg
      exact ⟨ha.1.trans hn.1, Nat.lt_trans ha.2 hn.2⟩
    · simp only [Option.some.injEq, Prod.mk.injEq] at h
      rcases h with ⟨-, rfl⟩
      exact hn

/-- A simple selector has at least the character it starts with. -/
theorem simple_consumes : Consumes simple := by
  intro cs t rest h
  unfold simple at h
  split at h
  · exact leaves_behind (mapValue_consumes _ identifier_consumes _ _ _ h).1
  · exact leaves_behind (mapValue_consumes _ identifier_consumes _ _ _ h).1
  · exact leaves_behind (bracketRest_consumes _ _ _ h).1
  · exact leaves_behind
      (leaves_behind (mapValue_consumes _ identifier_consumes _ _ _ h).1).1
  · exact leaves_behind (pseudoClassRest_consumes _ _ _ h).1
  · simp at h

/-- A type has at least one character. -/
theorem typeSelector_consumes : Consumes typeSelector := by
  intro cs t rest h
  unfold typeSelector at h
  split at h
  · simp only [Option.some.injEq, Prod.mk.injEq] at h
    rcases h with ⟨-, rfl⟩
    exact leaves_behind (List.suffix_refl _)
  · exact mapValue_consumes _ identifier_consumes _ _ _ h

end MarkupQuery.Selector
