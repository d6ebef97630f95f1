import MarkupQuery.Document.Basic
import MarkupQuery.Markup.Name
import MarkupQuery.Text.Blank

/-!
# MarkupQuery.Markup.Tag — opening and closing tags

`<name key key=value key="value" key='value'>` opens an element; a `/` before the `>`
ends it at once. `</name>` closes one. Blanks may stand around `=`, between attributes
and before the end of a tag, and between two attributes they may be missing where a
quote already ends the first.
-/

namespace MarkupQuery.Markup

open Reader

/-! ## Attributes -/

/-- A character of a key. -/
def isKeyChar (c : Char) : Bool :=
  !(isBlank c || c == '"' || c == '\'' || c == '>' || c == '/' || c == '=')

/-- A character of a value without quotes. -/
def isBareValueChar (c : Char) : Bool :=
  !(isBlank c || c == '>')

/-- A value: what stands between two equal quotes, or a run without blanks and `>`. A
quote that is never closed belongs to such a run. -/
def attributeValue : Reader (List Char) := fun cs =>
  match cs with
  | '"' :: quoted => (before '"' quoted).or (run isBareValueChar cs)
  | '\'' :: quoted => (before '\'' quoted).or (run isBareValueChar cs)
  | _ => run isBareValueChar cs

/-- An `=` and the value behind it, with blanks around the `=`. -/
def assignedValue : Reader (List Char) := fun cs =>
  match skipBlanks cs with
  | '=' :: rest => attributeValue (skipBlanks rest)
  | _ => none

/-- A key and its value. Where no value is assigned it is empty, and reading goes on
right behind the key. -/
def keyValue : Reader Attribute := fun cs =>
  match run isKeyChar cs with
  | none => none
  | some (key, rest) =>
    match assignedValue rest with
    | some (value, rest) => some (⟨String.ofList key, String.ofList value⟩, rest)
    | none => some (⟨String.ofList key, ""⟩, rest)

/-- An attribute behind any blanks. -/
def nextAttribute : Reader Attribute := fun cs =>
  keyValue (skipBlanks cs)

/-- A value leaves a tail of its text. -/
theorem attributeValue_consumes : Consumes attributeValue := by
  intro cs value rest h
  unfold attributeValue at h
  split at h
  all_goals first
    | exact run_consumes isBareValueChar _ _ _ h
    | skip
  all_goals
    rw [Option.or_eq_some_iff] at h
    rcases h with h | ⟨-, h⟩
    · have := before_consumes _ _ _ _ h
      exact ⟨this.1.trans (List.suffix_cons _ _), by simp; omega⟩
    · exact run_consumes isBareValueChar _ _ _ h

/-- An assigned value is taken with its `=`. -/
theorem assignedValue_consumes : Consumes assignedValue := by
  intro cs value rest h
  unfold assignedValue at h
  split at h
  · rename_i tail heq
    have hv := attributeValue_consumes _ _ _ h
    have ht : tail <:+ cs :=
      (heq ▸ List.suffix_cons '=' tail).trans (skipBlanks_suffix cs)
    have hb := (skipBlanks_suffix tail).trans ht
    exact ⟨hv.1.trans hb, Nat.lt_of_lt_of_le hv.2 hb.length_le⟩
  · simp at h

/-- An attribute has at least its key. -/
theorem keyValue_consumes : Consumes keyValue := by
  intro cs a rest h
  unfold keyValue at h
  split at h
  · simp at h
  · rename_i key tail hkey
    have hk := run_consumes isKeyChar _ _ _ hkey
    split at h
    · rename_i value tail' hvalue
      simp only [Option.some.injEq, Prod.mk.injEq] at h
      rcases h with ⟨-, rfl⟩
      have hv := assignedValue_consumes _ _ _ hvalue
      exact ⟨hv.1.trans hk.1, Nat.lt_trans hv.2 hk.2⟩
    · simp only [Option.some.injEq, Prod.mk.injEq] at h
      rcases h with ⟨-, rfl⟩
      exact hk

/-- Blanks before an attribute change nothing about that. -/
theorem nextAttribute_consumes : Consumes nextAttribute := by
  intro cs a rest h
  have ha := keyValue_consumes _ _ _ h
  exact ⟨ha.1.trans (skipBlanks_suffix cs),
    Nat.lt_of_lt_of_le ha.2 (length_skipBlanks_le cs)⟩

/-! ## Tags -/

/-- What an opening tag says. -/
structure OpeningTag where
  name : String
  attributes : List Attribute
  selfClosing : Bool
deriving Repr, DecidableEq

/-- An opening tag `<name ...>`, or `<name .../>`, which closes itself. -/
def openingTag : Reader OpeningTag
  | '<' :: cs =>
    match tagName cs with
    | none => none
    | some (name, cs) =>
      let (attributes, cs) := many nextAttribute nextAttribute_consumes cs
      match skipBlanks cs with
      | '>' :: rest => some (⟨name, attributes, false⟩, rest)
      | '/' :: '>' :: rest => some (⟨name, attributes, true⟩, rest)
      | _ => none
  | _ => none

/-- A closing tag `</name>`, with blanks allowed behind the name. -/
def closingTag : Reader String
  | '<' :: '/' :: cs =>
    match tagName cs with
    | none => none
    | some (name, cs) =>
      match skipBlanks cs with
      | '>' :: rest => some (name, rest)
      | _ => none
  | _ => none

/-- An opening tag is at least its `<`. -/
theorem openingTag_consumes : Consumes openingTag := by
  intro cs tag rest h
  unfold openingTag at h
  split at h
  · rename_i cs
    split at h
    · simp at h
    · rename_i name tail hname
      have hn := tagName_consumes _ _ _ hname
      have hm := many_suffix nextAttribute nextAttribute_consumes tail
      have hall := ((skipBlanks_suffix _).trans hm).trans hn.1
      have hcons : rest <:+ cs := by
        simp only at h
        split at h
        · rename_i r heq
          simp only [Option.some.injEq, Prod.mk.injEq] at h
          rcases h with ⟨-, rfl⟩
          exact (heq ▸ List.suffix_cons _ _).trans hall
        · rename_i r heq
          simp only [Option.some.injEq, Prod.mk.injEq] at h
          rcases h with ⟨-, rfl⟩
          exact (heq ▸ (List.suffix_cons _ _).trans (List.suffix_cons _ _)).trans hall
        · simp at h
      exact ⟨hcons.trans (List.suffix_cons _ _),
        by simpa using Nat.lt_succ_of_le hcons.length_le⟩
  · simp at h

/-- A closing tag is at least its `</`. -/
theorem closingTag_consumes : Consumes closingTag := by
  intro cs name rest h
  unfold closingTag at h
  split at h
  · rename_i cs
    split at h
    · simp at h
    · rename_i name' tail hname
      have hn := tagName_consumes _ _ _ hname
      split at h
      · rename_i r heq
        simp only [Option.some.injEq, Prod.mk.injEq] at h
        rcases h with ⟨-, rfl⟩
        have hr : r <:+ cs :=
          ((heq ▸ List.suffix_cons '>' r).trans (skipBlanks_suffix tail)).trans hn.1
        have hl := hr.length_le
        exact ⟨(hr.trans (List.suffix_cons _ _)).trans (List.suffix_cons _ _),
          by simp only [List.length_cons]; omega⟩
      · simp at h
  · simp at h

end MarkupQuery.Markup
