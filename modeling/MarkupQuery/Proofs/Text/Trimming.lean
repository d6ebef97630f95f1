import Mathlib.Data.List.DropRight
import MarkupQuery.Proofs.Text.Taking
import MarkupQuery.Text.WhiteSpace

/-!
# MarkupQuery.Proofs.Text.Trimming — what trimming leaves of a text

Trimming takes white space off the front of a text first, and then off the end. What is left
is part of the text, with no white space at its ends (`isTight_trimChars`), so that trimming
it again changes nothing (`trim_trim`). Nothing is left of a text that is all white space, and
of no other (`trim_eq_empty_iff`).
-/

namespace MarkupQuery.Text

open Reader

theorem trimChars_eq (cs : List Char) :
    trimChars cs = (cs.dropWhile isWhiteSpace).rdropWhile isWhiteSpace := rfl

/-- Trimming only takes away. -/
theorem mem_of_mem_trimChars {c : Char} {cs : List Char} (h : c ∈ trimChars cs) : c ∈ cs := by
  rw [trimChars_eq] at h
  exact (List.dropWhile_suffix _).subset ((List.rdropWhile_prefix _ _).subset h)

/-! ## Texts without white space at their ends -/

/-- The text neither begins nor ends with white space. -/
def IsTight (cs : List Char) : Prop :=
  (∀ c ∈ cs.head?, isWhiteSpace c = false) ∧ ∀ c ∈ cs.getLast?, isWhiteSpace c = false

theorem isTight_trimChars (cs : List Char) : IsTight (trimChars cs) := by
  rw [trimChars_eq]
  constructor
  · -- a front of a text that starts with no white space starts with none
    intro c hc
    exact not_of_mem_head?_dropWhile c (head?_of_front (List.rdropWhile_prefix _ _) c hc)
  · intro c hc
    obtain ⟨hne, rfl⟩ := List.mem_getLast?_eq_getLast hc
    simpa using List.rdropWhile_last_not _ _ hne

/-- A trimmed text is not changed by trimming. -/
theorem trimChars_trimChars (cs : List Char) : trimChars (trimChars cs) = trimChars cs := by
  have hfront : (trimChars cs).dropWhile isWhiteSpace = trimChars cs := by
    have htight := isTight_trimChars cs
    cases htrim : trimChars cs with
    | nil => rfl
    | cons c t => simp [htight.1 c (by simp [htrim])]
  rw [trimChars_eq, hfront, trimChars_eq, List.rdropWhile_idempotent]

theorem trim_trim (s : String) : trim (trim s) = trim s := by
  rw [trim, trim, String.toList_ofList, trimChars_trimChars]

/-- Tight texts stay tight one behind the other, also where one of them is empty. -/
theorem IsTight.append {cs ds : List Char} (hc : IsTight cs) (hd : IsTight ds) :
    IsTight (cs ++ ds) := by
  constructor
  · intro c h
    rcases List.eq_nil_or_concat cs with rfl | ⟨_, _, rfl⟩
    · exact hd.1 c h
    · exact hc.1 c (by simpa using h)
  · intro c h
    rcases List.eq_nil_or_concat ds with rfl | ⟨_, _, rfl⟩
    · exact hc.2 c (by simpa using h)
    · exact hd.2 c (by simpa using h)

theorem isTight_join {ss : List String} (h : ∀ s ∈ ss, IsTight s.toList) :
    IsTight (String.join ss).toList := by
  induction ss with
  | nil => simp [IsTight]
  | cons s ss ih =>
    rw [List.forall_mem_cons] at h
    rw [String.join_cons, String.toList_append]
    exact h.1.append (ih h.2)

/-! ## White texts -/

/-- There is nothing but white space in the text. -/
def isWhite (s : String) : Bool :=
  s.toList.all isWhiteSpace

/-- Nothing is left of a text that is trimmed exactly if all of it is white space. -/
theorem trimChars_eq_nil_iff {cs : List Char} :
    trimChars cs = [] ↔ ∀ c ∈ cs, isWhiteSpace c = true := by
  rw [trimChars_eq, List.rdropWhile_eq_nil_iff]
  constructor
  · intro hwhite
    -- what stands behind the white space at the front starts with none
    have hnil : cs.dropWhile isWhiteSpace = [] := by
      rw [← List.head?_eq_none_iff, Option.eq_none_iff_forall_not_mem]
      intro c hc
      have hnot := not_of_mem_head?_dropWhile c hc
      rw [hwhite c (List.mem_of_mem_head? hc)] at hnot
      simp at hnot
    exact List.dropWhile_eq_nil_iff.1 hnil
  · intro hwhite c hc
    exact hwhite c ((List.dropWhile_suffix _).subset hc)

theorem trim_eq_empty_iff {s : String} : trim s = "" ↔ isWhite s = true := by
  rw [isWhite, List.all_eq_true, ← trimChars_eq_nil_iff, trim, ← String.toList_inj,
    String.toList_ofList, String.toList_empty]

theorem isWhite_trim (s : String) : isWhite (trim s) = isWhite s := by
  rw [Bool.eq_iff_iff, ← trim_eq_empty_iff, ← trim_eq_empty_iff, trim_trim]

end MarkupQuery.Text
