import MarkupQuery.Proofs.Markup.Rendering
import MarkupQuery.Proofs.Text.Taking

/-!
# MarkupQuery.Proofs.Markup.Names — blanks, names and keys

Blanks are skipped up to the first character that is none, and a name is read up to the first
character that is in no name. So a name is what is read as one to its end (`isName_iff`).
-/

namespace MarkupQuery.Markup

open Reader

/-! ## Blanks -/

/-- Behind blanks stands a character that is none. -/
theorem skipBlanks_eq_cons_iff {c : Char} (hc : isBlank c = false) {cs rest : List Char} :
    skipBlanks cs = c :: rest ↔
      ∃ blanks, (∀ d ∈ blanks, isBlank d = true) ∧ cs = blanks ++ c :: rest := by
  constructor
  · intro h
    refine ⟨cs.takeWhile isBlank, fun d hd => List.mem_takeWhile_imp hd, ?_⟩
    rw [← h, skipBlanks, List.takeWhile_append_dropWhile]
  · rintro ⟨blanks, hblanks, rfl⟩
    exact (span_append hblanks (by simpa using hc)).2

/-! ## Names -/

/-- A blank is in no name. -/
theorem isNameChar_of_isBlank {c : Char} (hc : isBlank c = true) : isNameChar c = false := by
  simp only [isBlank, Bool.or_eq_true, beq_iff_eq] at hc
  rcases hc with ((rfl | rfl) | rfl) | rfl <;> decide

/-- A name is read up to the first character that is in no name. -/
theorem tagName_append {name : String} (hname : IsName name) {t : List Char}
    (ht : ∀ c ∈ t.head?, isNameChar c = false) : tagName (name.toList ++ t) = some (name, t) := by
  obtain ⟨c, cs, hcs, halpha, hrest⟩ := hname
  obtain ⟨htake, hdrop⟩ := span_append hrest ht
  rw [hcs, List.cons_append, tagName, if_pos halpha, htake, hdrop, ← hcs, String.ofList_toList]

/-- What is read as a name is one. -/
theorem isName_of_tagName {cs rest : List Char} {name : String}
    (h : tagName cs = some (name, rest)) : IsName name ∧ cs = name.toList ++ rest := by
  cases cs with
  | nil => simp [tagName] at h
  | cons c cs =>
    simp only [tagName] at h
    split at h
    · rename_i halpha
      simp only [Option.some.injEq, Prod.mk.injEq] at h
      obtain ⟨rfl, rfl⟩ := h
      refine ⟨⟨c, _, String.toList_ofList, halpha, ?_⟩, ?_⟩
      · intro d hd
        exact List.mem_takeWhile_imp hd
      · rw [String.toList_ofList, List.cons_append, List.takeWhile_append_dropWhile]
    · simp at h

/-- A name is what is read as one to its end. -/
theorem isName_iff {name : String} :
    IsName name ↔ tagName name.toList = some (name, []) := by
  constructor
  · intro hname
    have hread := tagName_append hname (t := []) (by simp)
    rwa [List.append_nil] at hread
  · intro hread
    exact (isName_of_tagName hread).1

/-! ## Keys -/

/-- A blank is not part of a key. -/
theorem isKeyChar_of_isBlank {c : Char} (hc : isBlank c = true) : isKeyChar c = false := by
  simp [isKeyChar, hc]

/-- A character that may stand in a written key belongs to the key when it is read. -/
theorem isKeyChar_of_free {c : Char}
    (hc : c ∉ [' ', '\t', '\r', '\n', '"', '\'', '>', '/', '=']) : isKeyChar c = true := by
  simp only [List.mem_cons, not_or] at hc
  simp [isKeyChar, isBlank, hc]

end MarkupQuery.Markup
