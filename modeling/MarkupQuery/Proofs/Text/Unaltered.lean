import MarkupQuery.Proofs.Text.Taking
import MarkupQuery.Text.Quoted

/-!
# MarkupQuery.Proofs.Text.Unaltered — texts that quoting leaves as they are

The quoted form of a text is the text itself between two quotes exactly if none of its
characters has an escape (`quoted_eq_iff`). Such a text holds no quote, and so it can be read
back up to the closing quote; the quoted form of any other text is read back as another
text (`flatMap_escapeChar_eq_of_before`).
-/

namespace MarkupQuery.Text

open Reader

/-! ## Quoting -/

/-- The digits of a number are digits. -/
theorem exists_digit_of_mem_toDigits {c : Char} {n : Nat} (h : c ∈ Nat.toDigits 16 n) :
    ∃ k, c = Nat.digitChar k := by
  induction n using Nat.strongRecOn with
  | ind n ih =>
    rw [Nat.toDigits_eq_if (by decide)] at h
    split at h
    · exact ⟨n, by simpa using h⟩
    · rcases List.mem_append.1 h with h | h
      · exact ih (n / 16) (by omega) h
      · exact ⟨n % 16, by simpa using h⟩

/-- Only the escape of a quote holds a quote. -/
theorem eq_quote_of_mem_escapeChar {c : Char} (h : '"' ∈ escapeChar c) : c = '"' := by
  unfold escapeChar at h
  split at h
  case h_6 => rfl
  case h_7 =>
    split at h
    · -- neither the frame of a code point nor its digits are quotes
      exfalso
      simp only [codePointEscape, List.mem_append, List.mem_cons, List.not_mem_nil] at h
      rcases h with (h | h) | h
      · revert h
        decide
      · obtain ⟨k, hk⟩ := exists_digit_of_mem_toDigits h
        exact Nat.digitChar_ne '"' (by decide) hk.symm
      · revert h
        decide
    · exact (List.mem_singleton.1 h).symm
  all_goals
    revert h
    decide

/-- Every character is written somehow. -/
theorem escapeChar_ne_nil (c : Char) : escapeChar c ≠ [] := by
  unfold escapeChar
  split
  case h_7 => split <;> simp [codePointEscape]
  all_goals simp

theorem length_le_flatMap_escapeChar (cs : List Char) :
    cs.length ≤ (cs.flatMap escapeChar).length := by
  induction cs with
  | nil => simp
  | cons c cs ih =>
    have hpos := List.length_pos_iff.2 (escapeChar_ne_nil c)
    rw [List.flatMap_cons, List.length_append, List.length_cons]
    omega

/-- A text is written as it is only if each of its characters is. -/
theorem flatMap_escapeChar_eq_self_iff {cs : List Char} :
    cs.flatMap escapeChar = cs ↔ ∀ c ∈ cs, escapeChar c = [c] := by
  induction cs with
  | nil => simp
  | cons c cs ih =>
    rw [List.flatMap_cons, List.forall_mem_cons, ← ih]
    constructor
    · intro h
      -- the escape of the first character cannot be longer, since nothing behind it is shorter
      have hone : (escapeChar c).length = 1 := by
        have hpos := List.length_pos_iff.2 (escapeChar_ne_nil c)
        have hrest := length_le_flatMap_escapeChar cs
        have hlength := congrArg List.length h
        rw [List.length_append, List.length_cons] at hlength
        omega
      obtain ⟨d, hd⟩ := List.length_eq_one_iff.1 hone
      rw [hd, List.singleton_append, List.cons.injEq] at h
      exact ⟨by rw [hd, h.1], h.2⟩
    · rintro ⟨hc, hcs⟩
      rw [hc, hcs, List.singleton_append]

/-- A text that is written as it is holds no quote. -/
theorem ne_quote_of_flatMap_escapeChar_eq {cs : List Char} (h : cs.flatMap escapeChar = cs) :
    ∀ c ∈ cs, c ≠ '"' := by
  rintro c hc rfl
  have hself := flatMap_escapeChar_eq_self_iff.1 h _ hc
  exact absurd hself (by decide)

/-- If what stands in front of the first quote of the written text is the text, then the text
is written as it is. -/
theorem flatMap_escapeChar_eq_of_before {cs behind rest : List Char}
    (h : before '"' (cs.flatMap escapeChar ++ '"' :: behind) = some (cs, rest)) :
    cs.flatMap escapeChar = cs ∧ rest = behind := by
  obtain ⟨-, hfree⟩ := before_eq_some_iff.1 h
  have hwritten : ∀ c ∈ cs.flatMap escapeChar, c ≠ '"' := by
    rintro c hc rfl
    obtain ⟨d, hd, hmem⟩ := List.mem_flatMap.1 hc
    exact hfree d hd (eq_quote_of_mem_escapeChar hmem)
  have hread := before_eq_some_iff.2
    ⟨(rfl : cs.flatMap escapeChar ++ '"' :: behind = _), hwritten⟩
  rw [h] at hread
  simp only [Option.some.injEq, Prod.mk.injEq] at hread
  exact ⟨hread.1.symm, hread.2⟩

/-- The quoted form of a text adds nothing but the quotes exactly if no character of the text
has an escape. -/
theorem quoted_eq_iff {s : String} :
    quoted s = "\"" ++ s ++ "\"" ↔ s.toList.flatMap escapeChar = s.toList := by
  rw [← String.toList_inj]
  simp [quoted]

end MarkupQuery.Text
