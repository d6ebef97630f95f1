import MarkupQuery.Text.Reader

/-!
# MarkupQuery.Selector.Identifier — identifiers in selectors

An identifier is an optional dash, a character that can start a name, and any number
of characters that can go on one. Every character beyond ASCII can do both.
-/

namespace MarkupQuery.Selector

open Reader

/-- An ASCII letter, an underscore, or any character beyond ASCII. -/
def isNameStart (c : Char) : Bool :=
  c.isAlpha || c == '_' || 0x80 ≤ c.toNat

/-- A character that can go on a name. -/
def isNameChar (c : Char) : Bool :=
  isNameStart c || c.isDigit || c == '-'

/-- An identifier without a leading dash. -/
def bareIdentifier : Reader (List Char)
  | [] => none
  | c :: cs =>
    if isNameStart c then some (c :: cs.takeWhile isNameChar, cs.dropWhile isNameChar)
    else none

/-- The longest identifier at the front of a text. -/
def identifier : Reader String := fun cs =>
  match cs with
  | '-' :: rest => mapValue (fun name => String.ofList ('-' :: name)) bareIdentifier rest
  | _ => mapValue String.ofList bareIdentifier cs

/-- A bare identifier has at least one character. -/
theorem bareIdentifier_consumes : Consumes bareIdentifier := by
  intro cs name rest h
  cases cs with
  | nil => simp [bareIdentifier] at h
  | cons c cs =>
    simp only [bareIdentifier] at h
    split at h
    · simp only [Option.some.injEq, Prod.mk.injEq] at h
      rcases h with ⟨-, rfl⟩
      exact leaves_behind (List.dropWhile_suffix isNameChar)
    · simp at h

/-- An identifier has at least one character. -/
theorem identifier_consumes : Consumes identifier := by
  intro cs name rest h
  unfold identifier at h
  split at h
  · exact leaves_behind (mapValue_consumes _ bareIdentifier_consumes _ _ _ h).1
  · exact mapValue_consumes _ bareIdentifier_consumes _ _ _ h

end MarkupQuery.Selector
