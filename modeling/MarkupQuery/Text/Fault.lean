/-!
# MarkupQuery.Text.Fault — where and why a text cannot be read

Places in a text are given in bytes of its UTF-8 form. A text that has to be read to
its end is at fault where its reading stops before that.
-/

namespace MarkupQuery

/-- The byte where reading failed, and the reason. -/
structure Fault where
  offset : Nat
  reason : String
deriving Repr, DecidableEq

/-- The length of a text in bytes of UTF-8. -/
def utf8Length (cs : List Char) : Nat :=
  (String.ofList cs).utf8ByteSize

/-- Lengths add up. -/
theorem utf8Length_append (cs ds : List Char) :
    utf8Length (cs ++ ds) = utf8Length cs + utf8Length ds := by
  simp [utf8Length]

/-- The byte of `cs` at which its tail `rest` starts. -/
def offsetOf (cs rest : List Char) : Nat :=
  utf8Length cs - utf8Length rest

/-- A tail starts behind the bytes of what stands before it. -/
theorem offsetOf_append (taken rest : List Char) :
    offsetOf (taken ++ rest) rest = utf8Length taken := by
  rw [offsetOf, utf8Length_append]
  exact Nat.add_sub_cancel ..

/-- The reason for a fault where text is left over. -/
def leftOver : String := "unexpected input"

/-- The value read from `cs`, provided that nothing of it is left. -/
def wholly {α : Type} (cs : List Char) (answer : α × List Char) : Except Fault α :=
  match answer with
  | (value, []) => .ok value
  | (_, rest) => .error ⟨offsetOf cs rest, leftOver⟩

/-- A text is read wholly exactly when nothing of it is left. -/
theorem wholly_eq_ok_iff {α : Type} {cs rest : List Char} {a b : α} :
    wholly cs (a, rest) = .ok b ↔ rest = [] ∧ a = b := by
  cases rest <;> simp [wholly]

/-- Otherwise the fault is where the rest starts. -/
theorem wholly_eq_error_iff {α : Type} {cs : List Char} {answer : α × List Char}
    {fault : Fault} : wholly cs answer = .error fault ↔
      answer.2 ≠ [] ∧ fault = ⟨offsetOf cs answer.2, leftOver⟩ := by
  obtain ⟨a, rest⟩ := answer
  cases rest <;> simp [wholly, eq_comm]

end MarkupQuery
