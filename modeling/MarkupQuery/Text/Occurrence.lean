/-!
# MarkupQuery.Text.Occurrence — one text inside another

A text occurs in another where its characters stand there in one run. The empty text
occurs in every text.
-/

namespace MarkupQuery.Text

/-- The `needle` stands somewhere in the text. -/
def occursIn (needle : List Char) : List Char → Bool
  | [] => needle.isEmpty
  | c :: cs => needle.isPrefixOf (c :: cs) || occursIn needle cs

/-- To occur in a text is to be an infix of it. -/
theorem occursIn_iff {needle cs : List Char} :
    occursIn needle cs = true ↔ needle <:+: cs := by
  induction cs with
  | nil => simp [occursIn]
  | cons c cs ih => simp [occursIn, List.infix_cons_iff, ih]

end MarkupQuery.Text
