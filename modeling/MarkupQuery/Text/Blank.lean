import MarkupQuery.Text.Reader

/-!
# MarkupQuery.Text.Blank — the blanks between the parts of markup and selectors

Only space, tab, carriage return and line feed separate; no other white space does.
-/

namespace MarkupQuery

/-- Space, tab, carriage return or line feed. -/
def isBlank (c : Char) : Bool :=
  c == ' ' || c == '\t' || c == '\r' || c == '\n'

/-- The text behind the blanks at its front. -/
def skipBlanks (cs : List Char) : List Char :=
  cs.dropWhile isBlank

/-- Skipping blanks leaves a tail of the text. -/
theorem skipBlanks_suffix (cs : List Char) : skipBlanks cs <:+ cs :=
  List.dropWhile_suffix isBlank

/-- Skipping blanks adds no character. -/
theorem length_skipBlanks_le (cs : List Char) : (skipBlanks cs).length ≤ cs.length :=
  (skipBlanks_suffix cs).length_le

end MarkupQuery
