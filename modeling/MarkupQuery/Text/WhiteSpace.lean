import MarkupQuery.Text.CodeRange

/-!
# MarkupQuery.Text.WhiteSpace — white space and trimming

White space is the Unicode property White_Space, 25 characters in all. Trimming takes
it off both ends of a text and nowhere else.
-/

namespace MarkupQuery.Text

/-- The ranges whose characters have the property White_Space. -/
def whiteSpaceRanges : List (Nat × Nat) :=
  [(0x0009, 0x000D), (0x0020, 0x0020), (0x0085, 0x0085), (0x00A0, 0x00A0), (0x1680, 0x1680),
   (0x2000, 0x200A), (0x2028, 0x2029), (0x202F, 0x202F), (0x205F, 0x205F), (0x3000, 0x3000)]

/-- The character is white space. -/
def isWhiteSpace (c : Char) : Bool :=
  inRanges whiteSpaceRanges c.toNat

/-- The characters left when white space is taken off both ends. -/
def trimChars (cs : List Char) : List Char :=
  ((cs.dropWhile isWhiteSpace).reverse.dropWhile isWhiteSpace).reverse

/-- The text without the white space at its two ends. -/
def trim (s : String) : String :=
  String.ofList (trimChars s.toList)

end MarkupQuery.Text
