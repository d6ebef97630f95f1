import MarkupQuery.Text.CombiningMark
import MarkupQuery.Text.Printable

/-!
# MarkupQuery.Text.Quoted — a text between double quotes

The quoted form shows any text on one line. A double quote and a backslash get a
backslash in front, NUL, tab, carriage return and line feed have an escape of one
letter, and every other character that does not show, or would join the quote before
it, is written by its code point in hexadecimal. A single quote stands as it is.
-/

namespace MarkupQuery.Text

/-- The escape of a character by its code point, in lower case and unpadded: `\u{301}`. -/
def codePointEscape (c : Char) : List Char :=
  ['\\', 'u', '\x7b'] ++ Nat.toDigits 16 c.toNat ++ ['\x7d']

/-- The form of one character between double quotes. -/
def escapeChar (c : Char) : List Char :=
  match c with
  | '\x00' => ['\\', '0']
  | '\t' => ['\\', 't']
  | '\r' => ['\\', 'r']
  | '\n' => ['\\', 'n']
  | '\\' => ['\\', '\\']
  | '"' => ['\\', '"']
  | c => if isCombiningMark c || !isPrintable c then codePointEscape c else [c]

/-- The quoted form of a text. -/
def quoted (s : String) : String :=
  String.ofList ('"' :: s.toList.flatMap escapeChar ++ ['"'])

end MarkupQuery.Text
