import MarkupQuery.Text.Alphanumeric
import MarkupQuery.Text.Reader

/-!
# MarkupQuery.Markup.Name — the names of elements

A name is an ASCII letter followed by letters and numbers of any script and the
characters `-`, `_`, `:`, `.`. Names are compared without regard to the case of ASCII
letters. Two kinds of names are special: void elements never have contents, and the
contents of raw text elements are not markup.
-/

namespace MarkupQuery.Markup

/-- A character that may follow the first letter of a name. -/
def isNameChar (c : Char) : Bool :=
  Text.isAlphanumeric c || c == '-' || c == '_' || c == ':' || c == '.'

/-- The longest name at the front of a text. -/
def tagName : Reader String
  | [] => none
  | c :: cs =>
    if c.isAlpha then
      some (String.ofList (c :: cs.takeWhile isNameChar), cs.dropWhile isNameChar)
    else none

/-- A name has at least its first letter. -/
theorem tagName_consumes : Reader.Consumes tagName := by
  intro cs name rest h
  cases cs with
  | nil => simp [tagName] at h
  | cons c cs =>
    simp only [tagName] at h
    split at h
    · simp only [Option.some.injEq, Prod.mk.injEq] at h
      rcases h with ⟨-, rfl⟩
      have hs := List.dropWhile_suffix isNameChar (l := cs)
      exact ⟨hs.trans (List.suffix_cons c cs), by simpa using Nat.lt_succ_of_le hs.length_le⟩
    · simp at h

/-- The characters of a name with ASCII letters in lower case. -/
def foldCase (name : String) : List Char :=
  name.toList.map Char.toLower

/-- Equal but for the case of ASCII letters. -/
def sameName (a b : String) : Bool :=
  foldCase a == foldCase b

/-- The names of the elements that never have contents or a closing tag. -/
def voidNames : List String :=
  ["area", "base", "br", "col", "embed", "hr", "img", "input", "link", "meta", "source",
   "track", "wbr"]

/-- The names of the elements whose contents are kept as they are written. -/
def rawTextNames : List String :=
  ["script", "style"]

/-- The name of a void element, in any case. -/
def isVoid (name : String) : Bool :=
  voidNames.any (sameName name)

/-- The name of a raw text element, in any case. -/
def isRawText (name : String) : Bool :=
  rawTextNames.any (sameName name)

end MarkupQuery.Markup
