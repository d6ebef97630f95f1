import MarkupQuery.Markup.Token

/-!
# MarkupQuery.Proofs.Markup.Rendering — documents written as markup

A document can be written down if it has nothing in it that markup cannot say
(`Document.Writable`): names of elements are names, no value holds the quote that closes
it, void elements are empty, raw text does not close its own element, no two texts stand
side by side, and elements are not nested too deeply.

There are many ways to write it down. `Writes` relates a forest to its renderings: texts
are written as they are and tags in one form, but anywhere between nodes and inside of
texts there may be markup that says nothing (`Noise`). A rendering is given together with
the text behind it, since it depends on that text whether a `<` in a text is plain.
-/

namespace MarkupQuery

open Markup

/-! ## Documents that can be written -/

/-- An ASCII letter and characters that may follow it in a name. -/
def IsName (name : String) : Prop :=
  ∃ c cs, name.toList = c :: cs ∧ c.isAlpha = true ∧ ∀ d ∈ cs, isNameChar d = true

/-- The key is not empty and free of what ends a key; the value is free of its quote. -/
structure Attribute.Writable (a : Attribute) : Prop where
  key_ne_nil : a.key.toList ≠ []
  key_free : ∀ c ∈ a.key.toList, c ∉ [' ', '\t', '\r', '\n', '"', '\'', '>', '/', '=']
  value_free : ∀ c ∈ a.value.toList, c ≠ '"'

/-- Somewhere in the text stands `</name`, in any case. -/
def HoldsEndTag (name : String) (raw : List Char) : Prop :=
  ∃ before name' after, raw = before ++ '<' :: '/' :: (name' ++ after) ∧
    sameName (String.ofList name') name = true

/-- Nothing, or one text that does not end the raw text element of this name. -/
def IsRaw (name : String) (contents : List Node) : Prop :=
  contents = [] ∨ ∃ raw, contents = [.text raw] ∧ ¬ HoldsEndTag name raw.toList

namespace Node

/-- The forest starts with a text. -/
def StartsWithText : List Node → Prop
  | .text _ :: _ => True
  | _ => False

mutual

/-- A node that can be written, but for how deep it is. -/
def Writable : Node → Prop
  | .text content => content.toList ≠ []
  | .element name attributes contents =>
    IsName name ∧ (∀ a ∈ attributes, a.Writable) ∧
      (isVoid name = true → contents = []) ∧ (isRawText name = true → IsRaw name contents) ∧
      WritableAll contents

/-- Nodes that can be written, with no two texts side by side. -/
def WritableAll : List Node → Prop
  | [] => True
  | n :: ns => n.Writable ∧ ¬ (StartsWithText [n] ∧ StartsWithText ns) ∧ WritableAll ns

end

mutual

/-- How many elements are nested in each other. -/
def depth : Node → Nat
  | .text _ => 0
  | .element _ _ contents => depthAll contents + 1

/-- How many elements are nested in each other in a forest. -/
def depthAll : List Node → Nat
  | [] => 0
  | n :: ns => max n.depth (depthAll ns)

end

end Node

/-- A document that can be written. -/
structure Document.Writable (d : Document) : Prop where
  nodes : Node.WritableAll d.contents
  depth : Node.depthAll d.contents ≤ 512

/-! ## Tags -/

/-- The attributes of a tag, with a blank before each and their values in quotes. -/
def writtenAttributes (attributes : List Attribute) : List Char :=
  attributes.flatMap fun a =>
    ' ' :: (a.key.toList ++ '=' :: '"' :: (a.value.toList ++ ['"']))

/-- The tag `<name key="value" …>`. -/
def writtenOpening (name : String) (attributes : List Attribute) : List Char :=
  '<' :: (name.toList ++ (writtenAttributes attributes ++ ['>']))

/-- The tag `</name>`. -/
def writtenClosing (name : String) : List Char :=
  '<' :: '/' :: (name.toList ++ ['>'])

/-! ## Renderings -/

/-- Markup that says nothing where elements of these names are open: comments, declarations,
and closing tags of other names. -/
inductive Noise (opened : List String) : List Char → Prop where
  | comment {c : List Char} :
      ¬ ['-', '-', '>'] <:+: c → Noise opened ('<' :: '!' :: '-' :: '-' :: (c ++ ['-', '-', '>']))
  | declaration {d : List Char} :
      (∀ c ∈ d, c ≠ '>') → ¬ ['-', '-'] <+: d → Noise opened ('<' :: '!' :: (d ++ ['>']))
  | instruction {d : List Char} :
      (∀ c ∈ d, c ≠ '>') → Noise opened ('<' :: '?' :: (d ++ ['>']))
  | closing {name : String} :
      IsName name → (∀ n ∈ opened, sameName n name = false) → Noise opened (writtenClosing name)

/-- A `<` in front of this text starts no markup. -/
structure StartsNothing (follow : List Char) : Prop where
  head : ∀ c ∈ follow.head?, c.isAlpha = false ∧ c ≠ '!' ∧ c ≠ '?'
  closing : ∀ name blanks rest, IsName name → (∀ c ∈ blanks, isBlank c = true) →
    follow ≠ '/' :: (name.toList ++ (blanks ++ '>' :: rest))

/-- The text as it is written in front of `rest`, with noise in it. A `<` of it stands only
where it starts no markup. -/
inductive Spreads (opened : List String) (rest : List Char) : List Char → List Char → Prop where
  | nil : Spreads opened rest [] rest
  | char {c : Char} {t whole : List Char} :
      (c = '<' → StartsNothing whole) → Spreads opened rest t whole →
      Spreads opened rest (c :: t) (c :: whole)
  | noise {n t whole : List Char} :
      Noise opened n → Spreads opened rest t whole → Spreads opened rest t (n ++ whole)

/-- The forest as it is written in front of `rest`, inside of open elements of the given
names, with noise between its nodes. -/
inductive Writes : List String → List Char → List Node → List Char → Prop where
  | nil {opened : List String} {rest : List Char} : Writes opened rest [] rest
  | noise {opened : List String} {rest n whole : List Char} {ns : List Node} :
      Noise opened n → Writes opened rest ns whole → Writes opened rest ns (n ++ whole)
  | text {opened : List String} {rest whole whole' : List Char} {content : String}
      {ns : List Node} :
      Writes opened rest ns whole → Spreads opened whole content.toList whole' →
      Writes opened rest (.text content :: ns) whole'
  | void {opened : List String} {rest whole : List Char} {name : String}
      {attributes : List Attribute} {ns : List Node} :
      isVoid name = true → Writes opened rest ns whole →
      Writes opened rest (.element name attributes [] :: ns)
        (writtenOpening name attributes ++ whole)
  | raw {opened : List String} {rest whole raw : List Char} {name : String}
      {attributes : List Attribute} {ns : List Node} :
      isRawText name = true → Writes opened rest ns whole →
      Writes opened rest (.element name attributes (rawContents raw) :: ns)
        (writtenOpening name attributes ++ (raw ++ (writtenClosing name ++ whole)))
  | element {opened : List String} {rest inner whole : List Char} {name : String}
      {attributes : List Attribute} {contents ns : List Node} :
      isVoid name = false → isRawText name = false → Writes opened rest ns whole →
      Writes (name :: opened) (writtenClosing name ++ whole) contents inner →
      Writes opened rest (.element name attributes contents :: ns)
        (writtenOpening name attributes ++ inner)

/-- The text is a rendering of the document. -/
def Document.IsWritten (d : Document) (cs : List Char) : Prop :=
  Writes [] [] d.contents cs

end MarkupQuery
