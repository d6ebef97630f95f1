import MarkupQuery.Proofs.Text.LongestReading
import MarkupQuery.Selector.Basic
import MarkupQuery.Text.WhiteSpace

/-!
# MarkupQuery.Proofs.Selector.Grammar — the grammar of selectors

The grammar of selector lists, as relations between texts and the tokens that they stand
for, independent of how they are read:

* list = ws* complex (ws* `,` ws* complex)* ws*
* complex = compound (combinator compound)*
* combinator = ws* (`>` | `+` | `~`) ws* | ws+
* compound = (identifier | `*`)? simple*, not empty
* simple = `.` identifier | `#` identifier | `::` identifier
  | `:` identifier (`(` characters other than `)` `)`)?
  | `[` ws* identifier ws* (operator ws* value)? ws* `]`
* operator = `=` | `~=` | `|=` | `^=` | `$=` | `*=` | `!=`
* value = `"` characters other than `"` `"` | `'` characters other than `'` `'` | identifier
* identifier = `-`? start (start | digit | `-`)*

where ws is space, tab, carriage return or line feed, and start is an ASCII letter, `_` or
any character beyond ASCII.
-/

namespace MarkupQuery.Selector.Grammar

open Reader (Sentences)

/-! ## Characters -/

/-- Any number of blanks. -/
def Blanks (w : List Char) : Prop :=
  ∀ c ∈ w, c = ' ' ∨ c = '\t' ∨ c = '\r' ∨ c = '\n'

/-- A character that can start an identifier. -/
def NameStart (c : Char) : Prop :=
  c.isAlpha ∨ c = '_' ∨ 0x80 ≤ c.toNat

/-- A character that can go on an identifier. -/
def NameRest (c : Char) : Prop :=
  NameStart c ∨ c.isDigit ∨ c = '-'

instance (c : Char) : Decidable (NameStart c) :=
  inferInstanceAs (Decidable (_ ∨ _))

instance (c : Char) : Decidable (NameRest c) :=
  inferInstanceAs (Decidable (_ ∨ _))

/-! ## Identifiers -/

/-- An identifier, as it is written. -/
inductive Identifier : Sentences String where
  | plain {start : Char} {name : List Char} :
      NameStart start → (∀ c ∈ name, NameRest c) →
      Identifier (start :: name) (String.ofList (start :: name))
  | dashed {start : Char} {name : List Char} :
      NameStart start → (∀ c ∈ name, NameRest c) →
      Identifier ('-' :: start :: name) (String.ofList ('-' :: start :: name))

/-! ## Simple selectors -/

/-- An operator of a test. -/
inductive Operator : Sentences AttributeTest where
  | equals : Operator ['='] .equals
  | includes : Operator ['~', '='] .includes
  | dashMatch : Operator ['|', '='] .dashMatch
  | startsWith : Operator ['^', '='] .startsWith
  | endsWith : Operator ['$', '='] .endsWith
  | contains : Operator ['*', '='] .contains
  | differs : Operator ['!', '='] .differs

/-- The value of a test, without its quotes. -/
inductive Value : Sentences String where
  | doubleQuoted {v : List Char} :
      (∀ c ∈ v, c ≠ '"') → Value ('"' :: (v ++ ['"'])) (String.ofList v)
  | singleQuoted {v : List Char} :
      (∀ c ∈ v, c ≠ '\'') → Value ('\'' :: (v ++ ['\''])) (String.ofList v)
  | bare {v : List Char} {s : String} : Identifier v s → Value v s

/-- What is asked of an attribute behind its name: nothing, or a test of its value. -/
inductive Condition : Sentences (AttributeTest × String) where
  | present : Condition [] (.present, "")
  | test {o w v : List Char} {test : AttributeTest} {value : String} :
      Operator o test → Blanks w → Value v value → Condition (o ++ (w ++ v)) (test, value)

/-- A selector that can stand anywhere in a compound. -/
inductive Simple : Sentences Token where
  | ofClass {p : List Char} {name : String} :
      Identifier p name → Simple ('.' :: p) (.attr "class" .includes name)
  | ofId {p : List Char} {name : String} :
      Identifier p name → Simple ('#' :: p) (.attr "id" .equals name)
  | pseudoElement {p : List Char} {name : String} :
      Identifier p name → Simple (':' :: ':' :: p) (.pseudoElement name)
  | pseudoClass {p : List Char} {name : String} :
      Identifier p name → Simple (':' :: p) (.pseudoClass name none)
  | pseudoClassOf {p arg : List Char} {name : String} :
      Identifier p name → (∀ c ∈ arg, c ≠ ')') →
      Simple (':' :: (p ++ '(' :: (arg ++ [')'])))
        (.pseudoClass name (some (Text.trim (String.ofList arg))))
  | bracketed {u v w p c : List Char} {name : String} {test : AttributeTest} {value : String} :
      Blanks u → Identifier p name → Blanks v → Condition c (test, value) → Blanks w →
      Simple ('[' :: (u ++ (p ++ (v ++ (c ++ (w ++ [']'])))))) (.attr name test value)

/-! ## Compounds, complex selectors and lists -/

/-- What a compound may start with: a type, `*`, or nothing. -/
inductive Front : Sentences Group where
  | nothing : Front [] []
  | tag {p : List Char} {name : String} : Identifier p name → Front p [.tag name]
  | universal : Front ['*'] [.universal]

/-- A compound. -/
inductive Compound : Sentences Group where
  | intro {p q : List Char} {front parts : Group} :
      Front p front → Sentences.Repeated Simple q parts → front ++ parts ≠ [] →
      Compound (p ++ q) (front ++ parts)

/-- The sign of a combinator. -/
inductive Sign : Char → Combinator → Prop where
  | child : Sign '>' .child
  | nextSibling : Sign '+' .nextSibling
  | subsequentSibling : Sign '~' .subsequentSibling

/-- A combinator: its sign with blanks around it, or blanks alone for a descendant. -/
inductive Link : Sentences Combinator where
  | explicit {v w : List Char} {c : Char} {which : Combinator} :
      Blanks v → Sign c which → Blanks w → Link (v ++ c :: w) which
  | descendant {w : List Char} : Blanks w → w ≠ [] → Link w .descendant

/-- A combinator and the compound behind it. -/
inductive Linked : Sentences Group where
  | intro {p q : List Char} {which : Combinator} {tokens : Group} :
      Link p which → Compound q tokens → Linked (p ++ q) (.combinator which :: tokens)

/-- A complex selector: compounds with combinators between them. -/
inductive Complex : Sentences Group where
  | intro {p q : List Char} {first : Group} {linked : List Group} :
      Compound p first → Sentences.Repeated Linked q linked →
      Complex (p ++ q) (first ++ linked.flatten)

/-- A comma with the blanks around it, and the complex selector behind it. -/
inductive Next : Sentences Group where
  | intro {v w p : List Char} {tokens : Group} :
      Blanks v → Blanks w → Complex p tokens → Next (v ++ ',' :: (w ++ p)) tokens

/-- A list of complex selectors, with their tokens group by group. -/
inductive SelectorList : Sentences (List Group) where
  | intro {v p q w : List Char} {first : Group} {others : List Group} :
      Blanks v → Complex p first → Sentences.Repeated Next q others → Blanks w →
      SelectorList (v ++ (p ++ (q ++ w))) (first :: others)

end MarkupQuery.Selector.Grammar
