/-!
# MarkupQuery.Selector.Basic — selectors as sequences of tokens

A selector list is a list of groups. A group is a flat sequence of tokens: the simple
selectors of its compounds, with a combinator between one compound and the next. The
selectors for a class and for an id are tests of the attributes `class` and `id`.
-/

namespace MarkupQuery.Selector

/-- How the elements matched by two neighbouring compounds are related. -/
inductive Combinator where
  | descendant
  | child
  | nextSibling
  | subsequentSibling
deriving Repr, DecidableEq

/-- What is asked of the value of an attribute. -/
inductive AttributeTest where
  /-- nothing: the attribute has to be there -/
  | present
  | equals
  /-- one of its words is the given one -/
  | includes
  /-- it is the given text, or starts with it and a dash -/
  | dashMatch
  | startsWith
  | endsWith
  | contains
  | differs
deriving Repr, DecidableEq

/-- One token of a selector. -/
inductive Token where
  | tag (name : String)
  | universal
  | attr (name : String) (test : AttributeTest) (value : String)
  | pseudoClass (name : String) (argument : Option String)
  | pseudoElement (name : String)
  | combinator (which : Combinator)
deriving Repr, DecidableEq

/-- One selector of a comma list. -/
abbrev Group := List Token

/-- The selector `.name`: the attribute `class` includes the word `name`. -/
def Token.ofClass (name : String) : Token :=
  .attr "class" .includes name

/-- The selector `#name`: the attribute `id` equals `name`. -/
def Token.ofId (name : String) : Token :=
  .attr "id" .equals name

end MarkupQuery.Selector
