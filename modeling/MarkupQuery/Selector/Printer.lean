import MarkupQuery.Selector.Basic
import MarkupQuery.Text.Quoted

/-!
# MarkupQuery.Selector.Printer — writing selectors

Each token is written in selector syntax. A class and an id have their short forms
whatever their value; the value of any other test is quoted.
-/

namespace MarkupQuery.Selector

/-- The operator of a test. -/
def AttributeTest.operator : AttributeTest → String
  | .present => ""
  | .equals => "="
  | .includes => "~="
  | .dashMatch => "|="
  | .startsWith => "^="
  | .endsWith => "$="
  | .contains => "*="
  | .differs => "!="

/-- A combinator with the blanks around it. -/
def Combinator.render : Combinator → String
  | .descendant => " "
  | .child => " > "
  | .nextSibling => " + "
  | .subsequentSibling => " ~ "

/-- The test of an attribute between brackets. -/
def renderTest (name : String) (test : AttributeTest) (value : String) : String :=
  match test with
  | .present => "[" ++ name ++ "]"
  | _ => "[" ++ name ++ test.operator ++ Text.quoted value ++ "]"

/-- A token in selector syntax. -/
def Token.render : Token → String
  | .tag name => name
  | .universal => "*"
  | .attr name test value =>
    if name = "class" ∧ test = .includes then "." ++ value
    else if name = "id" ∧ test = .equals then "#" ++ value
    else renderTest name test value
  | .pseudoClass name (some argument) => ":" ++ name ++ "(" ++ argument ++ ")"
  | .pseudoClass name none => ":" ++ name
  | .pseudoElement name => "::" ++ name
  | .combinator which => which.render

/-- A group in selector syntax: its tokens with nothing between them. -/
def renderGroup (group : Group) : String :=
  String.join (group.map Token.render)

end MarkupQuery.Selector
