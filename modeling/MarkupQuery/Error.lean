import MarkupQuery.Selector.Printer
import MarkupQuery.Text.Fault

/-!
# MarkupQuery.Error — what can go wrong in a query

A document or a selector cannot be read, the search meets a token it has no test for,
or a value is asked of an element that is not there.
-/

namespace MarkupQuery

/-- The two kinds of text that a query reads. -/
inductive Input where
  | html
  | selector
deriving Repr, DecidableEq

/-- The cause of a failed query. -/
inductive Error where
  | unreadable (input : Input) (fault : Fault)
  | unsupported (token : Selector.Token)
  | noElement
deriving Repr, DecidableEq

/-- The name of an input in messages. -/
def Input.label : Input → String
  | .html => "HTML"
  | .selector => "selector"

/-- The message of an error. -/
def Error.message : Error → String
  | .unreadable input fault =>
    "Could not parse " ++ input.label ++ " at byte " ++ toString fault.offset ++ ": " ++
      fault.reason
  | .unsupported token => "Unsupported selector token: " ++ token.render
  | .noElement => "No element found"

end MarkupQuery
