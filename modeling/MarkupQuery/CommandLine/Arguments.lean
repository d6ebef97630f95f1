/-!
# MarkupQuery.CommandLine.Arguments — what the arguments ask for

Arguments are taken out of their list one kind after the other: the flag for tracing,
the flag for the first match, the option that names an attribute, then the selector
and the file in front of what is left. A flag takes one argument away, so a second one
stays and counts as a selector or a file; so does any unknown option. The value of the
option is the next argument, whatever that is, or stands behind `=` in the same one.
-/

namespace MarkupQuery.CommandLine

/-- What a run was asked to do. -/
structure Arguments where
  trace : Bool
  first : Bool
  attr : Option String
  selector : String
  file : Option String
deriving Repr, DecidableEq

/-- Why arguments make no sense. -/
inductive ArgumentError where
  /-- the option has no value -/
  | missingValue (key : String)
  /-- there is no selector -/
  | missingSelector
deriving Repr, DecidableEq

/-- The message of an argument error. -/
def ArgumentError.message : ArgumentError → String
  | .missingValue key => "the '" ++ key ++ "' option doesn't have an associated value"
  | .missingSelector => "free-standing argument is missing"

/-! ## Flags -/

/-- Take one flag away. Its long form is looked for in all arguments before its short
form. -/
def takeFlag (long short : String) (args : List String) : Bool × List String :=
  if args.contains long then (true, args.erase long)
  else if args.contains short then (true, args.erase short)
  else (false, args)

/-! ## Options -/

/-- The outcome of looking for an option: not there, there without a value, or its value
and the other arguments. -/
abbrev OptionSearch := Option (Except ArgumentError (String × List String))

/-- Put an argument back in front of the others. -/
def OptionSearch.behind (arg : String) : OptionSearch → OptionSearch
  | some (.ok (value, others)) => some (.ok (value, arg :: others))
  | search => search

/-- An option whose value is the next argument. -/
def takeSpaced (key : String) : List String → OptionSearch
  | [] => none
  | [arg] => if arg = key then some (.error (.missingValue key)) else none
  | arg :: value :: others =>
    if arg = key then some (.ok (value, others))
    else (takeSpaced key (value :: others)).behind arg

/-- The value behind `=`. Quotes around it are dropped; it must not be empty, and a quote
in front has to be closed at the end. -/
def unquoteValue (cs : List Char) : Option (List Char) :=
  match cs with
  | [] => none
  | c :: inside =>
    if c = '"' ∨ c = '\'' then
      if inside.getLast? = some c ∧ inside.dropLast ≠ [] then some inside.dropLast else none
    else some cs

/-- An option whose value stands behind `=` in the same argument. -/
def takeJoined (key : String) : List String → OptionSearch
  | [] => none
  | arg :: others =>
    if (key ++ "=").toList.isPrefixOf arg.toList then
      match unquoteValue (arg.toList.drop (key ++ "=").length) with
      | some value => some (.ok (String.ofList value, others))
      | none => some (.error (.missingValue key))
    else (takeJoined key others).behind arg

/-- Take an option away. Forms with a space are looked for before forms with `=`, and of
each the long one before the short one. -/
def takeOption (long short : String) (args : List String) :
    Except ArgumentError (Option String × List String) :=
  match (takeSpaced long args).or <| (takeSpaced short args).or <|
      (takeJoined long args).or <| takeJoined short args with
  | none => .ok (none, args)
  | some (.ok (value, others)) => .ok (some value, others)
  | some (.error err) => .error err

/-! ## All arguments -/

/-- What the arguments ask for. -/
def Arguments.parse (args : List String) : Except ArgumentError Arguments :=
  let (trace, args) := takeFlag "--trace" "-t" args
  let (first, args) := takeFlag "--first" "-1" args
  match takeOption "--attr" "-a" args with
  | .error err => .error err
  | .ok (_, []) => .error .missingSelector
  | .ok (attr, selector :: others) => .ok ⟨trace, first, attr, selector, others.head?⟩

end MarkupQuery.CommandLine
