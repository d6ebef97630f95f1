import MarkupQuery.CommandLine.Arguments
import MarkupQuery.Query

/-!
# MarkupQuery.CommandLine.Run — one run of the command

A run takes its arguments, reads a document from a file or from standard input, and
prints one line for each element that the selector finds: the value of an attribute, or
the text of the element. Lines are printed one by one; a failure ends the run, leaves the
lines before it, and is reported. What fails first is reported: the arguments, reading
the input, the document, the selector, printing.
-/

namespace MarkupQuery.CommandLine

/-- What a run leaves behind. -/
structure Outcome where
  exitCode : Nat
  stdout : String
  stderr : String
deriving Repr, DecidableEq

/-- A failed run: what failed, and what lies behind that. -/
structure Failure where
  message : String
  cause : Option String
deriving Repr, DecidableEq

/-- Where the document comes from. -/
inductive Source where
  | stdin
  | file (path : String)
deriving Repr, DecidableEq

/-- What can be read: the bytes of a source, or the cause why there are none. -/
abbrev Inputs := Source → Except String ByteArray

/-- The line on how to use the command. -/
def usage : String := "Usage: hq [--trace] [--first] [--attr NAME] <SELECTOR> [FILE]"

/-- The cause of a failure to read bytes that are no text. -/
def notUtf8 : String := "stream did not contain valid UTF-8"

/-- The report of a failure. -/
def Failure.report (f : Failure) : String :=
  match f.cause with
  | none => "Error: " ++ f.message ++ "\n"
  | some cause => "Error: " ++ f.message ++ "\n\nCaused by:\n    " ++ cause ++ "\n"

/-- A failed query as a failed run. -/
def Failure.ofError (err : Error) : Failure := ⟨err.message, none⟩

/-- The message where a source cannot be read. -/
def Source.unreadable : Source → String
  | .stdin => "Could not read stdin"
  | .file path => "Could not read " ++ path

/-- The source that the arguments name. -/
def Arguments.source (args : Arguments) : Source :=
  match args.file with
  | some path => .file path
  | none => .stdin

/-- The text of a source. -/
def readText (inputs : Inputs) (source : Source) : Except Failure String :=
  match inputs source with
  | .error cause => .error ⟨source.unreadable, some cause⟩
  | .ok bytes =>
    match String.fromUTF8? bytes with
    | some text => .ok text
    | none => .error ⟨source.unreadable, some notUtf8⟩

/-! ## Printing -/

/-- What is printed, and the failure that ended it, if there was one. -/
structure Printout where
  stdout : String
  failure? : Option Failure
deriving Repr, DecidableEq

/-- A failure before anything is printed. -/
def Printout.failed (f : Failure) : Printout := ⟨"", some f⟩

/-- The line for one element: an attribute that it does not have gives an empty line. -/
def render (attr : Option String) (v : View) : Except Error String :=
  match attr with
  | some key => (v.attr key).map (·.getD "")
  | none => v.text

/-- Print one line for each view behind what is printed already. A view without a line ends
the printing. -/
def printLines (attr : Option String) (printed : String) : List View → Printout
  | [] => ⟨printed, none⟩
  | v :: views =>
    match render attr v with
    | .error err => ⟨printed, some (.ofError err)⟩
    | .ok line => printLines attr (printed ++ line ++ "\n") views

/-- The views to print of what was found: all, or the first, which may show nothing. -/
def Arguments.views (args : Arguments) (found : Selection) : List View :=
  if args.first then [found.first] else found.toList

/-- What is printed of what a search gives. -/
def printFound (args : Arguments) : Except Error Selection → Printout
  | .error err => .failed (.ofError err)
  | .ok found => printLines args.attr "" (args.views found)

/-! ## Runs -/

/-- What is printed for a document. -/
def answer (args : Arguments) (text : String) : Printout :=
  match Query.parse text with
  | .error err => .failed (.ofError err)
  | .ok query => printFound args (query.find args.selector)

/-- What a run prints. -/
def printout (args : List String) (inputs : Inputs) : Printout :=
  match Arguments.parse args with
  | .error err => .failed ⟨usage, some err.message⟩
  | .ok args =>
    match readText inputs args.source with
    | .error failure => .failed failure
    | .ok text => answer args text

/-- One run of the command. -/
def run (args : List String) (inputs : Inputs) : Outcome :=
  match printout args inputs with
  | ⟨stdout, none⟩ => ⟨0, stdout, ""⟩
  | ⟨stdout, some failure⟩ => ⟨1, stdout, failure.report⟩

end MarkupQuery.CommandLine
