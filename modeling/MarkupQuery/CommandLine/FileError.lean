/-!
# MarkupQuery.CommandLine.FileError — why a file cannot be read

The errors of the system that opening and reading a file meets, with the numbers and
the words that the system has for them.
-/

namespace MarkupQuery.CommandLine

/-- Why a file cannot be read. -/
inductive FileError where
  | notFound
  | permissionDenied
  | notDirectory
  | isDirectory
  | nameTooLong
deriving Repr, DecidableEq

namespace FileError

/-- All of these errors. -/
def all : List FileError :=
  [.notFound, .permissionDenied, .notDirectory, .isDirectory, .nameTooLong]

/-- The number of an error. -/
def number : FileError → Nat
  | .notFound => 2
  | .permissionDenied => 13
  | .notDirectory => 20
  | .isDirectory => 21
  | .nameTooLong => 36

/-- The error with a number. -/
def ofNumber? (n : Nat) : Option FileError :=
  all.find? (·.number == n)

/-- The system's words for an error. -/
def words : FileError → String
  | .notFound => "No such file or directory"
  | .permissionDenied => "Permission denied"
  | .notDirectory => "Not a directory"
  | .isDirectory => "Is a directory"
  | .nameTooLong => "File name too long"

/-- The message of an error: its words and its number. -/
def message (err : FileError) : String :=
  err.words ++ " (os error " ++ toString err.number ++ ")"

/-- The number tells which error it is. -/
theorem ofNumber?_number (err : FileError) : ofNumber? err.number = some err := by
  cases err <;> rfl

end FileError

end MarkupQuery.CommandLine
