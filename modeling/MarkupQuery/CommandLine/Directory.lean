import MarkupQuery.CommandLine.FileError

/-!
# MarkupQuery.CommandLine.Directory — files by their paths

A working directory that holds plain files only. A path is followed component by
component as a system does: empty components and `.` stay where they are, `..` goes up,
a file has nothing below it, and a directory cannot be read as a file. Nothing is known
of the directories around the working directory.
-/

namespace MarkupQuery.CommandLine

/-- The files of a working directory, by name. -/
structure Directory where
  files : List (String × ByteArray)

/-- What a path has led to so far. -/
inductive Place where
  /-- the working directory -/
  | working
  /-- a directory around it -/
  | outside
  /-- a file in it -/
  | file (bytes : ByteArray)

namespace Directory

/-- The most bytes that a path can have. -/
def maxPath : Nat := 4095

/-- The most bytes that a component of a path can have. -/
def maxName : Nat := 255

/-- One component further. -/
def enter (d : Directory) (place : Place) (name : String) : Except FileError Place :=
  match place with
  | .file _ => .error .notDirectory
  | .outside =>
    if name = "" ∨ name = "." ∨ name = ".." then .ok .outside
    else if maxName < name.utf8ByteSize then .error .nameTooLong
    else .error .notFound
  | .working =>
    if name = "" ∨ name = "." then .ok .working
    else if name = ".." then .ok .outside
    else if maxName < name.utf8ByteSize then .error .nameTooLong
    else
      match d.files.lookup name with
      | some bytes => .ok (.file bytes)
      | none => .error .notFound

/-- All components in order. -/
def follow (d : Directory) (place : Place) : List String → Except FileError Place
  | [] => .ok place
  | name :: names =>
    match d.enter place name with
    | .error err => .error err
    | .ok place => d.follow place names

/-- The bytes of the file at a path. -/
def read (d : Directory) (path : String) : Except FileError ByteArray :=
  if path = "" then .error .notFound
  else if maxPath < path.utf8ByteSize then .error .nameTooLong
  else
    let start := if path.toList.head? = some '/' then Place.outside else Place.working
    match d.follow start (path.splitOn "/") with
    | .error err => .error err
    | .ok (.file bytes) => .ok bytes
    | .ok _ => .error .isDirectory

end Directory

end MarkupQuery.CommandLine
