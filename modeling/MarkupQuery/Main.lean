import MarkupQuery.CommandLine.FileError
import MarkupQuery.CommandLine.Run

/-!
# MarkupQuery.Main — the command

Reads the source that the arguments name, runs, and prints what the run leaves behind.
-/

namespace MarkupQuery.CommandLine

/-- All bytes of a stream. -/
partial def readToEnd (stream : IO.FS.Stream) (read : ByteArray) : IO ByteArray := do
  let chunk ← stream.read 65536
  if chunk.isEmpty then return read else readToEnd stream (read ++ chunk)

/-- The number of a system error; some calls report it with its sign turned. -/
def systemNumber : IO.Error → Option Nat
  | .noFileOrDirectory _ code _ | .permissionDenied _ code _
  | .inappropriateType _ code _ | .invalidArgument _ code _ =>
    some (if code < 0x80000000 then code.toNat else (0 - code).toNat)
  | _ => none

/-- The cause of a failed system call. -/
def systemCause (err : IO.Error) : String :=
  match (systemNumber err).bind FileError.ofNumber? with
  | some known => known.message
  | none => toString err

/-- The bytes of a source. -/
def readSource (source : Source) : IO (Except String ByteArray) := do
  try
    match source with
    | .stdin => return .ok (← readToEnd (← IO.getStdin) .empty)
    | .file path => return .ok (← IO.FS.readBinFile path)
  catch err => return .error (systemCause err)

end MarkupQuery.CommandLine

open MarkupQuery.CommandLine in
/-- Run the command on its arguments. -/
def main (args : List String) : IO UInt32 := do
  let bytes ←
    match Arguments.parse args with
    | .ok parsed => readSource parsed.source
    | .error _ => pure (.error "")
  let outcome := run args fun _ => bytes
  (← IO.getStdout).putStr outcome.stdout
  (← IO.getStderr).putStr outcome.stderr
  return outcome.exitCode.toUInt32
