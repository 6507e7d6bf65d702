import Registrar.CommandLine.Run

/-!
# The program

Reads the command line and, if the command asks for it, one source; prints the outcome.
-/

set_option autoImplicit false

namespace Registrar

open CommandLine

/-- What an error of a file operation says. -/
def systemError : IO.Error → SystemError
  | .noFileOrDirectory _ _ _ => .noSuchFile
  | .permissionDenied _ number reason => ⟨number.toNat, reason⟩
  | .inappropriateType _ number reason => ⟨number.toNat, reason⟩
  | .invalidArgument _ number reason => ⟨number.toNat, reason⟩
  | .otherError number reason => ⟨number.toNat, reason⟩
  | e => ⟨0, toString e⟩

/-- The bytes that are left in a stream, behind those read already. -/
partial def readToEnd (stream : IO.FS.Stream) (bytes : ByteArray) : IO ByteArray := do
  let chunk ← stream.read 65536
  if chunk.isEmpty then pure bytes else readToEnd stream (bytes ++ chunk)

/-- The outcome of a file operation. -/
def attempt {α : Type} (action : IO α) : IO (Except SystemError α) := do
  try
    let a ← action
    pure (.ok a)
  catch e => pure (.error (systemError e))

def readOpened (stream : IO.FS.Stream) : IO (Except SourceError (List UInt8)) := do
  let bytes ← attempt (readToEnd stream .empty)
  pure ((bytes.map ByteArray.toList).mapError .reading)

/-- The bytes of a source. -/
def readSource (source : Source) : IO (Except SourceError (List UInt8)) :=
  match source with
  | .standardInput => do readOpened (← IO.getStdin)
  | .file path => do
      match ← attempt (IO.FS.Handle.mk path .read) with
      | .error e => pure (.error (.opening e))
      | .ok handle => readOpened (.ofHandle handle)

end Registrar

/-- Runs the program. -/
def main (arguments : List String) : IO UInt32 := do
  let outcome ← match Registrar.CommandLine.Run.ofArguments arguments with
    | .done outcome => pure outcome
    | .reading source resume => do pure (resume (← Registrar.readSource source))
  IO.print outcome.output
  IO.eprint outcome.errors
  pure outcome.code.toUInt32
