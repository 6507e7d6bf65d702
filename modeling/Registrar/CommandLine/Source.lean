import Registrar.Batch

/-!
# Sources

A batch is read from standard input or from a file, whose name tells the layout of the batch. The
operating system may refuse to open a source, or open it and give no bytes.

Main definitions: `Source`, `Source.ofName`, `SystemError.message`, `SourceError`, `guessFormat`.
-/

set_option autoImplicit false

namespace Registrar.CommandLine

/-- Where a batch is read from. -/
inductive Source where
  | standardInput
  | file (path : String)
deriving DecidableEq, Repr

def Source.ofName (name : String) : Source :=
  if name = "-" then .standardInput else .file name

/-! ## What can be wrong with a source -/

/-- What the operating system says of a file that it does not give. -/
structure SystemError where
  number : Nat
  reason : String
deriving DecidableEq, Repr

namespace SystemError

/-- There is no file of the name. -/
def noSuchFile : SystemError := ⟨2, "No such file or directory"⟩

/-- The path goes on behind a file. -/
def notADirectory : SystemError := ⟨20, "Not a directory"⟩

/-- A directory has no bytes. -/
def isADirectory : SystemError := ⟨21, "Is a directory"⟩

/-- The path, or a name in it, is longer than names can be. -/
def nameTooLong : SystemError := ⟨36, "File name too long"⟩

/-- The wording of a system error. -/
def message (e : SystemError) : String :=
  String.join [e.reason, " (os error ", toString e.number, ")"]

end SystemError

/-- **Why a source gives no bytes**: it does not open, or it opens and cannot be read. -/
inductive SourceError where
  | opening (cause : SystemError)
  | reading (cause : SystemError)
deriving DecidableEq, Repr

/-- The wording of an error of a source that holds a batch of the given layout. Only the reader of
delimited text says what it was reading. -/
def SourceError.message (format : InputFormat) : SourceError → String
  | .opening cause => cause.message
  | .reading cause =>
      match format with
      | .csv => (Message.badDelimited.withDetail cause.message).text
      | .jsonLines => cause.message

/-! ## The layout of a file -/

/-- The last name in a path, if the path ends in one. -/
def fileName? (path : String) : Option (List Char) :=
  let parts := (path.toList.splitOn '/').filter fun part => part ≠ [] && part ≠ ['.']
  parts.getLast?.filter (· ≠ ['.', '.'])

/-- What stands behind the last dot in a name, unless the name begins with it. -/
def extension? (name : List Char) : Option String :=
  match (name.reverse.dropWhile (· ≠ '.')).tail with
  | [] => none
  | _ => some (String.ofList (name.reverse.takeWhile (· ≠ '.')).reverse)

/-- **The layout of a file** as far as its name tells; delimited text otherwise. -/
def guessFormat (path : String) : InputFormat :=
  match (fileName? path).bind extension? with
  | none => .csv
  | some extension => (InputFormat.parse extension).toOption.getD .csv

end Registrar.CommandLine
