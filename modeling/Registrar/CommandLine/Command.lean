import Registrar.CommandLine.Arguments
import Registrar.CommandLine.Source

/-!
# Commands

A command line asks for one of four things: to normalize a projection (`attrs`) or a query
(`query`), to decode an attribute string (`freeform`), or to build the payloads of a batch
(`batch`). In front of the name of the command it may say how much to log, `-v` for more and `-q`
for nothing, but not both. Instead of a command it may ask for the version of the program (`-V`),
and then nothing else on it matters.

Main definitions: `Command`, `Command.parse`.
-/

set_option autoImplicit false

namespace Registrar.CommandLine

/-- **What a command line asks for.** The name of an object type is looked up when the command
runs. -/
inductive Command where
  | showVersion
  | normalize (language : Language) (object input : String)
  | decode (encodeAgain : Bool) (input : String)
  | build (object : String) (mode : BuildMode) (format : Option InputFormat) (file : String)
deriving DecidableEq, Repr

namespace Command

/-! ## The options -/

/-- More log lines. -/
def verbose : OptionRule := ⟨some 'v', "verbose", false, true, false⟩

/-- No log lines. -/
def quiet : OptionRule := ⟨some 'q', "quiet", false, false, false⟩

/-- The version of the program instead of a command. -/
def version : OptionRule := ⟨some 'V', "version", false, false, true⟩

/-- The object type. -/
def object : OptionRule := ⟨some 'o', "object", true, false, false⟩

/-- To write the decoded user as an attribute string. -/
def encodeAgain : OptionRule := ⟨none, "encode", false, false, false⟩

/-- Whether rows create or update objects. -/
def mode : OptionRule := ⟨some 'm', "mode", true, false, false⟩

/-- The layout of the input. -/
def format : OptionRule := ⟨some 'f', "format", true, false, false⟩

/-! ## Reading a command line -/

/-- The choice that the value of an option names, which has to be spelled exactly. -/
def choice? {α : Type} (name : α → String) (all : List α) (value : String) : Option α :=
  all.find? (name · == value)

/-- Reads the arguments of `attrs` and `query`. -/
def parseNormalize (language : Language) (arguments : List String) : Option Command := do
  let a ← Arguments.read [object] arguments
  return .normalize language (← a.value? object.word) (← a.operand?)

/-- Reads the arguments of `freeform`. -/
def parseDecode (arguments : List String) : Option Command := do
  let a ← Arguments.read [encodeAgain] arguments
  return .decode (a.has encodeAgain.word) (← a.operand?)

/-- Reads the arguments of `batch`. -/
def parseBuild (arguments : List String) : Option Command := do
  let a ← Arguments.read [object, mode, format] arguments
  let chosenMode ← choice? BuildMode.name BuildMode.all ((a.value? mode.word).getD "create")
  let chosenFormat ← match a.value? format.word with
    | none => some none
    | some value => (choice? InputFormat.name InputFormat.all value).map some
  return .build (← a.value? object.word) chosenMode chosenFormat (← a.operand?)

/-- Reads the arguments of the command of the given name. -/
def parseNamed (name : String) (arguments : List String) : Option Command :=
  match name with
  | "attrs" => parseNormalize .projection arguments
  | "query" => parseNormalize .query arguments
  | "freeform" => parseDecode arguments
  | "batch" => parseBuild arguments
  | _ => none

/-- The options that may stand in front of the name of a command. -/
def leading : List OptionRule := [verbose, quiet, version]

/-- **Reads a command line**; nothing if it is not one of the usage. -/
def parse (arguments : List String) : Option Command := do
  let (given, named) ← Arguments.readLeading leading arguments
  match named with
  | none => return .showVersion
  | some (name, rest) =>
      let a : Arguments := ⟨given, []⟩
      guard (a.respects leading && !(a.has verbose.word && a.has quiet.word))
      parseNamed name rest

end Command

end Registrar.CommandLine
