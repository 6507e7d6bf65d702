import Registrar.CommandLine.Command
import Registrar.CommandLine.Surroundings
import Registrar.Diagnostic
import Registrar.Freeform.Encoding
import Registrar.Language.Projection
import Registrar.Language.Query

/-!
# Running a command

A command line either has its outcome at once or reads one source first. `Run` says which, so
that a program has only to read the source and to print the outcome. `Run.outcomeIn` is the outcome
where all that can be read is known.

* `Run.ofArguments_eq_usage_iff` — the usage is wrong exactly when there is no command.
-/

set_option autoImplicit false

namespace Registrar.CommandLine

/-! ## Outcomes -/

/-- **How a run ends**: with a wrong usage, with a message, or with output. -/
inductive Outcome where
  | usage
  | failure (message : String)
  | success (output : String)
deriving DecidableEq, Repr

namespace Outcome

def code : Outcome → Nat
  | .usage => 2
  | .failure _ => 1
  | .success _ => 0

def output : Outcome → String
  | .success text => text
  | _ => ""

/-- What is written to standard error, apart from log lines. -/
def errors : Outcome → String
  | .usage => "usage: [-v... | -q] attrs|query|freeform|batch ARGUMENTS\n"
  | .failure message => message ++ "\n"
  | .success _ => ""

/-- The outcome that prints a line. -/
def ofLine (result : Except String String) : Outcome :=
  match result with
  | .error message => .failure message
  | .ok line => .success (line ++ "\n")

end Outcome

/-- **A run**: its outcome, or the source to read and what comes of its bytes. -/
inductive Run where
  | done (outcome : Outcome)
  | reading (source : Source) (resume : Except SourceError (List UInt8) → Outcome)

namespace Run

/-- The outcome of a run in its surroundings. -/
def outcomeIn (s : Surroundings) : Run → Outcome
  | .done outcome => outcome
  | .reading source resume => resume (s.read source)

def versionLine : String := "diradm 0.3.1"

/-- Normalizes a projection or a query. -/
def normalizeText (language : Language) (object input : String) : Except String String :=
  match ObjectType.parse object with
  | .error e => .error e.message
  | .ok o =>
      match language with
      | .projection => (Projection.normalize o.attributes input).mapError (·.diagnostic input)
      | .query =>
          match o.queryAttributes? with
          | none => .error o.cannotBeQueried
          | some v => (Query.normalize v input).mapError (·.diagnostic input)

/-- Decodes an attribute string and writes the user, as JSON or as an attribute string. -/
def decodeText (encodeAgain : Bool) (input : String) : Except String String :=
  match User.empty.decode .sha512 input with
  | .error e => .error e.message
  | .ok u => if encodeAgain then u.encode.mapError Error.message else .ok u.toJson.pretty

/-- The line of a built row. -/
def rowLine (row : BuiltRow) : String :=
  (Json.record
    [ ("forceSendFields", .arr (row.payload.forced.toList.map Json.str)),
      ("key", .ofOption row.key),
      ("payload", row.payload.toJson) ]).compact ++ "\n"

/-- The outcome of a batch: a line per row, or nothing but the first failure. -/
def ofBatch (format : InputFormat) (b : Builder) (bytes : List UInt8) : Outcome :=
  match Batch.read format b bytes with
  | .error e => .failure e.message
  | .ok rows => .success (String.join (rows.map rowLine))

/-- Builds the payloads of a batch. -/
def build (object : String) (mode : BuildMode) (format : Option InputFormat) (file : String) :
    Run :=
  match ObjectType.parse object with
  | .error e => .done (.failure e.message)
  | .ok o =>
      let format := format.getD (guessFormat file)
      .reading (.ofName file) fun
        | .error e => .failure (e.message format)
        | .ok bytes => ofBatch format ⟨o, mode, .sha512⟩ bytes

/-- Runs a command. -/
def ofCommand : Command → Run
  | .showVersion => .done (.ofLine (.ok versionLine))
  | .normalize language object input => .done (.ofLine (normalizeText language object input))
  | .decode encodeAgain input => .done (.ofLine (decodeText encodeAgain input))
  | .build object mode format file => build object mode format file

/-- **Runs a command line.** -/
def ofArguments (arguments : List String) : Run :=
  match Command.parse arguments with
  | none => .done .usage
  | some c => ofCommand c

/-! ## Laws -/

theorem ofCommand_ne_usage (c : Command) : ofCommand c ≠ .done .usage := by
  cases c with
  | showVersion => simp [ofCommand, Outcome.ofLine]
  | normalize language object input =>
      simp only [ofCommand, Outcome.ofLine]
      split <;> simp
  | decode encodeAgain input =>
      simp only [ofCommand, Outcome.ofLine]
      split <;> simp
  | build object mode format file =>
      simp only [ofCommand, build]
      split <;> simp

theorem ofArguments_eq_usage_iff {arguments : List String} :
    ofArguments arguments = .done .usage ↔ Command.parse arguments = none := by
  unfold ofArguments
  split
  · simp [*]
  · simp [*, ofCommand_ne_usage]

end Run

end Registrar.CommandLine
