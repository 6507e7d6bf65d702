/-!
# Arguments

The arguments of a command are options and operands. An option is called by its letter (`-o`) or
its word (`--object`); letters without values may stand together (`-vv`). A value stands right
behind the option (`-ox`, `-o=x`, `--object=x`) or is the next argument, unless that looks like
an option. Everything behind `--` is an operand, and `-` alone is one too. An option that is final
says all there is to say: nothing behind it is read.

* `Arguments.read_endOfOptions` — what stands behind `--` is not looked into.
* `Arguments.readLeading_final` — what stands behind a final option is not looked into.
-/

set_option autoImplicit false

namespace Registrar.CommandLine

/-- An option that a command knows. -/
structure OptionRule where
  letter : Option Char
  word : String
  takesValue : Bool
  repeatable : Bool
  /-- Whether nothing behind the option is read. -/
  isFinal : Bool
deriving DecidableEq, Repr

/-- An option as given: its word and its value. -/
abbrev GivenOption := String × Option String

/-- **What the arguments of a command say.** -/
structure Arguments where
  options : List GivenOption
  operands : List String
deriving DecidableEq, Repr

/-- What one argument says: that no options follow, an operand, or options. The last of these may
have its value in the next argument. -/
inductive Piece where
  | endOfOptions
  | operand (text : String)
  | options (given : List GivenOption) (pending : Option String)
deriving DecidableEq, Repr

namespace Piece

/-- Reads the letters of an argument behind its hyphen. -/
def ofLetters (rules : List OptionRule) : List Char → Option (List GivenOption × Option String)
  | [] => some ([], none)
  | c :: cs =>
      match rules.find? (·.letter == some c) with
      | none => none
      | some r =>
          if r.takesValue then
            match cs with
            | [] => some ([], some r.word)
            | '=' :: value => some ([(r.word, some (String.ofList value))], none)
            | value => some ([(r.word, some (String.ofList value))], none)
          else if r.isFinal then some ([(r.word, none)], none)
          else (ofLetters rules cs).map fun (given, pending) => ((r.word, none) :: given, pending)

/-- Reads the word of an argument behind its two hyphens. -/
def ofWord (rules : List OptionRule) (cs : List Char) :
    Option (List GivenOption × Option String) :=
  let word := String.ofList (cs.takeWhile (· ≠ '='))
  match rules.find? (·.word == word), cs.dropWhile (· ≠ '=') with
  | none, _ => none
  | some r, [] => if r.takesValue then some ([], some word) else some ([(word, none)], none)
  | some r, _ :: value =>
      if r.takesValue then some ([(word, some (String.ofList value))], none) else none

/-- Reads one argument; nothing if it names an option that there is no rule for. -/
def read (rules : List OptionRule) (argument : String) : Option Piece :=
  match argument.toList with
  | ['-', '-'] => some .endOfOptions
  | '-' :: '-' :: cs => (ofWord rules cs).map fun (given, pending) => .options given pending
  | '-' :: c :: cs =>
      (ofLetters rules (c :: cs)).map fun (given, pending) => .options given pending
  | _ => some (.operand argument)

end Piece

/-- Whether a final option is among those given. -/
def endsLine (rules : List OptionRule) (given : List GivenOption) : Bool :=
  given.any fun (word, _) => rules.any fun r => r.isFinal && r.word == word

/-- Whether an argument can be the value of the option before it. -/
def isValue (argument : String) : Bool := argument == "-" || argument.toList.head? != some '-'

namespace Arguments

def give (given : List GivenOption) (a : Arguments) : Arguments :=
  { a with options := given ++ a.options }

/-- Reads arguments, `pending` being the option that waits for its value. Options may stand behind
operands. -/
def readFrom (rules : List OptionRule) (pending : Option String) :
    List String → Option Arguments
  | [] => if pending.isSome then none else some ⟨[], []⟩
  | argument :: rest =>
      match pending with
      | some word =>
          if isValue argument then
            (readFrom rules none rest).map (give [(word, some argument)])
          else none
      | none =>
          match Piece.read rules argument with
          | none => none
          | some .endOfOptions => some ⟨[], rest⟩
          | some (.operand text) =>
              (readFrom rules none rest).map fun a => { a with operands := text :: a.operands }
          | some (.options given pending) =>
              if endsLine rules given then some ⟨given, []⟩
              else (readFrom rules pending rest).map (give given)

def has (a : Arguments) (word : String) : Bool := a.options.any (·.1 == word)

def value? (a : Arguments) (word : String) : Option String :=
  (a.options.find? (·.1 == word)).bind (·.2)

/-- Whether only options are repeated that may be. -/
def respects (a : Arguments) (rules : List OptionRule) : Bool :=
  rules.all fun r => r.repeatable || (a.options.filter (·.1 == r.word)).length ≤ 1

/-- **Reads the arguments of a command.** -/
def read (rules : List OptionRule) (arguments : List String) : Option Arguments :=
  (readFrom rules none arguments).filter (·.respects rules)

/-- The operand of a command that takes one. -/
def operand? (a : Arguments) : Option String :=
  match a.operands with
  | [text] => some text
  | _ => none

/-- Reads options up to a final one or to the first operand: the name of a command, behind which
the arguments are left to it. -/
def readLeading (rules : List OptionRule) :
    List String → Option (List GivenOption × Option (String × List String))
  | [] => none
  | argument :: rest =>
      match Piece.read rules argument with
      | some (.operand name) => some ([], some (name, rest))
      | some (.options given none) =>
          if endsLine rules given then some (given, none)
          else (readLeading rules rest).map fun (more, behind) => (given ++ more, behind)
      | _ => none

/-! ## Laws -/

/-- **What stands behind `--` is not looked into.** -/
theorem read_endOfOptions (rules : List OptionRule) (rest : List String) :
    readFrom rules none ("--" :: rest) = some ⟨[], rest⟩ := by
  have h : Piece.read rules "--" = some .endOfOptions := by simp [Piece.read]
  simp [readFrom, h]

/-- **What stands behind a final option is not looked into.** -/
theorem readLeading_final {rules : List OptionRule} {argument : String}
    {given : List GivenOption} (h : Piece.read rules argument = some (.options given none))
    (hf : endsLine rules given = true) (rest : List String) :
    readLeading rules (argument :: rest) = some (given, none) := by
  simp [readLeading, h, hf]

end Arguments

end Registrar.CommandLine
