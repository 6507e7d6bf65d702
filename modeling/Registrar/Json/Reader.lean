import Registrar.Json.Value
import Registrar.Text.Utf8

/-!
# Reading JSON

The reader is a pushdown machine. It takes a text of one line character by character; its
stack holds the containers that are open, and its mode says what may come next. An object
keeps the last value given to a name.

* A failure names the problem and the column: the number of bytes read up to and including the
  offending one, or the length of the text if it ends too early.
* At most `maxDepth - 1` containers may be open at once.
* An integer of up to 64 bits stays one. Other numbers become floating point: the significand
  is cut to the digits that fit 64 bits, rounded, and then scaled by the power of ten.

Main definitions: `step`, `run`, `parse`. `run_append` says that reading goes on where the
first part of a text left off.
-/

set_option autoImplicit false

namespace Registrar.Json

/-! ## Failures -/

/-- What can be wrong with JSON text. -/
inductive Problem where
  | eofInValue
  | eofInString
  | eofInObject
  | eofInList
  | expectedValue
  | expectedIdent
  | expectedColon
  | expectedCommaOrBrace
  | expectedCommaOrBracket
  | keyNotString
  | trailingComma
  | trailingCharacters
  | invalidNumber
  | numberOutOfRange
  | invalidEscape
  | controlCharacter
  | loneSurrogate
  | unexpectedEndOfEscape
  | tooDeep
deriving DecidableEq, Repr

/-- The wording of a problem. -/
def Problem.message : Problem → String
  | .eofInValue => "EOF while parsing a value"
  | .eofInString => "EOF while parsing a string"
  | .eofInObject => "EOF while parsing an object"
  | .eofInList => "EOF while parsing a list"
  | .expectedValue => "expected value"
  | .expectedIdent => "expected ident"
  | .expectedColon => "expected `:`"
  | .expectedCommaOrBrace => "expected `,` or `\x7d`"
  | .expectedCommaOrBracket => "expected `,` or `]`"
  | .keyNotString => "key must be a string"
  | .trailingComma => "trailing comma"
  | .trailingCharacters => "trailing characters"
  | .invalidNumber => "invalid number"
  | .numberOutOfRange => "number out of range"
  | .invalidEscape => "invalid escape"
  | .controlCharacter => "control character (\\u0000-\\u001F) found while parsing a string"
  | .loneSurrogate => "lone leading surrogate in hex escape"
  | .unexpectedEndOfEscape => "unexpected end of hex escape"
  | .tooDeep => "recursion limit exceeded"

/-- A problem and its column. -/
structure Failure where
  problem : Problem
  column : Nat
deriving DecidableEq, Repr

/-! ## Numbers -/

/-- The digits of a number read so far: `significand · 10 ^ exponent`. Once `full`, further
digits no longer count. -/
structure Digits where
  negative : Bool
  significand : Nat
  exponent : Int
  full : Bool
deriving DecidableEq

/-- The value of a decimal digit. -/
def digit? (c : Char) : Option Nat := if c.isDigit then some (c.toNat - 48) else none

namespace Digits

/-- The significand has 64 bits. -/
def maxSignificand : Nat := UInt64.size - 1

/-- The greatest magnitude of a negative integer of 64 bits. -/
def maxNegative : Nat := UInt64.size / 2

/-- Exponents written with more than 31 bits are not told apart. -/
def maxExponent : Nat := 2147483647

/-- A further digit before the point: one that does not fit counts as a factor of ten. -/
def pushInteger (n : Digits) (d : Nat) : Digits :=
  if n.full then { n with exponent := n.exponent + 1 }
  else if n.significand * 10 + d ≤ maxSignificand then
    { n with significand := n.significand * 10 + d }
  else { n with exponent := n.exponent + 1, full := true }

/-- A further digit behind the point: one that does not fit is dropped. -/
def pushFraction (n : Digits) (d : Nat) : Digits :=
  if n.full then n
  else if n.significand * 10 + d ≤ maxSignificand then
    { n with significand := n.significand * 10 + d, exponent := n.exponent - 1 }
  else { n with full := true }

/-- The floating-point number; none if it is beyond the format. -/
def toFloat? (n : Digits) (exponent : Int) : Option Number :=
  (Decimal.Binary64.ofDecimal n.significand exponent).map (.float n.negative)

/-- The number without point and exponent: an integer if it fits 64 bits, where minus zero is
none. -/
def toInteger? (n : Digits) : Option Number :=
  if n.full then n.toFloat? n.exponent
  else if ¬n.negative then some (.int n.significand)
  else if 0 < n.significand ∧ n.significand ≤ maxNegative then
    some (.int (-(n.significand : Int)))
  else n.toFloat? 0

end Digits

/-! ## The machine -/

/-- A container that is open: the items of an array, the last first, or the entries of an
object with the name whose value is due. -/
inductive Frame where
  | arr (items : List Json)
  | obj (entries : List (String × Json)) (name : String)

/-- Where a value stands: on its own or behind a colon, first in an array, or behind a comma. -/
inductive Place where
  | plain
  | firstItem
  | nextItem
deriving DecidableEq

/-- Inside a string: between characters, behind a backslash, or in the four digits behind
`\u`, of which `taken` bytes are read; `high` is the first half of a surrogate pair. -/
inductive Escape where
  | none
  | backslash
  | hex (taken : Nat) (value : Option Nat) (high : Option Nat)
  | lowBackslash (high : Nat)
  | lowLetter (high : Nat)
deriving DecidableEq

/-- Inside a number. -/
inductive Numeral where
  | sign
  | zero (n : Digits)
  | integer (n : Digits)
  | point (n : Digits)
  | fraction (n : Digits)
  | exponent (n : Digits)
  | exponentDigit (n : Digits) (negative : Bool)
  | exponentDigits (n : Digits) (negative : Bool) (e : Nat)
  | vanished (n : Digits)
deriving DecidableEq

/-- What may come next. A string is held with its characters reversed. -/
inductive Mode where
  | value (place : Place)
  | name (first : Bool)
  | colon
  | more
  | done (j : Json)
  | string (isName : Bool) (chars : List Char) (escape : Escape)
  | number (n : Numeral)
  | word (rest : List Char) (j : Json)

/-- The state of the reader. -/
structure Machine where
  stack : List Frame
  mode : Mode

/-- At this number of open containers the text is too deep. -/
def maxDepth : Nat := 128

def isSpace (c : Char) : Bool := c = ' ' || c = '\t' || c = '\n' || c = '\r'

/-- A value is complete: it goes into the innermost container. -/
def complete (stack : List Frame) (j : Json) : Machine :=
  match stack with
  | [] => ⟨[], .done j⟩
  | .arr items :: rest => ⟨.arr (j :: items) :: rest, .more⟩
  | .obj entries name :: rest => ⟨.obj (insertEntry name j entries) name :: rest, .more⟩

/-- A closing bracket: the innermost container is complete. -/
def close (stack : List Frame) : Machine :=
  match stack with
  | [] => ⟨[], .more⟩
  | .arr items :: rest => complete rest (.arr items.reverse)
  | .obj entries _ :: rest => complete rest (.obj entries)

/-- The end of a string that is a value or a name. -/
def endString (stack : List Frame) (isName : Bool) (chars : List Char) : Machine :=
  let s := String.ofList chars.reverse
  if isName then
    match stack with
    | .obj entries _ :: rest => ⟨.obj entries s :: rest, .colon⟩
    | stack => ⟨stack, .colon⟩
  else complete stack (.str s)

/-- The end of a number at column `i`. -/
def endNumber (stack : List Frame) (i : Nat) (n : Option Number) : Except Failure Machine :=
  match n with
  | some n => .ok (complete stack (.num n))
  | none => .error ⟨.numberOutOfRange, i⟩

/-- What a complete number stands for; none while a digit is due. -/
def Numeral.finish? : Numeral → Option (Option Number)
  | .zero n | .integer n => some n.toInteger?
  | .fraction n => some (n.toFloat? n.exponent)
  | .exponentDigits n negative e =>
      some (n.toFloat? (if negative then n.exponent - e else n.exponent + e))
  | .vanished n => some (some (.float n.negative .zero))
  | .sign | .point _ | .exponent _ | .exponentDigit _ _ => none

/-- The first character of a value. -/
def openValue (stack : List Frame) (i : Nat) (c : Char) : Except Failure Machine :=
  if c = 'n' then .ok ⟨stack, .word ['u', 'l', 'l'] .null⟩
  else if c = 't' then .ok ⟨stack, .word ['r', 'u', 'e'] (.bool true)⟩
  else if c = 'f' then .ok ⟨stack, .word ['a', 'l', 's', 'e'] (.bool false)⟩
  else if c = '-' then .ok ⟨stack, .number .sign⟩
  else if c = '0' then .ok ⟨stack, .number (.zero ⟨false, 0, 0, false⟩)⟩
  else if c.isDigit then .ok ⟨stack, .number (.integer ⟨false, c.toNat - 48, 0, false⟩)⟩
  else if c = '"' then .ok ⟨stack, .string false [] .none⟩
  else if c = '[' ∨ c = '\x7b' then
    if stack.length + 1 = maxDepth then .error ⟨.tooDeep, i + 1⟩
    else if c = '[' then .ok ⟨.arr [] :: stack, .value .firstItem⟩
    else .ok ⟨.obj [] "" :: stack, .name true⟩
  else .error ⟨.expectedValue, i + 1⟩

/-- A character behind a value inside a container. -/
def stepMore (stack : List Frame) (i : Nat) (c : Char) : Except Failure Machine :=
  if isSpace c then .ok ⟨stack, .more⟩
  else match stack with
  | [] => .error ⟨.trailingCharacters, i + 1⟩
  | .arr _ :: _ =>
      if c = ']' then .ok (close stack)
      else if c = ',' then .ok ⟨stack, .value .nextItem⟩
      else .error ⟨.expectedCommaOrBracket, i + 1⟩
  | .obj _ _ :: _ =>
      if c = '\x7d' then .ok (close stack)
      else if c = ',' then .ok ⟨stack, .name false⟩
      else .error ⟨.expectedCommaOrBrace, i + 1⟩

/-- A character behind a value that has just been completed. -/
def stepAfter (m : Machine) (i : Nat) (c : Char) : Except Failure Machine :=
  match m.mode with
  | .done j => if isSpace c then .ok ⟨m.stack, .done j⟩ else .error ⟨.trailingCharacters, i + 1⟩
  | _ => stepMore m.stack i c

/-- The value of a hexadecimal digit. -/
def hexDigit? (c : Char) : Option Nat :=
  if c.isDigit then some (c.toNat - 48)
  else if 'a' ≤ c ∧ c ≤ 'f' then some (c.toNat - 87)
  else if 'A' ≤ c ∧ c ≤ 'F' then some (c.toNat - 55)
  else none

/-- The character that a letter behind a backslash stands for. -/
def escaped? (c : Char) : Option Char :=
  if c = '"' ∨ c = '\\' ∨ c = '/' then some c
  else if c = 'b' then some '\x08'
  else if c = 'f' then some '\x0c'
  else if c = 'n' then some '\n'
  else if c = 'r' then some '\r'
  else if c = 't' then some '\t'
  else none

/-- The four digits `n` behind `\u` are read; `i` is the column behind them. -/
def endHex (chars : List Char) (i : Nat) (n : Option Nat) (high : Option Nat) :
    Except Failure (List Char × Escape) :=
  match n, high with
  | none, _ => .error ⟨.invalidEscape, i⟩
  | some n, none =>
      if 0xDC00 ≤ n ∧ n ≤ 0xDFFF then .error ⟨.loneSurrogate, i⟩
      else if 0xD800 ≤ n ∧ n ≤ 0xDBFF then .ok (chars, .lowBackslash n)
      else .ok (Char.ofNat n :: chars, .none)
  | some n, some high =>
      if 0xDC00 ≤ n ∧ n ≤ 0xDFFF then
        .ok (Char.ofNat ((high - 0xD800) * 0x400 + (n - 0xDC00) + 0x10000) :: chars, .none)
      else .error ⟨.loneSurrogate, i⟩

/-- A character inside a string, the closing quote apart. -/
def stepString (chars : List Char) (escape : Escape) (i : Nat) (c : Char) :
    Except Failure (List Char × Escape) :=
  match escape with
  | .none =>
      if c = '\\' then .ok (chars, .backslash)
      else if c.toNat < 32 then .error ⟨.controlCharacter, i + 1⟩
      else .ok (c :: chars, .none)
  | .backslash =>
      if c = 'u' then .ok (chars, .hex 0 (some 0) none)
      else match escaped? c with
      | some c => .ok (c :: chars, .none)
      | none => .error ⟨.invalidEscape, i + 1⟩
  | .hex taken value high =>
      let value' := do return (← value) * 16 + (← hexDigit? c)
      let taken' := taken + c.utf8Size
      if taken' < 4 then .ok (chars, .hex taken' value' high)
      else endHex chars (i - taken + 4) value' high
  | .lowBackslash high =>
      if c = '\\' then .ok (chars, .lowLetter high) else .error ⟨.unexpectedEndOfEscape, i + 1⟩
  | .lowLetter high =>
      if c = 'u' then .ok (chars, .hex 0 (some 0) (some high))
      else .error ⟨.unexpectedEndOfEscape, i + 1⟩

/-- A character inside a number: how the number goes on, or none if the number ends before
it. -/
def stepNumber (n : Numeral) (i : Nat) (c : Char) : Except Failure (Option Numeral) :=
  let isExponent := c = 'e' ∨ c = 'E'
  match n with
  | .sign =>
      if c = '0' then .ok (some (.zero ⟨true, 0, 0, false⟩))
      else if c.isDigit then .ok (some (.integer ⟨true, c.toNat - 48, 0, false⟩))
      else .error ⟨.invalidNumber, i + 1⟩
  | .zero n =>
      if c.isDigit then .error ⟨.invalidNumber, i + 1⟩
      else if c = '.' then .ok (some (.point n))
      else if isExponent then .ok (some (.exponent n))
      else .ok none
  | .integer n =>
      match digit? c with
      | some d => .ok (some (.integer (n.pushInteger d)))
      | none =>
          if c = '.' then .ok (some (.point { n with full := false }))
          else if isExponent then .ok (some (.exponent n))
          else .ok none
  | .point n =>
      match digit? c with
      | some d => .ok (some (.fraction (n.pushFraction d)))
      | none => .error ⟨.invalidNumber, i + 1⟩
  | .fraction n =>
      match digit? c with
      | some d => .ok (some (.fraction (n.pushFraction d)))
      | none => if isExponent then .ok (some (.exponent n)) else .ok none
  | .exponent n =>
      if c = '+' then .ok (some (.exponentDigit n false))
      else if c = '-' then .ok (some (.exponentDigit n true))
      else match digit? c with
      | some d => .ok (some (.exponentDigits n false d))
      | none => .error ⟨.invalidNumber, i + 1⟩
  | .exponentDigit n negative =>
      match digit? c with
      | some d => .ok (some (.exponentDigits n negative d))
      | none => .error ⟨.invalidNumber, i + 1⟩
  | .exponentDigits n negative e =>
      match digit? c with
      | none => .ok none
      | some d =>
          if e * 10 + d ≤ Digits.maxExponent then
            .ok (some (.exponentDigits n negative (e * 10 + d)))
          else if n.significand ≠ 0 ∧ ¬negative then .error ⟨.numberOutOfRange, i + 1⟩
          else .ok (some (.vanished n))
  | .vanished n => if c.isDigit then .ok (some (.vanished n)) else .ok none

/-- **One character**, the byte offset `i` in front of it. -/
def step (m : Machine) (i : Nat) (c : Char) : Except Failure Machine :=
  match m.mode with
  | .value place =>
      if isSpace c then .ok m
      else if c = ']' ∧ place = .firstItem then .ok (close m.stack)
      else if c = ']' ∧ place = .nextItem then .error ⟨.trailingComma, i + 1⟩
      else openValue m.stack i c
  | .name first =>
      if isSpace c then .ok m
      else if c = '"' then .ok ⟨m.stack, .string true [] .none⟩
      else if c = '\x7d' then
        if first then .ok (close m.stack) else .error ⟨.trailingComma, i + 1⟩
      else .error ⟨.keyNotString, i + 1⟩
  | .colon =>
      if isSpace c then .ok m
      else if c = ':' then .ok ⟨m.stack, .value .plain⟩
      else .error ⟨.expectedColon, i + 1⟩
  | .more => stepMore m.stack i c
  | .done _ => stepAfter m i c
  | .string isName chars escape =>
      if c = '"' ∧ escape = .none then .ok (endString m.stack isName chars)
      else do
        let (chars, escape) ← stepString chars escape i c
        return ⟨m.stack, .string isName chars escape⟩
  | .number n => do
      match ← stepNumber n i c with
      | some n => return ⟨m.stack, .number n⟩
      | none => stepAfter (← endNumber m.stack i (n.finish?.getD none)) i c
  | .word rest j =>
      match rest with
      | [] => stepAfter (complete m.stack j) i c
      | w :: rest =>
          if c ≠ w then .error ⟨.expectedIdent, i + 1⟩
          else if rest.isEmpty then .ok (complete m.stack j)
          else .ok ⟨m.stack, .word rest j⟩

/-- The end of the text at byte length `i`. -/
def finish (m : Machine) (i : Nat) : Except Failure Json :=
  match m.mode with
  | .done j => .ok j
  | .value .firstItem => .error ⟨.eofInList, i⟩
  | .value _ => .error ⟨.eofInValue, i⟩
  | .name true | .colon => .error ⟨.eofInObject, i⟩
  | .name false => .error ⟨.eofInValue, i⟩
  | .more => eofInside m.stack
  | .string _ _ _ => .error ⟨.eofInString, i⟩
  | .number n =>
      match n.finish? with
      | none => .error ⟨.eofInValue, i⟩
      | some number => do
          let m ← endNumber m.stack i number
          match m.mode with
          | .done j => return j
          | _ => eofInside m.stack
  | .word _ _ => .error ⟨.eofInValue, i⟩
where
  /-- The text ends inside a container. -/
  eofInside : List Frame → Except Failure Json
    | .arr _ :: _ => .error ⟨.eofInList, i⟩
    | _ => .error ⟨.eofInObject, i⟩

/-- The machine after some characters. -/
def advance (m : Machine) (i : Nat) : List Char → Except Failure Machine
  | [] => .ok m
  | c :: cs => do advance (← step m i c) (i + c.utf8Size) cs

/-- The value that a text spells, from a state of the machine on. -/
def run (m : Machine) (i : Nat) (cs : List Char) : Except Failure Json := do
  finish (← advance m i cs) (i + Text.byteLength cs)

def start : Machine := ⟨[], .value .plain⟩

/-- **The value that a text spells**, or what is wrong with it. -/
def parse (s : String) : Except Failure Json := run start 0 s.toList

/-! ## Reading in parts -/

theorem advance_append (m : Machine) (i : Nat) (s t : List Char) :
    advance m i (s ++ t)
      = (advance m i s).bind fun m => advance m (i + Text.byteLength s) t := by
  induction s generalizing m i with
  | nil => simp [advance, Except.bind]
  | cons c s ih =>
      simp only [List.cons_append, advance, bind, Except.bind]
      cases step m i c with
      | error e => rfl
      | ok m => simp [ih, Except.bind, Nat.add_assoc]

theorem run_append (m : Machine) (i : Nat) (s t : List Char) :
    run m i (s ++ t) = (advance m i s).bind fun m => run m (i + Text.byteLength s) t := by
  simp only [run, advance_append, bind, Except.bind]
  cases advance m i s with
  | error e => rfl
  | ok m => simp [Nat.add_assoc]

end Registrar.Json
