import Registrar.Decimal.Shortest
import Registrar.Json.Value

/-!
# JSON text

The text of a JSON value, in one line (`compact`) or laid out with two spaces per level
(`pretty`).

* Integers are written as they are. A floating-point number has the fewest digits that read
  back, always with a point or an exponent; `FloatLayout.json` says where the exponent starts.
* In a string the quote, the backslash and the controls are escaped and nothing else is.

Main statements: `stringBody_append`, and `compactChars_str`, `compactChars_obj` for the shape
of the text.
-/

set_option autoImplicit false

namespace Registrar.Json

/-! ## Numbers -/

/-- Where the point or the exponent of a decimal is written. With `digits` standing for the
digits and the point at place `p` (before it if positive), the number is positional while
`minPoint < p ≤ maxPoint`. -/
structure FloatLayout where
  minPoint : Int
  maxPoint : Int
  exponentMark : Char
  plusSign : Bool

/-- JSON numbers are positional from `1e-5` to below `1e16`, and large exponents have a plus
sign. -/
def FloatLayout.json : FloatLayout := ⟨-5, 16, 'e', true⟩

def natChars (n : Nat) : List Char := Nat.toDigits 10 n

def intChars (n : Int) : List Char :=
  if n < 0 then '-' :: natChars n.natAbs else natChars n.natAbs

def zeros (n : Nat) : List Char := List.replicate n '0'

/-- The text of a decimal in the given layout. -/
def decimalChars (layout : FloatLayout) (d : Decimal.Expansion) : List Char :=
  if d.digits = 0 then ['0', '.', '0']
  else
    let digits := natChars d.digits
    let point : Int := digits.length + d.exponent
    if 0 ≤ d.exponent ∧ point ≤ layout.maxPoint then
      digits ++ zeros d.exponent.toNat ++ ['.', '0']
    else if 0 < point ∧ point ≤ layout.maxPoint then
      digits.take point.toNat ++ '.' :: digits.drop point.toNat
    else if layout.minPoint < point ∧ point ≤ 0 then
      ['0', '.'] ++ zeros (-point).toNat ++ digits
    else
      let mantissa := match digits with
        | [d] => [d]
        | d :: rest => d :: '.' :: rest
        | [] => []
      let e := point - 1
      let sign := if layout.plusSign ∧ 0 ≤ e then ['+'] else []
      mantissa ++ layout.exponentMark :: (sign ++ intChars e)

/-- The text of a number. -/
def Number.chars : Number → List Char
  | .int n => intChars n
  | .float negative x =>
      let body := decimalChars .json (Decimal.shortest x)
      if negative then '-' :: body else body

/-! ## Strings -/

/-- The written form of one character of a string. -/
def stringChar (c : Char) : List Char :=
  if c = '"' then ['\\', '"']
  else if c = '\\' then ['\\', '\\']
  else if c = '\x08' then ['\\', 'b']
  else if c = '\x0c' then ['\\', 'f']
  else if c = '\n' then ['\\', 'n']
  else if c = '\r' then ['\\', 'r']
  else if c = '\t' then ['\\', 't']
  else if c.toNat < 32 then
    ['\\', 'u', '0', '0', Nat.digitChar (c.toNat / 16), Nat.digitChar (c.toNat % 16)]
  else [c]

/-- The text of a string between its quotes. -/
def stringBody (cs : List Char) : List Char := cs.flatMap stringChar

theorem stringBody_append (s t : List Char) :
    stringBody (s ++ t) = stringBody s ++ stringBody t := by
  simp [stringBody]

def stringChars (s : String) : List Char := '"' :: (stringBody s.toList ++ ['"'])

/-! ## One line -/

mutual

/-- **The text of a value in one line**, without a blank. -/
def compactChars : Json → List Char
  | .null => ['n', 'u', 'l', 'l']
  | .bool true => ['t', 'r', 'u', 'e']
  | .bool false => ['f', 'a', 'l', 's', 'e']
  | .num n => n.chars
  | .str s => stringChars s
  | .arr items => '[' :: (compactItems true items ++ [']'])
  | .obj entries => '\x7b' :: (compactEntries true entries ++ ['\x7d'])

/-- The items of an array, each but the first behind a comma. -/
def compactItems (first : Bool) : List Json → List Char
  | [] => []
  | j :: rest => (if first then [] else [',']) ++ compactChars j ++ compactItems false rest

/-- The entries of an object, each but the first behind a comma. -/
def compactEntries (first : Bool) : List (String × Json) → List Char
  | [] => []
  | (k, j) :: rest =>
      (if first then [] else [',']) ++ stringChars k ++ ':' :: compactChars j
        ++ compactEntries false rest

end

/-- The text of a value in one line. -/
def compact (j : Json) : String := String.ofList (compactChars j)

theorem compactChars_str (s : String) : compactChars (.str s) = stringChars s := by
  rw [compactChars]

theorem compactChars_obj (entries : List (String × Json)) :
    compactChars (.obj entries) = '\x7b' :: (compactEntries true entries ++ ['\x7d']) := by
  rw [compactChars]

/-! ## Laid out -/

/-- A line break and the indentation of a level. -/
def newLine (level : Nat) : List Char := '\n' :: List.replicate (2 * level) ' '

mutual

/-- **The text of a value laid out**, the value standing at nesting depth `level`. -/
def prettyChars (level : Nat) : Json → List Char
  | .null => ['n', 'u', 'l', 'l']
  | .bool true => ['t', 'r', 'u', 'e']
  | .bool false => ['f', 'a', 'l', 's', 'e']
  | .num n => n.chars
  | .str s => stringChars s
  | .arr [] => ['[', ']']
  | .arr (j :: rest) => '[' :: (prettyItems true level (j :: rest) ++ newLine level ++ [']'])
  | .obj [] => ['\x7b', '\x7d']
  | .obj (e :: rest) =>
      '\x7b' :: (prettyEntries true level (e :: rest) ++ newLine level ++ ['\x7d'])

/-- The items of an array, one a line. -/
def prettyItems (first : Bool) (level : Nat) : List Json → List Char
  | [] => []
  | j :: rest =>
      (if first then [] else [',']) ++ newLine (level + 1) ++ prettyChars (level + 1) j
        ++ prettyItems false level rest

/-- The entries of an object, one a line. -/
def prettyEntries (first : Bool) (level : Nat) : List (String × Json) → List Char
  | [] => []
  | (k, j) :: rest =>
      (if first then [] else [',']) ++ newLine (level + 1) ++ stringChars k ++ ':' :: ' '
        :: prettyChars (level + 1) j ++ prettyEntries false level rest

end

/-- The text of a value laid out. -/
def pretty (j : Json) : String := String.ofList (prettyChars 0 j)

end Registrar.Json
