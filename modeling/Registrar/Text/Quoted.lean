import Registrar.Text.Printable

/-!
# Quoted text

The form in which a message shows a text with all that it holds: between quotes, with the
quote, the backslash and the common controls escaped by a letter, and every other character
that is not printable written by its code point, `\u{200b}`.

* `escape_append` — the body is written character by character.
-/

set_option autoImplicit false

namespace Registrar.Text

/-- The digits of `n` in lower-case hexadecimal, without leading zeros. -/
def hexDigits (n : Nat) : List Char := Nat.toDigits 16 n

/-- The written form of one character. -/
def escapeChar (c : Char) : List Char :=
  if c = '\u0000' then ['\\', '0']
  else if c = '\t' then ['\\', 't']
  else if c = '\r' then ['\\', 'r']
  else if c = '\n' then ['\\', 'n']
  else if c = '"' then ['\\', '"']
  else if c = '\\' then ['\\', '\\']
  else if isPrintable c then [c]
  else ['\\', 'u', '\x7b'] ++ hexDigits c.toNat ++ ['\x7d']

/-- The body of a quoted text. -/
def escape (cs : List Char) : List Char := cs.flatMap escapeChar

/-- **The quoted form of a text.** -/
def quoted (s : String) : String := String.ofList ('"' :: (escape s.toList ++ ['"']))

theorem escape_append (s t : List Char) : escape (s ++ t) = escape s ++ escape t := by
  simp [escape]

end Registrar.Text
