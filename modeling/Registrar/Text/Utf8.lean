/-!
# Bytes and characters

Text comes in as bytes. `decode?` reads a list of bytes as UTF-8; where that fails, `validUpTo`
says how many bytes in front form whole characters, which is the place of the first bad byte.
Offsets into a text count bytes: `byteLength` is the measure.

* `decode?_encode` — the bytes of a text read back as the text.
* `byteLength_append` — the measure adds up over parts.
-/

set_option autoImplicit false

namespace Registrar.Text

/-! ## Byte offsets -/

/-- The number of bytes that a list of characters takes. -/
def byteLength : List Char → Nat
  | [] => 0
  | c :: cs => c.utf8Size + byteLength cs

@[simp] theorem byteLength_nil : byteLength [] = 0 := rfl

@[simp] theorem byteLength_cons (c : Char) (cs : List Char) :
    byteLength (c :: cs) = c.utf8Size + byteLength cs := rfl

@[simp] theorem byteLength_append (s t : List Char) :
    byteLength (s ++ t) = byteLength s + byteLength t := by
  induction s with
  | nil => simp
  | cons c s ih => simp [ih, Nat.add_assoc]

/-! ## Reading bytes -/

def encode (s : String) : List UInt8 := s.toUTF8.data.toList

/-- The text that the bytes spell, if they are UTF-8. -/
def decode? (bytes : List UInt8) : Option String := String.fromUTF8? ⟨bytes.toArray⟩

theorem decode?_encode (s : String) : decode? (encode s) = some s := by
  have h : (⟨(encode s).toArray⟩ : ByteArray) = s.toUTF8 := by simp [encode]
  simp only [decode?, h, String.fromUTF8?, String.toUTF8]
  rw [dif_pos s.isValidUTF8]
  rfl

/-- A continuation byte. -/
def isTail (b : UInt8) : Bool := 0x80 ≤ b && b ≤ 0xBF

/-- The length of the character that the bytes start with, if they start with one. -/
def leadingChar? : List UInt8 → Option Nat
  | [] => none
  | a :: r =>
      if a < 0x80 then some 1
      else match r with
      | b :: r =>
          if 0xC2 ≤ a && a ≤ 0xDF && isTail b then some 2
          else match r with
          | c :: r =>
              if ((a == 0xE0 && 0xA0 ≤ b && b ≤ 0xBF) || (0xE1 ≤ a && a ≤ 0xEC && isTail b)
                  || (a == 0xED && 0x80 ≤ b && b ≤ 0x9F) || (0xEE ≤ a && a ≤ 0xEF && isTail b))
                  && isTail c then some 3
              else match r with
              | d :: _ =>
                  if ((a == 0xF0 && 0x90 ≤ b && b ≤ 0xBF) || (0xF1 ≤ a && a ≤ 0xF3 && isTail b)
                      || (a == 0xF4 && 0x80 ≤ b && b ≤ 0x8F)) && isTail c && isTail d
                  then some 4
                  else none
              | [] => none
          | [] => none
      | [] => none

/-- How many bytes at the start form whole characters; `fuel` bounds their number. -/
def validBytes : Nat → List UInt8 → Nat
  | 0, _ => 0
  | fuel + 1, bytes =>
      match leadingChar? bytes with
      | none => 0
      | some n => n + validBytes fuel (bytes.drop n)

/-- The place of the first bad byte: the length of the valid start. -/
def validUpTo (bytes : List UInt8) : Nat := validBytes bytes.length bytes

end Registrar.Text
