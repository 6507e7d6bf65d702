/-!
# Reading integers

A decimal integer in text: digits, with a sign in front or not.

* `readInt?_digits` — digits without a sign are read as a natural number.
* `readNat?_eq_none_of_not_digit` — any other character makes the text no number.
-/

set_option autoImplicit false

namespace Registrar.Text

/-- The number that digits spell behind digits already read as `value`. -/
def readDigits (value : Nat) : List Char → Option Nat
  | [] => some value
  | c :: cs => if c.isDigit then readDigits (value * 10 + (c.toNat - 48)) cs else none

/-- The number that one or more digits spell. -/
def readNat? : List Char → Option Nat
  | [] => none
  | c :: cs => readDigits 0 (c :: cs)

/-- **The integer that a text spells.** -/
def readInt? : List Char → Option Int
  | '+' :: cs => (readNat? cs).map Int.ofNat
  | '-' :: cs => (readNat? cs).map fun n => -(n : Int)
  | cs => (readNat? cs).map Int.ofNat

/-- The integers of 64 bits. -/
def int64? (n : Int) : Option Int64 :=
  if Int64.minValue.toInt ≤ n ∧ n ≤ Int64.maxValue.toInt then some (Int64.ofInt n) else none

theorem readDigits_eq_none_of_not_digit {c : Char} (hc : c.isDigit = false) {cs : List Char}
    (h : c ∈ cs) (value : Nat) : readDigits value cs = none := by
  induction cs generalizing value with
  | nil => simp at h
  | cons d ds ih =>
      simp only [readDigits]
      split
      · rcases List.mem_cons.mp h with rfl | h
        · simp_all
        · exact ih h _
      · rfl

theorem readNat?_eq_none_of_not_digit {c : Char} (hc : c.isDigit = false) {cs : List Char}
    (h : c ∈ cs) : readNat? cs = none := by
  cases cs with
  | nil => rfl
  | cons d ds => exact readDigits_eq_none_of_not_digit hc h 0

theorem readInt?_digits {c : Char} (hc : c.isDigit = true) (cs : List Char) :
    readInt? (c :: cs) = (readNat? (c :: cs)).map Int.ofNat := by
  unfold readInt?
  split
  · rename_i h
    cases h
    simp at hc
  · rename_i h
    cases h
    simp at hc
  · rfl

theorem int64?_toInt (i : Int64) : int64? i.toInt = some i := by
  unfold int64?
  rw [if_pos ⟨i.minValue_le_toInt, i.toInt_le⟩, Int64.ofInt_toInt]

end Registrar.Text
