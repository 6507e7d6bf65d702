/-!
# Binary floating-point numbers

Finite magnitudes of the 64-bit binary format, `mantissa · 2 ^ exponent` with at most 53 bits
of mantissa. Every operation is exact arithmetic on natural numbers followed by one rounding,
to nearest with ties to the even mantissa; a result beyond the format is `none`.

* `roundRatio_le`, `le_roundRatio` — a rounded quotient is within half a unit of the ratio.
-/

set_option autoImplicit false

namespace Registrar.Decimal

/-- The quotient `num / den` rounded to the nearest natural number, ties to even. -/
def roundRatio (num den : Nat) : Nat :=
  if 2 * (num % den) < den then num / den
  else if den < 2 * (num % den) then num / den + 1
  else num / den + num / den % 2

theorem roundRatio_le (num den : Nat) : 2 * (roundRatio num den * den) ≤ 2 * num + den := by
  have hdiv := Nat.div_add_mod num den
  rw [Nat.mul_comm] at hdiv
  unfold roundRatio
  generalize num / den = q at *
  generalize num % den = r at *
  split
  · omega
  · split
    · rw [Nat.add_mul]; omega
    · have : q % 2 = 0 ∨ q % 2 = 1 := by omega
      rcases this with h | h <;> rw [h, Nat.add_mul] <;> omega

theorem le_roundRatio (num : Nat) {den : Nat} (hden : 0 < den) :
    2 * num ≤ 2 * (roundRatio num den * den) + den := by
  have hlt := Nat.mod_lt num hden
  have hdiv := Nat.div_add_mod num den
  rw [Nat.mul_comm] at hdiv
  unfold roundRatio
  generalize num / den = q at *
  generalize num % den = r at *
  split
  · omega
  · split
    · rw [Nat.add_mul]; omega
    · have : q % 2 = 0 ∨ q % 2 = 1 := by omega
      rcases this with h | h <;> rw [h, Nat.add_mul] <;> omega

/-- The `k`-th power of two, by shifting. -/
def twoTo (k : Nat) : Nat := 1 <<< k

def tenTo (k : Nat) : Nat := Nat.pow 10 k

/-- A finite magnitude: `mantissa · 2 ^ exponent`. -/
structure Binary64 where
  mantissa : Nat
  exponent : Int
deriving DecidableEq, Repr

namespace Binary64

def minExponent : Int := -1074

def maxExponent : Int := 971

def zero : Binary64 := ⟨0, minExponent⟩

/-- `num / den` as a quotient of multiples of `2 ^ exponent`. -/
def scaled (num den : Nat) (exponent : Int) : Nat × Nat :=
  if 0 ≤ exponent then (num, den * twoTo exponent.toNat) else (num * twoTo (-exponent).toNat, den)

/-- The exponent at which `num / den` has 53 bits, or the least one of the format. -/
def exponentOf (num den : Nat) : Int :=
  let low : Int := (num.log2 : Int) - (den.log2 : Int) - 53
  let (n, d) := scaled num den low
  max (if d * twoTo 53 ≤ n then low + 1 else low) minExponent

/-- **The magnitude nearest to `num / den`**; `none` if it is beyond the format. -/
def ofRatio (num den : Nat) : Option Binary64 :=
  if num = 0 then some zero
  else
    let q := exponentOf num den
    let (n, d) := scaled num den q
    let m := roundRatio n d
    let (m, q) := if m = twoTo 53 then (twoTo 52, q + 1) else (m, q)
    if maxExponent < q then none else some ⟨m, q⟩

/-- The magnitude as a quotient of natural numbers. -/
def ratio (x : Binary64) : Nat × Nat :=
  if 0 ≤ x.exponent then (x.mantissa * twoTo x.exponent.toNat, 1)
  else (x.mantissa, twoTo (-x.exponent).toNat)

def mul (x y : Binary64) : Option Binary64 :=
  ofRatio (x.ratio.1 * y.ratio.1) (x.ratio.2 * y.ratio.2)

/-- The rounded quotient, for a divisor other than zero. -/
def div (x y : Binary64) : Option Binary64 :=
  ofRatio (x.ratio.1 * y.ratio.2) (x.ratio.2 * y.ratio.1)

/-- The magnitude nearest to `10 ^ k`. -/
def powerOfTen (k : Nat) : Option Binary64 := ofRatio (tenTo k) 1

def maxPowerOfTen : Nat := 308

/-- `x · 10 ^ k` by one multiplication; nothing but zero can be scaled past the greatest power. -/
def scaleUp (x : Binary64) (k : Nat) : Option Binary64 :=
  if k ≤ maxPowerOfTen then (powerOfTen k).bind x.mul
  else if x.mantissa = 0 then some x
  else none

/-- `x / 10 ^ k` by as many divisions as the powers of the format allow, each rounded. -/
def scaleDown (x : Binary64) (k : Nat) : Option Binary64 :=
  if k ≤ maxPowerOfTen then (powerOfTen k).bind x.div
  else if x.mantissa = 0 then some x
  else do scaleDown (← x.div (← powerOfTen maxPowerOfTen)) (k - maxPowerOfTen)
termination_by k
decreasing_by simp only [maxPowerOfTen] at *; omega

/-- **The magnitude written `significand · 10 ^ exponent`**, where the significand is first
rounded to the format and then scaled. -/
def ofDecimal (significand : Nat) (exponent : Int) : Option Binary64 := do
  let x ← ofRatio significand 1
  if 0 ≤ exponent then x.scaleUp exponent.toNat else x.scaleDown (-exponent).toNat

end Binary64

end Registrar.Decimal
