import Registrar.Decimal.Binary64

/-!
# Shortest decimals

`shortest x` is the decimal with the fewest digits that reads back as the magnitude `x`, and
of several the one nearest to it. The numbers that read back as `x` fill the interval half
way to its two neighbours, ends included if the mantissa is even. For a given digit count
only the two decimals next to `x` can be in it, so the counts are tried in turn.

* `shortest_zero` — zero is written without digits to spare.
-/

set_option autoImplicit false

namespace Registrar.Decimal

/-- A decimal: `digits · 10 ^ exponent`. -/
structure Expansion where
  digits : Nat
  exponent : Int
deriving DecidableEq, Repr

/-- The numbers `n / den` with `low ≤ n ≤ high` round to a magnitude `mid / den`; the ends
count if `closed`. -/
structure Interval where
  low : Nat
  mid : Nat
  high : Nat
  den : Nat
  closed : Bool

namespace Interval

/-- The numbers that round to `x`, in quarters of its unit. Below a power of two the
neighbour is only half as far. -/
def around (x : Binary64) : Interval :=
  let m := 4 * x.mantissa
  let gap := if x.mantissa = twoTo 52 ∧ Binary64.minExponent < x.exponent then 1 else 2
  let up := if 2 ≤ x.exponent then twoTo (x.exponent - 2).toNat else 1
  let den := if 2 ≤ x.exponent then 1 else twoTo (2 - x.exponent).toNat
  ⟨(m - gap) * up, m * up, (m + 2) * up, den, x.mantissa % 2 = 0⟩

/-- Whether `num / den` is in the interval. -/
def holds (i : Interval) (num den : Nat) : Bool :=
  let n := num * i.den
  if i.closed then i.low * den ≤ n && n ≤ i.high * den
  else i.low * den < n && n < i.high * den

end Interval

/-- Zeros between the point and the first digit of `num / den < 1`; `fuel` bounds them. -/
def leadingZeros : Nat → Nat → Nat → Nat
  | 0, _, _ => 0
  | fuel + 1, num, den => if den ≤ 10 * num then 0 else leadingZeros fuel (10 * num) den + 1

/-- The place of the point in `num / den`: digits in front of it, or minus the zeros behind. -/
def pointOf (num den : Nat) : Int :=
  if den ≤ num then (Nat.toDigits 10 (num / den)).length
  else -(leadingZeros 400 num den : Int)

/-- `10 ^ k` as a quotient. -/
def powerRatio (k : Int) : Nat × Nat :=
  if 0 ≤ k then (tenTo k.toNat, 1) else (1, tenTo (-k).toNat)

/-- The decimal on the grid of multiples of `10 ^ k` that is in the interval and nearest to
its middle, if there is one. -/
def onGrid? (i : Interval) (k : Int) : Option Expansion :=
  let (pn, pd) := powerRatio k
  let num := i.mid * pd
  let den := i.den * pn
  let lo := num / den
  let hi := lo + 1
  let inLo := i.holds (lo * pn) pd
  let inHi := i.holds (hi * pn) pd
  if inLo && inHi then
    let r := 2 * (num % den)
    some ⟨if r < den || (r == den && lo % 2 == 0) then lo else hi, k⟩
  else if inLo then some ⟨lo, k⟩
  else if inHi then some ⟨hi, k⟩
  else none

/-- The decimal without the zeros at its end; `fuel` bounds them. -/
def stripZeros : Nat → Expansion → Expansion
  | 0, d => d
  | fuel + 1, d =>
      if d.digits ≠ 0 ∧ d.digits % 10 = 0 then stripZeros fuel ⟨d.digits / 10, d.exponent + 1⟩
      else d

/-- **The shortest decimal that reads back as `x`.** Seventeen digits always do. -/
def shortest (x : Binary64) : Expansion :=
  if x.mantissa = 0 then ⟨0, 0⟩
  else
    let i := Interval.around x
    let point := pointOf i.mid i.den
    let counts : List Nat := (List.range 17).map (· + 1)
    let found := counts.findSome? fun (n : Nat) => onGrid? i (point - n)
    stripZeros 20 (found.getD ⟨i.mid / i.den, 0⟩)

theorem shortest_zero (e : Int) : shortest ⟨0, e⟩ = ⟨0, 0⟩ := by simp [shortest]

end Registrar.Decimal
