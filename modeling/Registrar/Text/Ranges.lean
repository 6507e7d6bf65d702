/-!
# Tables of character ranges

A character class is a list of inclusive ranges of code points in increasing order.
`inRanges` walks the list and stops at the first range that starts above the code point.

* `inRanges_of_head`, `inRanges_cons_of_lt` — the two ways to be in a table.
-/

set_option autoImplicit false

namespace Registrar.Text

/-- Whether `n` lies in one of the ranges, which increase. -/
def inRanges : List (Nat × Nat) → Nat → Bool
  | [], _ => false
  | (lo, hi) :: rest, n => if n < lo then false else if n ≤ hi then true else inRanges rest n

theorem inRanges_of_head {lo hi n : Nat} {rest : List (Nat × Nat)} (h : lo ≤ n) (h' : n ≤ hi) :
    inRanges ((lo, hi) :: rest) n = true := by
  simp [inRanges, h', Nat.not_lt.mpr h]

theorem inRanges_cons_of_lt {lo hi n : Nat} {rest : List (Nat × Nat)} (hn : lo ≤ n ∧ hi < n)
    (h : inRanges rest n = true) : inRanges ((lo, hi) :: rest) n = true := by
  simp [inRanges, Nat.not_lt.mpr hn.1, Nat.not_le.mpr hn.2, h]

end Registrar.Text
