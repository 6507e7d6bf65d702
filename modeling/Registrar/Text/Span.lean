import Registrar.Text.Utf8

/-!
# Places in a text

A `Span` is a range of byte offsets, `start` included and `stop` not.

* `Span.shift_zero`, `Span.shift_shift` — moving a span by a number of bytes.
-/

set_option autoImplicit false

namespace Registrar.Text

/-- A range of byte offsets. -/
structure Span where
  start : Nat
  stop : Nat
deriving DecidableEq, Repr

namespace Span

def shift (s : Span) (n : Nat) : Span := ⟨s.start + n, s.stop + n⟩

/-- The part of the span inside a text of `length` bytes. -/
def clip (s : Span) (length : Nat) : Span :=
  ⟨min s.start (min s.stop length), min s.stop length⟩

@[simp] theorem shift_zero (s : Span) : s.shift 0 = s := rfl

theorem shift_shift (s : Span) (m n : Nat) : (s.shift m).shift n = s.shift (m + n) := by
  simp [shift, Nat.add_assoc]

end Span

end Registrar.Text
