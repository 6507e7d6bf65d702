import Registrar.Error
import Registrar.Text.Lowercase

/-!
# Domains of values

A `Domain` is a finite list of the values that a field may have. A value is known in any case
and brought to its canonical spelling.

* `Domain.get?_congr` — case does not matter.
* `Domain.mem_of_get?` — what is found is a value of the domain.
-/

set_option autoImplicit false

namespace Registrar

/-- **A domain**: its kind, which error messages name, and its values. -/
structure Domain where
  kind : String
  values : List String
deriving DecidableEq, Repr

namespace Domain

/-- The canonical spelling of a value. -/
def get? (d : Domain) (value : String) : Option String :=
  d.values.find? (Text.sameName · value)

/-- The canonical spelling of a value; a value outside the domain is an error. -/
def check (d : Domain) (value : String) : Except Error String :=
  match d.get? value with
  | some v => .ok v
  | none => .error (.unknownValue value d.kind)

/-- **Case does not matter.** -/
theorem get?_congr (d : Domain) {a b : String} (h : Text.lowercase a = Text.lowercase b) :
    d.get? a = d.get? b := by
  simp [get?, Text.sameName, h]

theorem mem_of_get? {d : Domain} {value v : String} (h : d.get? value = some v) :
    v ∈ d.values :=
  List.mem_of_find?_eq_some h

theorem check_eq_ok_iff {d : Domain} {value v : String} :
    d.check value = .ok v ↔ d.get? value = some v := by
  unfold check
  split <;> simp_all

end Domain

end Registrar
