import Registrar.Error
import Registrar.NameMap
import Registrar.Text.Lowercase

/-!
# Vocabularies

A `Vocabulary` says which attribute names are known and what the canonical name of each is.
Names are known in any case, and several may stand for one attribute.

* `Vocabulary.get?_congr` — case does not matter.
* `Vocabulary.resolve_eq_ok_iff`, `Vocabulary.resolve_eq_error_iff` — what resolving a name
  gives.
-/

set_option autoImplicit false

namespace Registrar

/-- **A vocabulary**: names in lower case, each with the canonical name it stands for. -/
structure Vocabulary where
  entries : List (String × String)

namespace Vocabulary

/-- The canonical name that a name stands for. -/
def get? (v : Vocabulary) (name : String) : Option String :=
  findValue? (Text.lowercase name) v.entries

/-- The canonical name that a name stands for; an unknown name is an error. -/
def resolve (v : Vocabulary) (name : String) : Except Error String :=
  match v.get? name with
  | some canonical => .ok canonical
  | none => .error (.unknownAttribute name)

def contains (v : Vocabulary) (name : String) : Bool := (v.get? name).isSome

def size (v : Vocabulary) : Nat := v.entries.length

/-- **Case does not matter.** -/
theorem get?_congr (v : Vocabulary) {a b : String} (h : Text.lowercase a = Text.lowercase b) :
    v.get? a = v.get? b := by
  simp [get?, h]

theorem resolve_eq_ok_iff {v : Vocabulary} {name canonical : String} :
    v.resolve name = .ok canonical ↔ v.get? name = some canonical := by
  unfold resolve
  split <;> simp_all

theorem resolve_eq_error_iff {v : Vocabulary} {name : String} {e : Error} :
    v.resolve name = .error e ↔ v.get? name = none ∧ e = .unknownAttribute name := by
  unfold resolve
  cases h : v.get? name <;> simp [eq_comm]

end Vocabulary

end Registrar
