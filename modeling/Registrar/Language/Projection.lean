import Registrar.Language.ProjectionLexer
import Registrar.Language.Normalizing
import Registrar.Schema.ProjectionNames

/-!
# Projections

A projection says which fields of an object to show: `primaryEMail~name(christianname)` becomes
`primaryEmail,name(givenName)`. A tilde separates fields. Names are brought to their canonical
form. Behind the root of the custom schemas, up to the next tilde, they are left as they are.

* `Projection.normalize_eq_ok_iff` — the projection is its fragments, one behind the other.
-/

set_option autoImplicit false

namespace Registrar.Projection

/-- The tokens that projections have a place for. -/
def accepts (t : Token) : Bool :=
  match t with
  | .name | .asterisk | .openParenthesis | .closeParenthesis | .comma | .slash | .tilde => true
  | _ => false

/-- The fragment that a lexeme becomes. What is remembered is whether the root of the custom
schemas stands before it. -/
def fragment (v : Vocabulary) (inCustomSchema : Bool) (l : Lexeme) :
    Except Error (String × Bool) :=
  match l.token with
  | .name =>
      if inCustomSchema then .ok (l.literal, true)
      else (v.resolve l.literal).map fun canonical =>
        (canonical, canonical == Vocabulary.customSchemas)
  | .tilde => .ok (",", false)
  | _ => .ok (l.literal, inCustomSchema)

def rules (v : Vocabulary) : Rules Bool := ⟨.projection, accepts, fragment v⟩

def normalizer (v : Vocabulary) (input : String) : Normalizer Bool :=
  ⟨rules v, false, lexemes input.toList⟩

/-- **The fragments of a projection.** -/
def fragments (v : Vocabulary) (input : String) : Except Error (List String) :=
  (normalizer v input).parse.1

/-- **Normalizes a projection** with a vocabulary. -/
def normalize (v : Vocabulary) (input : String) : Except Error String :=
  (fragments v input).map String.join

theorem normalize_eq_ok_iff {v : Vocabulary} {input output : String} :
    normalize v input = .ok output ↔
      ∃ fs, fragments v input = .ok fs ∧ String.join fs = output := by
  unfold normalize
  cases fragments v input <;> simp [Except.map]

end Registrar.Projection
