import Registrar.Language.QueryLexer
import Registrar.Language.Normalizing
import Registrar.Schema.Vocabulary
import Registrar.Text.Lowercase

/-!
# Queries

A query says which objects to show: `isadmin=True~orgName=Engineering` becomes
`isAdmin=true orgName=Engineering`. A tilde separates clauses. Names are brought to their
canonical form unless a dot makes them names of a custom schema, truth values to lower case.

* `Query.normalize_eq_ok_iff` — the query is its fragments, one behind the other.
-/

set_option autoImplicit false

namespace Registrar.Query

/-- The tokens that queries have a place for. -/
def accepts (t : Token) : Bool :=
  match t with
  | .asterisk | .backslash | .colon | .comma | .closeParenthesis | .closeBracket | .slash
  | .greater | .equals | .name | .less | .operator | .openParenthesis | .openBracket | .tilde
  | .value => true
  | _ => false

/-- A value with a truth value in lower case. -/
def plainValue (s : String) : String :=
  let lower := Text.lowercase s
  if lower = "true" ∨ lower = "false" then lower else s

/-- The fragment that a lexeme becomes. -/
def fragment (v : Vocabulary) (l : Lexeme) : Except Error String :=
  match l.token with
  | .name => if l.chars.contains '.' then .ok l.literal else v.resolve l.literal
  | .value => .ok (plainValue l.literal)
  | .tilde => .ok " "
  | _ => .ok l.literal

/-- The rules of queries. The lexemes say all that there is to remember. -/
def rules (v : Vocabulary) : Rules Unit :=
  ⟨.query, accepts, fun _ l => (fragment v l).map fun s => (s, ())⟩

def normalizer (v : Vocabulary) (input : String) : Normalizer Unit :=
  ⟨rules v, (), lexemes input.toList⟩

/-- **The fragments of a query.** -/
def fragments (v : Vocabulary) (input : String) : Except Error (List String) :=
  (normalizer v input).parse.1

/-- **Normalizes a query** with a vocabulary. -/
def normalize (v : Vocabulary) (input : String) : Except Error String :=
  (fragments v input).map String.join

theorem normalize_eq_ok_iff {v : Vocabulary} {input output : String} :
    normalize v input = .ok output ↔
      ∃ fs, fragments v input = .ok fs ∧ String.join fs = output := by
  unfold normalize
  cases fragments v input <;> simp [Except.map]

end Registrar.Query
