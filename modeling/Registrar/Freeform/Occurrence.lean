import Registrar.Gathered
import Registrar.Schema.PayloadTypes

/-!
# Occurrences of a composite attribute

The body of a composite attribute is one occurrence without braces, or one or more occurrences
each in braces. An occurrence is a sequence of names and values with tildes between them. Its values
are gathered under the names of their fields, and read into the type of the attribute.

* `Occurrence.split_of_noBrace`, `Occurrence.split_braced` — the two forms of a body.
-/

set_option autoImplicit false

namespace Registrar

namespace Occurrence

def isBrace (c : Char) : Bool := c == '\x7b' || c == '\x7d'

mutual

/-- The occurrences in braces that a text is made of. -/
def splitBraced : List Char → Option (List (List Char))
  | [] => some []
  | c :: cs => if c = '\x7b' then splitOpen cs else none

/-- The rest of an occurrence that is open, and the occurrences behind it. -/
def splitOpen : List Char → Option (List (List Char))
  | [] => none
  | c :: cs =>
      if c = '\x7d' then (splitBraced cs).map ([] :: ·)
      else if c = '\x7b' then none
      else (splitOpen cs).map fun os => os.modifyHead (c :: ·)

end

/-- **The occurrences of a body**; none if its braces do not match up. -/
def split (body : List Char) : Option (List (List Char)) :=
  if body.head? = some '\x7b' then splitBraced body
  else if body.any isBrace then none
  else some [body]

/-- Names and values in turn; none if the last name has no value. -/
def pairs : List (List Char) → Option (List (List Char × List Char))
  | [] => some []
  | [_] => none
  | name :: value :: rest => (pairs rest).map ((name, value) :: ·)

end Occurrence

/-! ## Reading -/

namespace Gathered

/-- Gathers the values of an occurrence under the names given for its fields. -/
def fill (c : Composite) (g : Gathered) : List (List Char × List Char) → Except Error Gathered
  | [] => .ok g
  | (name, value) :: rest =>
      match c.subField? (String.ofList name) with
      | none => .error (.unknownAttribute (String.ofList name))
      | some f =>
          match f.val.kind.convert f.val.name (String.ofList value) with
          | .error e => .error e
          | .ok v => fill c (g.put f.val.name v.val.toJson) rest

def ofOccurrence (c : Composite) (occurrence : List Char) : Except Error Gathered :=
  match Occurrence.pairs (occurrence.splitOn '~') with
  | none => .error .malformedString
  | some ps => fill c {} ps

/-- **Reads an occurrence into its type**: what is gathered from it has to be of the types of the
fields, and is passed over where there is no field. -/
def readTyped (c : Composite) (occurrence : List Char) : Except Error (Record c.payload) :=
  match ofOccurrence c occurrence with
  | .error e => .error e
  | .ok g => g.toRecord c.payload

end Gathered

namespace Occurrence

/-- **The record that an occurrence describes.** -/
def read (c : Composite) (occurrence : List Char) : Except Error (Record c.shape) :=
  (Gathered.readTyped c occurrence).map (Record.restored c.stores)

/-! ## Laws -/

theorem split_of_noBrace {body : List Char} (h : body.any isBrace = false) :
    split body = some [body] := by
  have hh : body.head? ≠ some '\x7b' := by
    intro hb
    cases body with
    | nil => cases hb
    | cons c cs =>
        cases hb
        simp [isBrace] at h
  simp [split, hh, h]

theorem splitOpen_append {o : List Char} (h : o.any isBrace = false) (cs : List Char) :
    splitOpen (o ++ '\x7d' :: cs) = (splitBraced cs).map (o :: ·) := by
  induction o with
  | nil => simp [splitOpen]
  | cons c o ih =>
      simp only [List.any_cons, Bool.or_eq_false_iff, isBrace, beq_eq_false_iff_ne] at h
      obtain ⟨⟨h₁, h₂⟩, ho⟩ := h
      simp only [List.cons_append, splitOpen, h₁, h₂, if_false]
      rw [ih (by simpa [isBrace] using ho)]
      cases splitBraced cs <;> rfl

theorem split_braced {o : List Char} (h : o.any isBrace = false) (cs : List Char) :
    split ('\x7b' :: (o ++ '\x7d' :: cs)) = (splitBraced cs).map (o :: ·) := by
  simp [split, splitBraced, splitOpen_append h]

end Occurrence

end Registrar
