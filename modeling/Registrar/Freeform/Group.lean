import Registrar.Error
import Registrar.Schema.Composite

/-!
# Groups of an attribute string

An attribute string describes a user in one line. It is a sequence of groups with colons between
them, and a group is one of

```text
name:value            a scalar; the value holds no colon
name~{value}          a scalar; the value ends at the first brace that ends the group
name~value            a scalar; the value holds no colon and starts with no brace
composite~body        occurrences of a composite attribute; braces match, and the body ends at the
                      first colon outside braces
```

Which of the last three forms a group has depends on whether its name introduces a composite
attribute.

* `Group.takeBody_append`, `Group.takeBraced_append` — no text is lost.
-/

set_option autoImplicit false

namespace Registrar

/-- **A group of an attribute string.** -/
inductive Group where
  | scalar (name value : List Char)
  | composite (c : Composite) (name body : List Char)
deriving DecidableEq, Repr

namespace Group

/-- Whether a character ends the name of a group. -/
def endsName (c : Char) : Bool := c == ':' || c == '~'

/-- The text up to the first colon outside braces, and the text from there; none if braces do not
match. `depth` braces are open. -/
def takeBody (depth : Nat) : List Char → Option (List Char × List Char)
  | [] => if depth = 0 then some ([], []) else none
  | c :: cs =>
      if c = '\x7b' then (takeBody (depth + 1) cs).map fun (body, rest) => (c :: body, rest)
      else if c = '\x7d' then
        match depth with
        | 0 => none
        | depth + 1 => (takeBody depth cs).map fun (body, rest) => (c :: body, rest)
      else if c = ':' ∧ depth = 0 then some ([], c :: cs)
      else (takeBody depth cs).map fun (body, rest) => (c :: body, rest)

/-- Whether a group ends in front of a text. -/
def endsBefore (rest : List Char) : Bool :=
  match rest with
  | [] => true
  | c :: _ => c == ':'

/-- The text up to the first closing brace that ends a group, and the text behind that brace. -/
def takeBraced : List Char → Option (List Char × List Char)
  | [] => none
  | c :: cs =>
      if c = '\x7d' ∧ endsBefore cs then some ([], cs)
      else (takeBraced cs).map fun (value, rest) => (c :: value, rest)

/-- The text up to the first colon, and the text from there. -/
def takePlain (cs : List Char) : List Char × List Char := cs.span (· != ':')

/-- The group of a name and the text behind its tilde. -/
def takeAfterTilde (name after : List Char) : Except Error (Group × List Char) :=
  match Composite.ofKey? (String.ofList name) with
  | some c =>
      match takeBody 0 after with
      | some (body, rest) => .ok (.composite c name body, rest)
      | none => .error .malformedString
  | none =>
      match after with
      | '\x7b' :: inner =>
          match takeBraced inner with
          | some (value, rest) => .ok (.scalar name value, rest)
          | none => .error .malformedString
      | _ => .ok (.scalar name (takePlain after).1, (takePlain after).2)

/-- **The first group of a text, and the text behind it.** -/
def take (cs : List Char) : Except Error (Group × List Char) :=
  let (name, rest) := cs.span (!endsName ·)
  match rest with
  | [] => .error .missingValue
  | ':' :: after => .ok (.scalar name (takePlain after).1, (takePlain after).2)
  | _ :: after => takeAfterTilde name after

/-- The groups of a text; `fuel` bounds their number. -/
def splitWithin : Nat → List Char → Except Error (List Group)
  | 0, _ => .error .missingValue
  | fuel + 1, cs =>
      match take cs with
      | .error e => .error e
      | .ok (g, rest) =>
          match rest with
          | [] => .ok [g]
          | _ :: rest => (splitWithin fuel rest).map (g :: ·)

/-- **The groups of an attribute string.** -/
def split (cs : List Char) : Except Error (List Group) := splitWithin (cs.length + 1) cs

/-! ## Laws -/

theorem takeBody_append {depth : Nat} {cs body rest : List Char}
    (h : takeBody depth cs = some (body, rest)) : cs = body ++ rest := by
  induction cs generalizing depth body rest with
  | nil =>
      simp only [takeBody] at h
      split at h
      · cases h; rfl
      · cases h
  | cons c cs ih =>
      simp only [takeBody] at h
      split at h
      · simp only [Option.map_eq_some_iff, Prod.mk.injEq] at h
        obtain ⟨⟨b, r⟩, hb, rfl, rfl⟩ := h
        simp [ih hb]
      · split at h
        · split at h
          · cases h
          · simp only [Option.map_eq_some_iff, Prod.mk.injEq] at h
            obtain ⟨⟨b, r⟩, hb, rfl, rfl⟩ := h
            simp [ih hb]
        · split at h
          · cases h; rfl
          · simp only [Option.map_eq_some_iff, Prod.mk.injEq] at h
            obtain ⟨⟨b, r⟩, hb, rfl, rfl⟩ := h
            simp [ih hb]

theorem takeBraced_append {cs value rest : List Char}
    (h : takeBraced cs = some (value, rest)) : cs = value ++ '\x7d' :: rest := by
  induction cs generalizing value rest with
  | nil => cases h
  | cons c cs ih =>
      simp only [takeBraced] at h
      split at h
      · rename_i hc
        cases h
        simp [hc.1]
      · simp only [Option.map_eq_some_iff, Prod.mk.injEq] at h
        obtain ⟨⟨b, r⟩, hb, rfl, rfl⟩ := h
        simp [ih hb]

end Group

end Registrar
