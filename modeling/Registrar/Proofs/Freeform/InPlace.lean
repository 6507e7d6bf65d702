import Registrar.Proofs.Freeform.Commuting
import Registrar.Proofs.Freeform.Phrases
import Registrar.Proofs.Freeform.UserFields
import Registrar.Proofs.Freeform.Reachable

/-!
# Changes made in place

The operations that change a user can be run on one user in place: they write to it step by step,
and what has been written when an error comes up stays. `InPlace` programs are such operations. What
one that fails leaves behind depends on the order of its checks and writes:

```
setScalar, clearScalar    all checks, then all writes            the user as it was
applyBody                 check, write, check, write, …          what stands in front of the error
decode                    the groups are applied to a copy, …    the user as it was
                          … which is written back in the end
```

* `InPlace.on_bind` — a program that goes on with another.
* `User.on_setScalarInPlace`, `User.on_applyBodyInPlace`, `User.on_decodeInPlace` — what the
  operations do in place is what they give.
* `User.performInPlace_snd` — calls reach the same users in place.
* `User.performInPlace_failed` — what calls that fail leave behind.
-/

set_option autoImplicit false

namespace Registrar

/-! ## Programs -/

/-- **A program that changes a user in place.** What it has written when it fails stays. -/
abbrev InPlace (α : Type) : Type := ExceptT Error (StateM User) α

namespace InPlace

variable {α β : Type}

/-- The outcome of a program, and the user that it leaves behind. -/
def on (p : InPlace α) (u : User) : Except Error α × User := Id.run (StateT.run (ExceptT.run p) u)

/-- Goes on with a result, or fails. -/
def ofExcept (x : Except Error α) : InPlace α := ExceptT.mk (pure x)

/-- Writes to the user. -/
def write (f : User → User) : InPlace Unit := modify f

theorem on_ofExcept (x : Except Error α) (u : User) : (ofExcept x).on u = (x, u) := rfl

theorem on_write (f : User → User) (u : User) : (write f).on u = (.ok (), f u) := rfl

theorem on_get (u : User) : (get : InPlace User).on u = (.ok u, u) := rfl

/-- **A program that goes on with another.** -/
theorem on_bind (p : InPlace α) (f : α → InPlace β) (u : User) :
    (p >>= f).on u =
      match p.on u with
      | (.ok a, v) => (f a).on v
      | (.error e, v) => (.error e, v) := by
  unfold on ExceptT.run StateT.run Id.run
  simp only [bind, ExceptT.bind, ExceptT.mk, StateT.bind]
  cases p u with
  | mk outcome v => cases outcome <;> rfl

end InPlace

/-! ## Scalar attributes -/

/-- A truth value as the value of a field for truth values. -/
def UserField.flagValue (p : UserField.OfKind .boolean) (b : Bool) :
    p.val.field.kind.Value :=
  ⟨.flag b, by rw [p.property]; rfl⟩

/-- A text as the value of a field for texts. -/
def UserField.textValue (p : UserField.OfKind .text) (text : String) :
    p.val.field.kind.Value :=
  ⟨.text text, by rw [p.property]; rfl⟩

namespace User

/-- Empties the text attribute of a canonical name in place: finds it, writes to it and marks it. -/
def clearScalarInPlace (canonical : String) : InPlace Unit :=
  match UserField.text? canonical with
  | none => throw (.unknownAttribute canonical)
  | some p => do
      InPlace.write (·.write p.val (UserField.textValue p ""))
      InPlace.write (·.force canonical)

/-- Gives the attribute of a canonical name a truth value in place: reads it, finds the attribute,
writes to it and, if the value is false, marks it. -/
def setFlagInPlace (name canonical value : String) : InPlace Unit := do
  let b ← InPlace.ofExcept (parseBoolean canonical value)
  match UserField.flag? canonical with
  | none => throw (.unknownAttribute name)
  | some p => do
      InPlace.write (·.write p.val (UserField.flagValue p b))
      if b then pure () else InPlace.write (·.force canonical)

/-- Gives the password in place: its hash is written first, then the name of the hash. -/
def setPasswordInPlace (hasher : Hasher) (value : String) : InPlace Unit := do
  let password := UserField.inUser "password" .text
  InPlace.write (·.write password.val (UserField.textValue password (hasher.hash value)))
  let hash := UserField.inUser "hash_function" .text
  InPlace.write (·.write hash.val (UserField.textValue hash hasher.name))

/-- Gives the attribute of a canonical name a value in place. `name` is the name as it was given. -/
def assignInPlace (hasher : Hasher) (name canonical : String) (kind : FieldKind) (value : String) :
    InPlace Unit :=
  if canonical = "password" then setPasswordInPlace hasher value
  else if canonical = "recoveryPhone" ∧ isPhone value = false then throw .phoneWithoutPlus
  else if kind = .boolean then setFlagInPlace name canonical value
  else if value.isEmpty ∧ ObjectType.user.clearable.contains canonical then
    clearScalarInPlace canonical
  else
    match UserField.text? canonical with
    | none => throw (.unknownAttribute name)
    | some p => InPlace.write (·.write p.val (UserField.textValue p value))

/-- **Gives the scalar attribute of a name a value in place.** -/
def setScalarInPlace (hasher : Hasher) (name value : String) : InPlace Unit :=
  match Vocabulary.ofUser.get? name with
  | none => throw (.unknownAttribute name)
  | some canonical =>
      match ObjectType.user.fields.find? (·.name == canonical) with
      | none => throw (.unknownAttribute name)
      | some f => assignInPlace hasher name canonical f.kind value

end User

/-! ## Composite attributes -/

/-- The attribute under which the records of a field of users are stored. -/
def Composite.storedAs? : String → Option Composite
  | "addresses" => some .address
  | "emails" => some .email
  | "externalIds" => some .externalId
  | "gender" => some .gender
  | "ims" => some .im
  | "keywords" => some .keyword
  | "languages" => some .language
  | "locations" => some .location
  | "name" => some .name
  | "notes" => some .notes
  | "organizations" => some .organization
  | "phones" => some .phone
  | "posixAccounts" => some .posixAccount
  | "relations" => some .relation
  | "sshPublicKeys" => some .sshPublicKey
  | "websites" => some .website
  | _ => none

theorem Composite.storedAs?_field (c : Composite) : storedAs? c.field = some c := by
  cases c <;> rfl

namespace User

/-- Adds an occurrence in place: gathers it, finds the attribute of its field, reads the record into
its type and stores it. -/
def addInPlace (c : Composite) (o : List Char) : InPlace Unit := do
  let g ← InPlace.ofExcept (Gathered.ofOccurrence c o)
  match Composite.storedAs? c.field with
  | none => throw (.unknownAttribute c.field)
  | some d => do
      let r ← InPlace.ofExcept (g.toRecord d.payload)
      InPlace.write (·.add d (r.restored d.stores))

/-- Adds occurrences in place, one after the other. -/
def addAllInPlace (c : Composite) : List (List Char) → InPlace Unit
  | [] => pure ()
  | o :: rest => do
      addInPlace c o
      addAllInPlace c rest

/-- **Adds the occurrences of a body in place.** -/
def applyBodyInPlace (c : Composite) (body : List Char) : InPlace Unit :=
  match Occurrence.split body with
  | none => throw .malformedString
  | some os => addAllInPlace c os

/-! ## Decoding -/

/-- Applies a group in place. -/
def applyGroupInPlace (hasher : Hasher) : Group → InPlace Unit
  | .composite _ name body =>
      match Composite.ofKey? (String.ofList name) with
      | none => throw (.unknownAttribute (String.ofList name))
      | some c => applyBodyInPlace c body
  | .scalar name value =>
      match Composite.ofKey? (String.ofList name) with
      | some _ => throw .missingValue
      | none => setScalarInPlace hasher (String.ofList name) (String.ofList value)

/-- Applies groups in place, one after the other. -/
def applyGroupsInPlace (hasher : Hasher) : List Group → InPlace Unit
  | [] => pure ()
  | g :: rest => do
      applyGroupInPlace hasher g
      applyGroupsInPlace hasher rest

/-- Runs a program on a copy of the user, which is written back if the program succeeds. -/
def staged (p : InPlace Unit) : InPlace Unit := do
  let copy ← get
  let (outcome, changed) := p.on copy
  InPlace.ofExcept outcome
  InPlace.write fun _ => changed

/-- **Decodes an attribute string in place.** The copy is made before the groups are told apart. -/
def decodeInPlace (hasher : Hasher) (input : String) : InPlace Unit := do
  if (Text.trim input.toList).isEmpty then throw .malformedString
  staged do
    let groups ← InPlace.ofExcept (Group.split input.toList)
    applyGroupsInPlace hasher groups

/-! ## What scalar attributes leave behind -/

/-- What an operation leaves behind that does all of its work or none. -/
def allOrNothing (u : User) : Except Error User → Except Error Unit × User
  | .ok v => (.ok (), v)
  | .error e => (.error e, u)

end User

namespace Slot

theorem isPlainText_of_not_boolean {s : Slot} (hpassword : s ≠ .password)
    (h : s.field.kind ≠ .boolean) : s.isPlainText = true := by
  revert hpassword h
  cases s <;> decide

theorem isPlainText_of_clearable {s : Slot} (h : s.field.clearable = true) :
    s.isPlainText = true := by
  revert h
  cases s <;> decide

theorem name_eq_iff {s t : Slot} : s.field.name = t.field.name ↔ s = t :=
  ⟨User.name_inj, fun h => h ▸ rfl⟩

theorem find?_fields (name : String) :
    ObjectType.user.fields.find? (·.name == name) = (ofName? name).map field := by
  rw [ObjectType.fields, List.find?_map]
  rfl

end Slot

namespace User

variable {u : User}

theorem put_eq_set {s : Slot} {v : s.field.kind.Value} (hzero : s.field.isZero v.val = false) :
    u.put s v = u.set s v := by
  have hput : ∀ {shape : Shape} (r : Record shape) (f : shape.Member) (w : f.val.kind.Value),
      f.val.isZero w.val = false → r.put f w = r.set f w := by
    intro shape r f w hw
    rw [Record.put, hw]
    rfl
  unfold put set
  split
  · rw [hput _ (s.nameMember _) v hzero]
  · rw [hput _ (s.userMember _) v hzero]

theorem put_eq_force_set {s : Slot} (hname : s.inName = false) {v : s.field.kind.Value}
    (hzero : s.field.isZero v.val = true) : u.put s v = (u.set s v).force s.field.name := by
  have hput : u.scalars.put (s.userMember hname) v
      = (u.scalars.set (s.userMember hname) v).force s.field.name := by
    unfold Record.put
    exact if_pos hzero
  rw [put_of_not_inName hname, hput, set, dif_neg (Bool.eq_false_iff.mp hname)]
  rfl

theorem isZero_cleared {s : Slot} (h : s.field.clearable = true) :
    s.field.isZero (s.field.cleared h).val = true :=
  Field.isZero_eq_true_iff.mpr (Or.inr ⟨h, rfl⟩)

theorem isZero_filled {s : Slot} (hplain : s.isPlainText = true) {value : String}
    (h : ¬(value.isEmpty = true ∧ s.field.clearable = true)) :
    s.field.isZero (plainValue s hplain value).val = false := by
  refine Bool.eq_false_iff.mpr fun hzero => ?_
  rcases Field.isZero_eq_true_iff.mp hzero with hflag | ⟨hclear, hempty⟩
  · cases hflag
  · obtain rfl : value = "" := Scalar.text.inj hempty
    exact h ⟨rfl, hclear⟩

theorem force_put_empty {s : Slot} (h : s.isPlainText = true) :
    (u.put s (plainValue s h "")).force s.field.name
      = (u.set s (plainValue s h "")).force s.field.name := by
  cases hclear : s.field.clearable with
  | true =>
      have hzero : s.field.isZero (plainValue s h "").val = true := isZero_cleared hclear
      have hforce : ∀ r : Record .ofUser, (r.force s.field.name).force s.field.name
          = r.force s.field.name := fun r => Record.ext (fun _ => rfl) fun n => by
        rw [Record.isForced_force, Record.isForced_force, ← Bool.or_assoc, Bool.or_self]
      rw [put_eq_force_set (Slot.inName_eq_false (Or.inr hclear)) hzero, force, force, hforce]
  | false =>
      have hzero : s.field.isZero (plainValue s h "").val = false := by
        rw [Field.isZero, hclear]
        rfl
      rw [put_eq_set hzero]

/-- **What an empty value clears** is emptied by its name. -/
theorem clearScalar_eq {s : Slot} (h : s.field.clearable = true) :
    u.clearScalar s.field.name = .ok (u.put s (s.field.cleared h)) := by
  have hplain := Slot.isPlainText_of_clearable h
  have hname := Slot.inName_eq_false (Or.inr h)
  rw [clearScalar, Slot.ofName?_name]
  simp only [dif_pos hplain]
  rw [force_put_empty hplain, put_eq_force_set hname (isZero_cleared h)]
  rfl

theorem on_clearScalarInPlace (canonical : String) :
    (clearScalarInPlace canonical).on u = u.allOrNothing (u.clearScalar canonical) := by
  unfold clearScalarInPlace
  cases htext : UserField.text? canonical with
  | none =>
      unfold clearScalar
      cases hs : Slot.ofName? canonical with
      | none => rfl
      | some s =>
          obtain rfl := Slot.name_of_ofName? hs
          -- an attribute without an arm for texts cannot be cleared
          have hplain : s.isPlainText = false := by rw [← UserField.isSome_text?, htext]; rfl
          simp only [hplain]
          rfl
  | some p =>
      obtain ⟨s, rfl, hplain, hname⟩ := UserField.exists_slot_of_text? htext
      simp only [InPlace.on_bind, InPlace.on_write]
      rw [write_eq (w := plainValue s hplain "") hname rfl, ← force_put_empty hplain, clearScalar,
        Slot.ofName?_name]
      simp only [dif_pos hplain]
      rfl

theorem on_setFlagInPlace {s : Slot} (hflag : s.field.kind = .boolean) (name value : String) :
    (setFlagInPlace name s.field.name value).on u
      = u.allOrNothing ((s.field.kind.convert s.field.name value).map (u.put s)) := by
  -- each attribute of truth values is among the literal arms
  obtain ⟨p, hp, hname⟩ := UserField.exists_flag? hflag
  rw [setFlagInPlace, InPlace.on_bind, InPlace.on_ofExcept, FieldKind.convert_of_boolean hflag]
  cases parseBoolean s.field.name value with
  | error e => rfl
  | ok b =>
      simp only [hp, InPlace.on_bind, InPlace.on_write]
      have hb : s.field.kind.admits (.flag b) = true := by rw [hflag]; rfl
      rw [write_eq (w := ⟨.flag b, hb⟩) hname rfl]
      cases b with
      | true =>
          have hzero : s.field.isZero (.flag true) = false := by simp [Field.isZero]
          exact congrArg (fun v => (Except.ok (), v)) (put_eq_set hzero).symm
      | false =>
          have hzero : s.field.isZero (.flag false) = true :=
            Field.isZero_eq_true_iff.mpr (Or.inl rfl)
          exact congrArg (fun v => (Except.ok (), v))
            (put_eq_force_set (Slot.inName_eq_false (Or.inl hflag)) hzero).symm

theorem on_setPasswordInPlace (hasher : Hasher) (value : String) :
    (setPasswordInPlace hasher value).on u
      = (.ok (), u.setPassword hasher.name (hasher.hash value)) := by
  have hpassword : u.write (UserField.inUser "password" .text).val
      (UserField.textValue _ (hasher.hash value))
      = { u with
          scalars := u.scalars.set passwordField
            (Field.textValue "password" (hasher.hash value)) } := write_ofUser rfl rfl
  rw [setPasswordInPlace, InPlace.on_bind, InPlace.on_write]
  refine congrArg (Prod.mk _) ?_
  rw [hpassword]
  exact write_ofUser (g := hashField) (w := Field.textValue "hashFunction" hasher.name) rfl rfl

/-- **The attribute of a canonical name is given its value in place.** -/
theorem on_assignInPlace (hasher : Hasher) (name : String) (s : Slot) (value : String) :
    (assignInPlace hasher name s.field.name s.field.kind value).on u
      = u.allOrNothing (u.assign hasher s value) := by
  have hpassword : s.field.name = "password" ↔ s = .password :=
    Slot.name_eq_iff (t := .password)
  have hphone : s.field.name = "recoveryPhone" ↔ s = .recoveryPhone :=
    Slot.name_eq_iff (t := .recoveryPhone)
  unfold assignInPlace assign
  simp only [hpassword, hphone]
  by_cases hp : s = .password
  · rw [if_pos hp, if_pos hp]
    exact on_setPasswordInPlace hasher value
  · rw [if_neg hp, if_neg hp]
    split
    · rfl
    · by_cases hflag : s.field.kind = .boolean
      · rw [if_pos hflag]
        exact on_setFlagInPlace hflag name value
      · have hplain := Slot.isPlainText_of_not_boolean hp hflag
        have hconvert := FieldKind.convert_of_text (Slot.kind_of_isPlainText hplain) s.field.name
        rw [if_neg hflag, hconvert, s.contains_clearable]
        split
        · rename_i hempty
          obtain ⟨hvalue, hclear⟩ := hempty
          obtain rfl := String.isEmpty_iff.mp hvalue
          rw [on_clearScalarInPlace, clearScalar_eq hclear]
          rfl
        · rename_i hfilled
          -- no empty value gets here that would have to be marked
          have hzero := isZero_filled hplain hfilled
          obtain ⟨p, hp, hname⟩ := UserField.exists_text? hplain
          simp only [hp, InPlace.on_write]
          rw [write_eq (w := plainValue s hplain value) hname rfl, ← put_eq_set hzero]
          rfl

/-- **A scalar attribute is given its value in place** with all of the work or none. -/
theorem on_setScalarInPlace (hasher : Hasher) (name value : String) :
    (setScalarInPlace hasher name value).on u = u.allOrNothing (u.setScalar hasher name value) := by
  unfold setScalarInPlace setScalar
  cases Vocabulary.ofUser.get? name with
  | none => rfl
  | some canonical =>
      simp only [Option.bind_some, Slot.find?_fields]
      cases hs : Slot.ofName? canonical with
      | none => rfl
      | some s =>
          obtain rfl := Slot.name_of_ofName? hs
          exact on_assignInPlace hasher name s value

/-! ## What bodies leave behind -/

/-- **One occurrence** is added in place, or the user is as it was. -/
theorem on_addInPlace (c : Composite) (o : List Char) :
    (addInPlace c o).on u = u.allOrNothing ((Occurrence.read c o).map (u.add c)) := by
  rw [Occurrence.read, Gathered.readTyped, addInPlace, InPlace.on_bind, InPlace.on_ofExcept]
  cases Gathered.ofOccurrence c o with
  | error e => rfl
  | ok g =>
      simp only [c.storedAs?_field, InPlace.on_bind, InPlace.on_ofExcept, InPlace.on_write]
      cases g.toRecord c.payload <;> rfl

/-- **Occurrences** are added in place up to the first that is in error. -/
theorem on_addAllInPlace (c : Composite) (os : List (List Char)) :
    (addAllInPlace c os).on u = u.applyOccurrences c os := by
  induction os generalizing u with
  | nil => rfl
  | cons o os ih =>
      rw [addAllInPlace, InPlace.on_bind, on_addInPlace, applyOccurrences]
      cases Occurrence.read c o with
      | error e => rfl
      | ok r => exact ih

/-- **A body** leaves behind in place what it gives. -/
theorem on_applyBodyInPlace (c : Composite) (body : List Char) :
    (applyBodyInPlace c body).on u = u.applyBody c body := by
  unfold applyBodyInPlace applyBody
  cases Occurrence.split body with
  | none => rfl
  | some os => exact on_addAllInPlace c os

/-! ## What attribute strings leave behind -/

theorem settled_allOrNothing (u : User) (outcome : Except Error User) :
    settled (u.allOrNothing outcome) = outcome := by
  cases outcome <;> rfl

/-- **A group of a phrase** that is applied in place has the outcome that it has otherwise. -/
theorem settled_applyGroupInPlace (hasher : Hasher) {p : Phrase} (hp : p.IsValid) :
    settled ((applyGroupInPlace hasher p.group).on u) = u.decodeGroup hasher p.group := by
  have hscalar : ∀ name value, settled ((applyGroupInPlace hasher (.scalar name value)).on u)
      = u.decodeGroup hasher (.scalar name value) := by
    intro name value
    rw [applyGroupInPlace, decodeGroup]
    cases Composite.ofKey? (String.ofList name) with
    | some d => rfl
    | none => simp only [on_setScalarInPlace, settled_allOrNothing]
  cases p with
  | colon name value => exact hscalar name value
  | tilde name value => exact hscalar name value
  | braced name value => exact hscalar name value
  | body c name content =>
      -- the name of the group is one of the attribute
      obtain ⟨-, -, hkey, -⟩ := hp
      simp only [Phrase.group, applyGroupInPlace, decodeGroup, hkey, on_applyBodyInPlace]

theorem settled_applyGroupsInPlace (hasher : Hasher) {ps : List Phrase}
    (hps : ∀ p ∈ ps, p.IsValid) :
    settled ((applyGroupsInPlace hasher (ps.map Phrase.group)).on u)
      = u.decodeGroups hasher (ps.map Phrase.group) := by
  induction ps generalizing u with
  | nil => rfl
  | cons p ps ih =>
      obtain ⟨hp, hrest⟩ := List.forall_mem_cons.mp hps
      rw [List.map_cons, applyGroupsInPlace, decodeGroups, ← settled_applyGroupInPlace hasher hp,
        InPlace.on_bind]
      cases (applyGroupInPlace hasher p.group).on u with
      | mk outcome v =>
          cases outcome with
          | error e => rfl
          | ok a => exact ih hrest

/-- **A program on a copy** does all of its work or none. -/
theorem on_staged (p : InPlace Unit) : (staged p).on u = u.allOrNothing (settled (p.on u)) := by
  rw [staged, InPlace.on_bind, InPlace.on_get]
  simp only [InPlace.on_bind, InPlace.on_ofExcept, InPlace.on_write]
  cases p.on u with
  | mk outcome v => cases outcome <;> rfl

/-- **An attribute string is decoded in place** with all of the work or none. -/
theorem on_decodeInPlace (hasher : Hasher) (input : String) :
    (decodeInPlace hasher input).on u = u.allOrNothing (u.decode hasher input) := by
  rw [decodeInPlace, decode]
  split
  · rfl
  · show (staged _).on u = _
    rw [on_staged, InPlace.on_bind, InPlace.on_ofExcept]
    cases hsplit : Group.split input.toList with
    | error e => rfl
    | ok groups =>
        obtain ⟨ps, hmakeUp, rfl⟩ := Phrase.exists_makeUp hsplit
        exact congrArg u.allOrNothing (settled_applyGroupsInPlace hasher hmakeUp.valid)

/-! ## Calls that fail -/

/-- **A call, made in place.** -/
def performInPlace (u : User) : Call → Except Error Unit × User
  | .decode hasher input => (decodeInPlace hasher input).on u
  | .setScalar hasher name value => (setScalarInPlace hasher name value).on u
  | .clearScalar name => (clearScalarInPlace name).on u
  | .applyBody c body => (applyBodyInPlace c body).on u

theorem allOrNothing_snd (u : User) (outcome : Except Error User) :
    (u.allOrNothing outcome).2 = u.orUnchanged outcome := by
  cases outcome <;> rfl

/-- **A call that is made in place** leaves the user behind that calls reach. -/
theorem performInPlace_snd (u : User) (call : Call) :
    (u.performInPlace call).2 = u.perform call := by
  cases call with
  | decode hasher input => rw [performInPlace, on_decodeInPlace, allOrNothing_snd, perform]
  | setScalar hasher name value =>
      rw [performInPlace, on_setScalarInPlace, allOrNothing_snd, perform]
  | clearScalar name => rw [performInPlace, on_clearScalarInPlace, allOrNothing_snd, perform]
  | applyBody c body => rw [performInPlace, on_applyBodyInPlace, perform]

theorem eq_of_allOrNothing {outcome : Except Error User} {e : Error} {v : User}
    (h : u.allOrNothing outcome = (.error e, v)) : v = u := by
  cases outcome with
  | ok w => cases h
  | error e' =>
      cases h
      rfl

end User

/-- **The first of some occurrences that is in error** stands behind those in `front`. -/
structure Occurrence.FailsBehind (c : Composite) (front os : List (List Char)) (e : Error) :
    Prop where
  readable : ∀ o ∈ front, ∃ r, read c o = .ok r
  failing : ∃ o rest, os = front ++ o :: rest ∧ read c o = .error e

namespace User

variable {u : User}

theorem exists_applyOccurrences {c : Composite} {os : List (List Char)}
    (h : ∀ o ∈ os, ∃ r, Occurrence.read c o = .ok r) :
    ∃ v, u.applyOccurrences c os = (.ok (), v) := by
  induction os generalizing u with
  | nil => exact ⟨u, rfl⟩
  | cons o os ih =>
      obtain ⟨r, hr⟩ := h o List.mem_cons_self
      obtain ⟨v, hv⟩ := ih (u := u.add c r) fun p hp => h p (List.mem_cons_of_mem _ hp)
      refine ⟨v, ?_⟩
      rw [applyOccurrences, hr]
      exact hv

/-- **Occurrences of which one is in error** are added up to that one. -/
theorem applyOccurrences_of_failsBehind {c : Composite} {front os : List (List Char)} {e : Error}
    (h : Occurrence.FailsBehind c front os e) :
    ∃ v, u.applyOccurrences c front = (.ok (), v) ∧ u.applyOccurrences c os = (.error e, v) := by
  obtain ⟨v, hv⟩ := exists_applyOccurrences (u := u) h.readable
  obtain ⟨o, rest, rfl, ho⟩ := h.failing
  refine ⟨v, hv, ?_⟩
  rw [applyOccurrences_append hv, applyOccurrences, ho]

/-- **What calls that fail leave behind.** A body that does not split leaves the user as it
was. A body with an occurrence that is in error leaves the user that the occurrences in front of it
make, each put in braces; this is the user as it was if it is the first. To give a scalar attribute
a value, to empty one and to decode leave the user as it was. -/
theorem performInPlace_failed (u : User) :
    (∀ c body, Occurrence.split body = none →
      u.performInPlace (.applyBody c body) = (.error .malformedString, u)) ∧
    (∀ c body os front e, Occurrence.split body = some os → Occurrence.FailsBehind c front os e →
      ∃ v, u.performInPlace (.applyBody c body) = (.error e, v) ∧
        (front = [] → v = u) ∧
        (front ≠ [] →
          u.performInPlace (.applyBody c (front.flatMap Occurrence.braced)) = (.ok (), v))) ∧
    (∀ hasher name value e v,
      u.performInPlace (.setScalar hasher name value) = (.error e, v) → v = u) ∧
    (∀ name e v, u.performInPlace (.clearScalar name) = (.error e, v) → v = u) ∧
    (∀ hasher input e v, u.performInPlace (.decode hasher input) = (.error e, v) → v = u) := by
  refine ⟨?unsplit, ?failing, ?setScalar, ?clearScalar, ?decode⟩
  case unsplit =>
    intro c body hnone
    rw [performInPlace, on_applyBodyInPlace, applyBody, hnone]
  case failing =>
    intro c body os front e hos hfails
    obtain ⟨v, hfront, hv⟩ := applyOccurrences_of_failsBehind (u := u) hfails
    refine ⟨v, ?_, ?_, ?_⟩
    · rw [performInPlace, on_applyBodyInPlace, applyBody, hos]
      exact hv
    · rintro rfl
      cases hfront
      rfl
    · intro hne
      -- what stands in front has no braces of its own, so it splits into itself
      have hplain : ∀ o ∈ front, o.any Occurrence.isBrace = false := by
        obtain ⟨o, rest, rfl, -⟩ := hfails.failing
        exact fun p hp => (Occurrence.split_spec hos).2 p (List.mem_append_left _ hp)
      rw [performInPlace, on_applyBodyInPlace, applyBody, Occurrence.split_flatMap hne hplain]
      exact hfront
  case setScalar =>
    intro hasher name value e v h
    rw [performInPlace, on_setScalarInPlace] at h
    exact eq_of_allOrNothing h
  case clearScalar =>
    intro name e v h
    rw [performInPlace, on_clearScalarInPlace] at h
    exact eq_of_allOrNothing h
  case decode =>
    intro hasher input e v h
    rw [performInPlace, on_decodeInPlace] at h
    exact eq_of_allOrNothing h

/-- An address in front of a name that is not known, and a group in front of one that is in
error. -/
theorem performInPlace_failed_bogus :
    empty.performInPlace (.applyBody .email "\x7baddress~a@b.c".toList)
      = (.error .malformedString, empty) ∧
    (∃ v, empty.performInPlace (.applyBody .email "\x7baddress~a@b.c\x7d\x7bbogus~1\x7d".toList)
        = (.error (.unknownAttribute "bogus"), v) ∧
      empty.performInPlace (.applyBody .email "\x7baddress~a@b.c\x7d".toList) = (.ok (), v)) ∧
    empty.performInPlace (.setScalar .sha512 "suspended" "maybe")
      = (.error (.notABoolean "suspended"), empty) ∧
    empty.performInPlace (.clearScalar "suspended")
      = (.error (.unknownAttribute "suspended"), empty) ∧
    empty.performInPlace (.decode .sha512 "suspended:true:bogus:1")
      = (.error (.unknownAttribute "bogus"), empty) := by
  obtain ⟨hunsplit, hfailing, hset, hclear, hdecode⟩ := performInPlace_failed empty
  have hleft : ∀ {x : Except Error Unit × User} {e : Error},
      (∀ v, x = (.error e, v) → v = empty) → error? x.1 = some e → x = (.error e, empty) := by
    intro x e hv he
    have hx : x = (.error e, x.2) := Prod.ext (error?_eq_some_iff.mp he) rfl
    exact hx.trans (congrArg (Prod.mk _) (hv x.2 hx))
  refine ⟨?_, ?_, ?_, ?_, ?_⟩
  · exact hunsplit .email _ (by decide +kernel)
  · have hsplit : Occurrence.split "\x7baddress~a@b.c\x7d\x7bbogus~1\x7d".toList
        = some ["address~a@b.c".toList, "bogus~1".toList] := by decide +kernel
    have haddress : ∃ r, Occurrence.read .email "address~a@b.c".toList = .ok r := by
      have hread : ∀ x : Except Error (Record Composite.email.shape), x.isOk = true →
          ∃ r, x = .ok r := by
        intro x hx
        cases x with
        | error e => cases hx
        | ok r => exact ⟨r, rfl⟩
      exact hread _ (by decide +kernel)
    have hbogus : Occurrence.read .email "bogus~1".toList = .error (.unknownAttribute "bogus") :=
      error?_eq_some_iff.mp (by decide +kernel)
    obtain ⟨v, hv, -, hfront⟩ := hfailing .email _ _ ["address~a@b.c".toList] _ hsplit
      ⟨List.forall_mem_singleton.mpr haddress, _, _, rfl, hbogus⟩
    exact ⟨v, hv, hfront (List.cons_ne_nil _ _)⟩
  · exact hleft (fun v h => hset _ _ _ _ v h) (by decide +kernel)
  · exact hleft (fun v h => hclear _ _ v h) (by decide +kernel)
  · exact hleft (fun v h => hdecode _ _ _ v h) (by decide +kernel)

end User

end Registrar
