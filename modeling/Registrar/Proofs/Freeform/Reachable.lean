import Registrar.Proofs.Freeform.Decoded

/-!
# Users that calls reach

The operations that decoding is made of can be called on their own, too. A call that gives a
scalar attribute a value, or empties it, does all of its work or none, but one that adds the
occurrences of a body keeps those in front of the first that is in error. After any calls, made
one after the other from the empty user on, the user is sound: each value has passed the check of
its field, and a password never stands without the name of its hash.

* `User.IsChecked` — what each call preserves; one lemma for each kind of call.
* `User.isSound_performAll` — what holds of every user that calls reach.
-/

set_option autoImplicit false

namespace Registrar

/-- **A call of one of the operations that change a user.** -/
inductive Call where
  | decode (hasher : Hasher) (input : String)
  | setScalar (hasher : Hasher) (name value : String)
  | clearScalar (name : String)
  | applyBody (c : Composite) (body : List Char)

namespace User

/-! ## Calls -/

/-- The user that a step gives, which is the old one if the step is in error. -/
def orUnchanged (u : User) : Except Error User → User
  | .ok v => v
  | .error _ => u

theorem orUnchanged_induction {P : User → Prop} {u : User} {outcome : Except Error User}
    (h : P u) (hv : ∀ v, outcome = .ok v → P v) : P (u.orUnchanged outcome) := by
  cases outcome with
  | ok v => exact hv v rfl
  | error e => exact h

/-- **The user after a call**, whether it succeeds or not. -/
def perform (u : User) : Call → User
  | .decode hasher input => u.orUnchanged (u.decode hasher input)
  | .setScalar hasher name value => u.orUnchanged (u.setScalar hasher name value)
  | .clearScalar name => u.orUnchanged (u.clearScalar name)
  | .applyBody c body => (u.applyBody c body).2

/-- **The user that calls make of the empty one**, made one after the other. -/
def performAll (calls : List Call) : User := calls.foldl perform empty

/-! ## What calls preserve -/

/-- Whether a password and the name of its hash are both set or both not. -/
def PasswordHashed (u : User) : Prop :=
  (u.scalars.get? "password").isSome ↔ (u.scalars.get? "hashFunction").isSome

/-- **What each call preserves.** -/
structure IsChecked (u : User) : Prop where
  phone : u.scalars.Holds PhoneOk
  hashed : u.PasswordHashed
  composites : u.HasDecodedParts

theorem isChecked_empty : IsChecked empty :=
  ⟨Record.holds_empty, Iff.rfl, hasDecodedParts_empty⟩

theorem get?_scalars_put_of_isSecret (u : User) {s : Slot} (hs : s ≠ .password)
    (v : s.field.kind.Value) {name : String} (hn : isSecret name = true) :
    (u.put s v).scalars.get? name = u.scalars.get? name := by
  unfold put
  split
  · rfl
  · rename_i hin
    have hne : name ≠ s.field.name := by
      rintro rfl
      rw [isSecret_of_ne_password hs] at hn
      cases hn
    exact (Record.get?_put _ (s.userMember (Bool.eq_false_iff.mpr hin)) v name).trans (if_neg hne)

theorem get?_scalars_setPassword (u : User) (hashName hash name : String) :
    (u.setPassword hashName hash).scalars.get? name =
      if name = "hashFunction" then some (.text hashName)
      else if name = "password" then some (.text hash)
      else u.scalars.get? name := by
  have hpassword := Record.get?_set u.scalars passwordField (Field.textValue "password" hash) name
  exact (Record.get?_set _ hashField _ name).trans
    (congrArg (if name = "hashFunction" then some (Scalar.text hashName) else ·) hpassword)

namespace IsChecked

variable {u : User}

theorem setPassword (h : u.IsChecked) (hashName hash : String) :
    (u.setPassword hashName hash).IsChecked where
  phone := by
    rintro name v hv rfl
    rw [get?_scalars_setPassword, if_neg (by decide), if_neg (by decide)] at hv
    exact h.phone _ v hv rfl
  hashed := by
    simp [PasswordHashed, get?_scalars_setPassword]
  composites := ⟨h.composites.parts, h.composites.filled⟩

theorem put (h : u.IsChecked) {s : Slot} (hs : s ≠ .password) {v : s.field.kind.Value}
    (hp : s = .recoveryPhone → isPhone v.val.asText = true) : (u.put s v).IsChecked where
  phone := holds_scalars_put h.phone fun hn => hp (name_inj hn)
  hashed := by
    rw [PasswordHashed, u.get?_scalars_put_of_isSecret hs v (by decide),
      u.get?_scalars_put_of_isSecret hs v (by decide)]
    exact h.hashed
  composites := h.composites.put s v

theorem force (h : u.IsChecked) (name : String) : (u.force name).IsChecked :=
  ⟨h.phone, h.hashed, h.composites.parts, h.composites.filled⟩

theorem add (h : u.IsChecked) {c : Composite} {r : Record c.shape} (hr : r.IsDecodedPart c)
    (hne : r.isEmpty = false) : (u.add c r).IsChecked :=
  ⟨h.phone, h.hashed, h.composites.add hr hne⟩

/-! ## One lemma for each kind of call -/

theorem edit (h : u.IsChecked) {e : Edit} (he : e.IsMade) (hasher : Hasher) :
    (u.edit hasher e).IsChecked := by
  cases he with
  | password plain => exact h.setPassword _ _
  | put hs hp _ => exact h.put hs hp
  | add hne hg => exact h.add (Record.isDecodedPart_putAll hg) (Record.isEmpty_putAll hne)

theorem decode (h : u.IsChecked) {hasher : Hasher} {input : String} {v : User}
    (hv : u.decode hasher input = .ok v) : v.IsChecked := by
  obtain ⟨es, hes, rfl⟩ := (u.decode_eq_ok_iff hasher).mp hv
  exact editAll_induction (P := IsChecked)
    (fun w e he hw => hw.edit ((Edit.parse_spec hes).2 e he).1 hasher) h

theorem setScalar (h : u.IsChecked) {hasher : Hasher} {name value : String} {v : User}
    (hv : u.setScalar hasher name value = .ok v) : v.IsChecked := by
  rw [setScalar_eq] at hv
  obtain ⟨e, he, rfl⟩ := map_eq_ok_iff.mp hv
  unfold Edit.ofScalar at he
  split at he
  · cases he
  · rcases Slot.eq_of_edit he with ⟨-, rfl⟩ | ⟨hs, hp, w, hw, rfl⟩
    · exact h.setPassword _ _
    · exact h.put hs (Slot.isPhone_asText_of_convert hw hp)

theorem clearScalar (h : u.IsChecked) {name : String} {v : User}
    (hv : u.clearScalar name = .ok v) : v.IsChecked := by
  unfold User.clearScalar at hv
  split at hv
  · cases hv
  · rename_i s _
    split at hv
    · rename_i hplain
      cases hv
      have hs : s ≠ .password := by
        rintro rfl
        cases hplain
      -- the empty text is a phone number, too
      exact (h.put hs (v := plainValue s hplain "") fun _ => rfl).force name
    · cases hv

theorem applyOccurrences (h : u.IsChecked) {c : Composite} {os : List (List Char)}
    (hos : ∀ o ∈ os, o.any Occurrence.isBrace = false) :
    (u.applyOccurrences c os).2.IsChecked := by
  induction os generalizing u with
  | nil => exact h
  | cons o os ih =>
      unfold User.applyOccurrences
      split
      · exact h
      · rename_i r hr
        obtain ⟨as, hne, rfl, hg⟩ := Occurrence.read_spec hr (hos o List.mem_cons_self)
        have hadd := h.add (Record.isDecodedPart_putAll hg) (Record.isEmpty_putAll hne)
        exact ih hadd fun o' ho' => hos o' (List.mem_cons_of_mem _ ho')

example : ((empty.applyOccurrences .email ["address~a".toList, "bogus~b".toList]).2.records
    .email).length = 1 := by
  decide +kernel

theorem applyBody (h : u.IsChecked) (c : Composite) (body : List Char) :
    (u.applyBody c body).2.IsChecked := by
  unfold User.applyBody
  split
  · exact h
  · rename_i os hos
    exact h.applyOccurrences (Occurrence.split_spec hos).2

/-- **Each call preserves it.** -/
theorem perform (h : u.IsChecked) (call : Call) : (u.perform call).IsChecked := by
  cases call with
  | decode hasher input => exact orUnchanged_induction h fun v => h.decode
  | setScalar hasher name value => exact orUnchanged_induction h fun v => h.setScalar
  | clearScalar name => exact orUnchanged_induction h fun v => h.clearScalar
  | applyBody c body => exact h.applyBody c body

end IsChecked

theorem isChecked_performAll (calls : List Call) : (performAll calls).IsChecked := by
  refine List.foldlRecOn calls perform isChecked_empty ?_
  intro u h call _
  exact h.perform call

/-! ## Sound users -/

/-- **What holds of every user that calls reach.** It is well-formed; its composite attributes
hold no reserved character but in the family name and the given name; and a password is set
exactly if the name of its hash is. -/
structure IsSound (u : User) : Prop extends WellFormed u where
  plain : ∀ c, ∀ r ∈ u.records c, ∀ name text, r.get? name = some (.text text) →
    IsNamePart c name ∨ Text.isPlain text.toList = true
  hashed : u.PasswordHashed

/-- **Every user that calls reach is sound**, whatever the calls are given and whether they
succeed or not. -/
theorem isSound_performAll (calls : List Call) : (performAll calls).IsSound := by
  have h := isChecked_performAll calls
  exact {
    toWellFormed := h.composites.wellFormed h.phone
    plain := fun c r hr name text hget => ((h.composites.parts c r hr).values name _ hget).2
    hashed := h.hashed }

end User

end Registrar
