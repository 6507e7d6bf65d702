import Registrar.Proofs.Freeform.Edits
import Registrar.Proofs.Tables

/-!
# Edits of different attributes commute

An edit changes one part of a user: the record of its scalars, or the records of one composite
attribute. Edits of different parts commute, therefore, and so do edits that put values into
different fields of one record. Only the name and its parts do not: their edits change one record,
and the name may have a value for the same field.

```
name~{givenname~Eve}   then   givenName:Ada          Ada
givenName:Ada          then   name~{givenname~Eve}   Eve
```

* `Record.put_comm` — values for different fields of a record.
* `User.edit_comm` — edits of different attributes that do not overlap.
-/

set_option autoImplicit false

namespace Registrar

/-! ## Values for different fields -/

namespace Record

variable {shape : Shape}

theorem put_comm (r : Record shape) {f g : shape.Member} (v : f.val.kind.Value)
    (w : g.val.kind.Value) (h : f.val.name ≠ g.val.name) :
    (r.put f v).put g w = (r.put g w).put f v := by
  refine ext (fun name => ?_) fun name => ?_
  · rw [get?_put, get?_put, get?_put, get?_put]
    by_cases hf : name = f.val.name
    · have hg : name ≠ g.val.name := fun hg => h (hf.symm.trans hg)
      rw [if_neg hg, if_pos hf, if_pos hf]
    · rw [if_neg hf, if_neg hf]
  · rw [isForced_put, isForced_put, isForced_put, isForced_put, Bool.or_left_comm]

theorem set_put_comm (r : Record shape) {f g : shape.Member} (v : f.val.kind.Value)
    (w : g.val.kind.Value) (h : f.val.name ≠ g.val.name) :
    (r.set f v).put g w = (r.put g w).set f v := by
  refine ext (fun name => ?_) fun name => ?_
  · rw [get?_put, get?_set, get?_set, get?_put]
    by_cases hf : name = f.val.name
    · have hg : name ≠ g.val.name := fun hg => h (hf.symm.trans hg)
      rw [if_neg hg, if_pos hf, if_pos hf]
    · rw [if_neg hf, if_neg hf]
  · rw [isForced_put, isForced_set, isForced_set, isForced_put]

theorem set_set_put_comm (r : Record shape) {f f' g : shape.Member} (v : f.val.kind.Value)
    (v' : f'.val.kind.Value) (w : g.val.kind.Value) (h : f.val.name ≠ g.val.name)
    (h' : f'.val.name ≠ g.val.name) :
    ((r.set f v).set f' v').put g w = ((r.put g w).set f v).set f' v' := by
  rw [set_put_comm _ _ _ h', set_put_comm _ _ _ h]

end Record

/-! ## Attributes that are apart -/

/-- The attributes that are parts of the name. -/
def User.partsOfName : List String := ["familyName", "givenName"]

/-- **Whether two attributes overlap**: one of them is the name, and the other a part of it. -/
def User.Overlap (a b : String) : Prop :=
  (a = "name" ∧ b ∈ partsOfName) ∨ (b = "name" ∧ a ∈ partsOfName)

theorem Slot.inName_iff (s : Slot) : s.inName = true ↔ s.field.name ∈ User.partsOfName := by
  cases s <;> decide

namespace Edit

/-- The attribute that an edit is about. -/
def column : Edit → String
  | .password _ => Slot.password.field.name
  | .put s _ => s.field.name
  | .add c _ => c.field

/-- Whether an edit changes the records of a composite attribute. -/
def touches (c : Composite) : Edit → Bool
  | .password _ => false
  | .put s _ => s.inName && c == .name
  | .add c' _ => c == c'

/-- Whether an edit changes the record of scalars. -/
def touchesScalars : Edit → Bool
  | .password _ => true
  | .put s _ => !s.inName
  | .add _ _ => false

end Edit

namespace User

variable (hasher : Hasher)

/-! ## The parts of a user that an edit changes -/

theorem put_of_inName {s : Slot} (h : s.inName = true) (u : User) (v : s.field.kind.Value) :
    u.put s v = u.setName (u.name.put (s.nameMember h) v) := by
  rw [put, dif_pos h]

theorem put_of_not_inName {s : Slot} (h : s.inName = false) (u : User) (v : s.field.kind.Value) :
    u.put s v = { u with scalars := u.scalars.put (s.userMember h) v } := by
  rw [put, dif_neg (Bool.eq_false_iff.mp h)]

theorem records_setName (u : User) (r : Record Composite.name.shape) :
    (u.setName r).records .name = [r] := u.records_setRecords .name _ _

theorem scalars_put {s : Slot} (h : s.inName = true) (u : User) (v : s.field.kind.Value) :
    (u.put s v).scalars = u.scalars := by
  rw [put_of_inName h, scalars_setName]

theorem records_put {s : Slot} (h : s.inName = false) (u : User) (v : s.field.kind.Value)
    (c : Composite) : (u.put s v).records c = u.records c := by
  rw [put_of_not_inName h]

theorem scalars_edit_of_not_touches {e : Edit} (h : e.touchesScalars = false) (u : User) :
    (u.edit hasher e).scalars = u.scalars := by
  cases e with
  | password plain => cases h
  | put s v => exact scalars_put (by simpa [Edit.touchesScalars] using h) u v
  | add c r => rfl

theorem records_edit_of_not_touches {e : Edit} {c : Composite} (h : e.touches c = false)
    (u : User) : (u.edit hasher e).records c = u.records c := by
  cases e with
  | password plain => rfl
  | put s v =>
      show (u.put s v).records c = u.records c
      cases hs : s.inName with
      | false => exact records_put hs u v c
      | true =>
          have hc : c ≠ .name := by simpa [Edit.touches, hs] using h
          rw [put_of_inName hs, setName, records_setRecords_of_ne _ _ _ hc]
  | add c' r =>
      have hc : c ≠ c' := by simpa [Edit.touches] using h
      exact records_add_of_ne u r hc

theorem scalars_edit_congr (e : Edit) {u v : User} (h : u.scalars = v.scalars) :
    (u.edit hasher e).scalars = (v.edit hasher e).scalars := by
  cases e with
  | password plain =>
      show (u.scalars.set _ _).set _ _ = (v.scalars.set _ _).set _ _
      rw [h]
  | put s w =>
      show (u.put s w).scalars = (v.put s w).scalars
      cases hs : s.inName with
      | true => rw [scalars_put hs, scalars_put hs, h]
      | false => rw [put_of_not_inName hs, put_of_not_inName hs, h]
  | add c r => exact h

/-- What an edit makes of the records of an attribute depends on these records. -/
theorem records_edit_congr (e : Edit) {u v : User} {c : Composite}
    (h : u.records c = v.records c) :
    (u.edit hasher e).records c = (v.edit hasher e).records c := by
  by_cases ht : e.touches c = true
  · cases e with
    | password plain => cases ht
    | put s w =>
        obtain ⟨hs, hc⟩ : s.inName = true ∧ c = .name := by
          simpa [Edit.touches] using ht
        subst hc
        show (u.put s w).records .name = (v.put s w).records .name
        rw [put_of_inName hs, put_of_inName hs, records_setName, records_setName, name, name, h]
    | add c' r =>
        obtain rfl : c = c' := by simpa [Edit.touches] using ht
        show (u.add c r).records c = (v.add c r).records c
        rw [records_add, records_add, h]
  · have ht' := Bool.eq_false_iff.mpr ht
    rw [records_edit_of_not_touches hasher ht', records_edit_of_not_touches hasher ht', h]

/-! ## Edits that are apart -/

/-- **What one of two changes leaves alone, they change in either order.** -/
theorem comm_of_left_alone {α : Type} (part : User → α) {f g : User → User}
    (hg : ∀ {u v}, part u = part v → part (g u) = part (g v)) (hf : ∀ u, part (f u) = part u)
    (u : User) : part (g (f u)) = part (f (g u)) := by
  rw [hf (g u)]
  exact hg (hf u)

theorem setPassword_put_comm {t : Slot} (ht : t.inName = false) (h : t ≠ .password)
    (hashName hash : String) (w : t.field.kind.Value) (u : User) :
    ((u.setPassword hashName hash).put t w).scalars
      = ((u.put t w).setPassword hashName hash).scalars := by
  have hpassword : passwordField.val.name ≠ (t.userMember ht).val.name := by
    intro he
    exact h (name_inj (t := .password) he.symm)
  have hhash : hashField.val.name ≠ (t.userMember ht).val.name := by
    intro he
    have hnone := Slot.ofName?_name t
    rw [show t.field.name = hashField.val.name from he.symm] at hnone
    cases hnone
  rw [put_of_not_inName ht, put_of_not_inName ht]
  exact u.scalars.set_set_put_comm _ _ w hpassword hhash

/-- **Edits of different scalars commute.** -/
theorem scalars_edit_comm {e f : Edit} (h : e.column ≠ f.column) (u : User) :
    ((u.edit hasher e).edit hasher f).scalars = ((u.edit hasher f).edit hasher e).scalars := by
  -- an edit that leaves the scalars alone commutes with every other
  by_cases he : e.touchesScalars = true
  · by_cases hf : f.touchesScalars = true
    · cases e with
      | add c r => cases he
      | password plain =>
          cases f with
          | add c r => cases hf
          | password plain' => exact absurd rfl h
          | put t w =>
              have ht : t.inName = false := by simpa [Edit.touchesScalars] using hf
              have hne : t ≠ .password := fun hp => h (congrArg (·.field.name) hp.symm)
              exact setPassword_put_comm ht hne _ _ w u
      | put s v =>
          have hs : s.inName = false := by simpa [Edit.touchesScalars] using he
          cases f with
          | add c r => cases hf
          | password plain =>
              have hne : s ≠ .password := fun hp => h (congrArg (·.field.name) hp)
              exact (setPassword_put_comm hs hne _ _ v u).symm
          | put t w =>
              have ht : t.inName = false := by simpa [Edit.touchesScalars] using hf
              -- two values in the record of the user itself: they have different names
              have hne : (s.userMember hs).val.name ≠ (t.userMember ht).val.name := h
              show ((u.put s v).put t w).scalars = ((u.put t w).put s v).scalars
              rw [put_of_not_inName hs, put_of_not_inName ht, put_of_not_inName hs,
                put_of_not_inName ht]
              exact u.scalars.put_comm v w hne
    · have hf' := Bool.eq_false_iff.mpr hf
      exact (comm_of_left_alone scalars (scalars_edit_congr hasher e)
        (scalars_edit_of_not_touches hasher hf') u).symm
  · have he' := Bool.eq_false_iff.mpr he
    exact comm_of_left_alone scalars (scalars_edit_congr hasher f)
      (scalars_edit_of_not_touches hasher he') u

theorem eq_put_of_touches {e : Edit} {c : Composite} (h : e.touches c = true) :
    e.column = c.field ∨ ∃ s v, e = .put s v ∧ s.inName = true ∧ c = .name := by
  cases e with
  | password plain => cases h
  | put s v =>
      obtain ⟨hs, hc⟩ : s.inName = true ∧ c = .name := by simpa [Edit.touches] using h
      exact Or.inr ⟨s, v, rfl, hs, hc⟩
  | add c' r =>
      obtain rfl : c = c' := by simpa [Edit.touches] using h
      exact Or.inl rfl

/-- **Edits of attributes that are apart change the records of an attribute in either order.** -/
theorem records_edit_comm {e f : Edit} (h : e.column ≠ f.column)
    (ho : ¬Overlap e.column f.column) (c : Composite) (u : User) :
    ((u.edit hasher e).edit hasher f).records c
      = ((u.edit hasher f).edit hasher e).records c := by
  by_cases he : e.touches c = true
  · by_cases hf : f.touches c = true
    · -- one adds a record, or both put values into fields of the name
      rcases eq_put_of_touches he with hec | ⟨s, v, rfl, hs, rfl⟩
      · rcases eq_put_of_touches hf with hfc | ⟨t, w, rfl, ht, rfl⟩
        · exact absurd (hec.trans hfc.symm) h
        · exact absurd (Or.inl ⟨hec, t.inName_iff.mp ht⟩) ho
      · rcases eq_put_of_touches hf with hfc | ⟨t, w, rfl, ht, -⟩
        · exact absurd (Or.inr ⟨hfc, s.inName_iff.mp hs⟩) ho
        · have hne : (s.nameMember hs).val.name ≠ (t.nameMember ht).val.name := h
          show ((u.put s v).put t w).records .name = ((u.put t w).put s v).records .name
          rw [put_of_inName hs, put_of_inName ht, put_of_inName hs, put_of_inName ht,
            name_setName, name_setName, records_setName, records_setName]
          exact congrArg (fun r => [r]) (u.name.put_comm v w hne)
    · have hf' := Bool.eq_false_iff.mpr hf
      exact (comm_of_left_alone (·.records c) (records_edit_congr hasher e)
        (records_edit_of_not_touches hasher hf') u).symm
  · have he' := Bool.eq_false_iff.mpr he
    exact comm_of_left_alone (·.records c) (records_edit_congr hasher f)
      (records_edit_of_not_touches hasher he') u

/-- **Edits of attributes that are apart commute.** -/
theorem edit_comm {e f : Edit} (h : e.column ≠ f.column) (ho : ¬Overlap e.column f.column)
    (u : User) :
    (u.edit hasher e).edit hasher f = (u.edit hasher f).edit hasher e :=
  ext (scalars_edit_comm hasher h u) fun c => records_edit_comm hasher h ho c u

end User

/-! ## The attributes that edits are about -/

theorem Edit.column_of_edit {s : Slot} {value : String} {e : Edit} (h : s.edit value = .ok e) :
    e.column = s.field.name := by
  rcases Slot.eq_of_edit h with ⟨rfl, rfl⟩ | ⟨-, -, v, -, rfl⟩
  · rfl
  · rfl

theorem Edit.column_of_mem_edits {c : Composite} {body : List Char} {es : List Edit}
    (h : c.edits body = .ok es) {e : Edit} (he : e ∈ es) : e.column = c.field := by
  unfold Composite.edits at h
  split at h
  · cases h
  · obtain ⟨rs, -, rfl⟩ := map_eq_ok_iff.mp h
    obtain ⟨r, -, rfl⟩ := List.mem_map.mp he
    rfl

end Registrar
