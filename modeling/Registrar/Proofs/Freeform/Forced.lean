import Registrar.Proofs.Freeform.Decoded

/-!
# Forced names and values

A name is forced to be sent because its value counted as unset when it was given. A later value
may count as set, but the name stays forced. So after any attribute strings every value that
counts as unset is forced, and what is forced has a value: the mark and the value are never given
one without the other.

* `Record.ForcesOnlySet` — what is forced has a value that may count as unset, and how filling and
  merging keep it.
* `User.isForced_edit` — an edit forgets no forced name.
* `User.forcesWithValues_run` — values and forced names of every user that is reached.
-/

set_option autoImplicit false

namespace Registrar

/-! ## Fields that may count as unset -/

/-- Whether some value of a field counts as unset. -/
def Field.HasZero (f : Field) : Prop := f.kind = .boolean ∨ f.clearable = true

theorem Field.hasZero_of_isZero {f : Field} {v : Scalar} (hv : f.kind.admits v = true)
    (hz : f.isZero v = true) : f.HasZero := by
  rcases Field.isZero_eq_true_iff.mp hz with rfl | ⟨hc, -⟩
  · exact Or.inl (FieldKind.eq_boolean_of_admits hv)
  · exact Or.inr hc

namespace Record

variable {shape : Shape}

/-- Whether each forced name is the name of a field that has a value and may count as unset. -/
def ForcesOnlySet (r : Record shape) : Prop :=
  ∀ name, r.isForced name = true →
    ∃ f : shape.Member, f.val.name = name ∧ f.val.HasZero ∧ (r.get? name).isSome = true

theorem forcesOnlySet_empty : (empty : Record shape).ForcesOnlySet := by
  intro name h
  cases h

theorem ForcesOnlySet.set {r : Record shape} (h : r.ForcesOnlySet) (f : shape.Member)
    (v : f.val.kind.Value) : (r.set f v).ForcesOnlySet := by
  intro name hforced
  obtain ⟨g, hg, hz, hset⟩ := h name hforced
  refine ⟨g, hg, hz, ?_⟩
  rw [get?_set]
  split
  · rfl
  · exact hset

theorem ForcesOnlySet.put {r : Record shape} (h : r.ForcesOnlySet) (f : shape.Member)
    (v : f.val.kind.Value) : (r.put f v).ForcesOnlySet := by
  unfold Record.put
  split
  · rename_i hz
    intro name hforced
    rw [isForced_force, Bool.or_eq_true, decide_eq_true_eq] at hforced
    rcases hforced with rfl | hforced
    · refine ⟨f, rfl, Field.hasZero_of_isZero v.property hz, ?_⟩
      rw [get?_force, get?_set, if_pos rfl]
      rfl
    · exact h.set f v name hforced
  · exact h.set f v

theorem isForced_put_of_isForced {r : Record shape} {name : String} (h : r.isForced name = true)
    (f : shape.Member) (v : f.val.kind.Value) : (r.put f v).isForced name = true := by
  rw [isForced_put, h, Bool.or_true]

theorem forcesOnlySet_putAll {r : Record shape} (h : r.ForcesOnlySet)
    (as : List (Assignment shape)) : (r.putAll as).ForcesOnlySet := by
  induction as generalizing r with
  | nil => exact h
  | cons a as ih => exact ih (h.put a.1 a.2)

theorem forcesOnlySet_merge {r other : Record shape} (h : r.ForcesOnlySet)
    (ho : other.ForcesOnlySet) : (r.merge other).ForcesOnlySet := by
  intro name hforced
  rw [isForced_merge, Bool.or_eq_true] at hforced
  rw [get?_merge, Option.isSome_or, Bool.or_eq_true]
  rcases hforced with hforced | hforced
  · obtain ⟨f, hf, hz, hset⟩ := ho name hforced
    exact ⟨f, hf, hz, Or.inl hset⟩
  · obtain ⟨f, hf, hz, hset⟩ := h name hforced
    exact ⟨f, hf, hz, Or.inr hset⟩

end Record

namespace User

variable {u : User}

/-! ## What is forced has a value -/

/-- **Whether what is forced has a value**, in the record of the user and in those of its
composite attributes. -/
structure ForcesOnlySet (u : User) : Prop where
  own : u.scalars.ForcesOnlySet
  parts : ∀ c, ∀ r ∈ u.records c, r.ForcesOnlySet

theorem forcesOnlySet_empty : ForcesOnlySet empty where
  own := Record.forcesOnlySet_empty
  parts c r hr := by
    obtain ⟨-, rfl⟩ := Cardinality.eq_of_mem_initial hr
    exact Record.forcesOnlySet_empty

theorem ForcesOnlySet.put (h : u.ForcesOnlySet) (s : Slot) (v : s.field.kind.Value) :
    (u.put s v).ForcesOnlySet := by
  unfold User.put
  split
  · rename_i hn
    refine ⟨h.own, fun c r hr => ?_⟩
    by_cases e : c = .name
    · subst e
      rw [User.setName, records_setRecords] at hr
      have hname := h.parts .name u.name u.name_mem_records
      exact List.mem_singleton.mp hr ▸ hname.put (s.nameMember hn) v
    · rw [User.setName, u.records_setRecords_of_ne _ _ e] at hr
      exact h.parts c r hr
  · rename_i hn
    exact ⟨h.own.put (s.userMember (Bool.eq_false_iff.mpr hn)) v, h.parts⟩

theorem ForcesOnlySet.add (h : u.ForcesOnlySet) {c : Composite} {r : Record c.shape}
    (hr : r.ForcesOnlySet) : (u.add c r).ForcesOnlySet := by
  refine ⟨h.own, fun d x hx => ?_⟩
  by_cases e : d = c
  · subst e
    rw [records_add] at hx
    exact Cardinality.forall_store (fun _ _ => Record.forcesOnlySet_merge) (h.parts d) hr x hx
  · rw [u.records_add_of_ne r e] at hx
    exact h.parts d x hx

/-- **Each edit that attribute strings make keeps it.** -/
theorem ForcesOnlySet.edit (h : u.ForcesOnlySet) {e : Edit} (he : e.IsMade) (hasher : Hasher) :
    (u.edit hasher e).ForcesOnlySet := by
  cases he with
  | password plain => exact ⟨(h.own.set _ _).set _ _, h.parts⟩
  | put _ _ _ => exact h.put _ _
  | add _ _ => exact h.add (Record.forcesOnlySet_putAll Record.forcesOnlySet_empty _)

theorem ForcesOnlySet.attempt (h : u.ForcesOnlySet) (call : Hasher × String) :
    (u.attempt call).ForcesOnlySet := by
  unfold User.attempt
  split
  · rename_i v hv
    obtain ⟨es, hes, rfl⟩ := (u.decode_eq_ok_iff call.1).mp hv
    exact editAll_induction (P := ForcesOnlySet)
      (fun w e he hw => hw.edit ((Edit.parse_spec hes).2 e he).1 call.1) h
  · exact h

theorem forcesOnlySet_run (calls : List (Hasher × String)) : (run calls).ForcesOnlySet := by
  refine List.foldlRecOn calls attempt forcesOnlySet_empty ?_
  intro u h call _
  exact h.attempt call

/-! ## No forced name is forgotten -/

/-- **An edit forgets no forced name.** -/
theorem isForced_edit {name : String} (h : u.forced.contains name = true) (hasher : Hasher)
    (e : Edit) : (u.edit hasher e).forced.contains name = true := by
  cases e with
  | password plain => exact h
  | put s v =>
      show (u.put s v).scalars.isForced name = true
      unfold User.put
      split
      · exact h
      · rename_i hn
        exact Record.isForced_put_of_isForced h (s.userMember (Bool.eq_false_iff.mpr hn)) v
  | add c r => exact h

theorem isForced_decode {name : String} (h : u.forced.contains name = true) {hasher : Hasher}
    {input : String} {v : User} (hv : u.decode hasher input = .ok v) :
    v.forced.contains name = true := by
  obtain ⟨es, -, rfl⟩ := (u.decode_eq_ok_iff hasher).mp hv
  exact editAll_induction (P := fun w => w.forced.contains name = true)
    (fun w e _ hw => isForced_edit hw hasher e) h

/-! ## Values and forced names of a user that is reached -/

/-- **Whether the forced names of a user go with its values.** Every value that counts as unset is
forced: a truth value that is false, in the record of the user or in an occurrence, and an empty
text that clears its attribute. What is forced has a value and may count as unset. Nothing is
forced in the name. -/
structure ForcesWithValues (u : User) : Prop where
  forced_of_false : ∀ s : Slot, s.field.kind = .boolean → u.get? s = some (.flag false) →
    u.forced.contains s.field.name = true
  forced_of_cleared : ∀ s : Slot, s.field.clearable = true → u.get? s = some (.text "") →
    u.forced.contains s.field.name = true
  forced_of_part : ∀ c, ∀ r ∈ u.records c, ∀ f : c.shape.Member, f.val.kind = .boolean →
    r.get? f.val.name = some (.flag false) → r.isForced f.val.name = true
  value_of_forced : ∀ name, u.forced.contains name = true → ∃ s : Slot, s.field.name = name ∧
    (s.field.kind = .boolean ∨ s.field.clearable = true) ∧ (u.get? s).isSome = true
  value_of_forced_part : ∀ c, ∀ r ∈ u.records c, ∀ name, r.isForced name = true →
    ∃ f : c.shape.Member, f.val.name = name ∧ f.val.kind = .boolean ∧
      (r.get? name).isSome = true
  name_unforced : u.name.forced = .empty

theorem IsDecoded.isForced_of_isZero (h : u.IsDecoded) {s : Slot} {v : Scalar}
    (hs : s.inName = false) (hv : u.get? s = some v) (hz : s.field.isZero v = true) :
    u.forced.contains s.field.name = true := by
  rw [get?, hs, if_neg Bool.false_ne_true] at hv
  refine h.own.forces s.field.name ⟨v, hv, ?_⟩
  exact (Shape.isZero_member (s.userMember hs) v).trans hz

theorem exists_slot_of_hasZero {f : Shape.ofUser.Member} (h : f.val.HasZero) :
    ∃ s : Slot, s.field = f.val ∧ s.inName = false := by
  have table : ∀ g ∈ Shape.ofUser.fields, g.kind = .boolean ∨ g.clearable = true →
      User.isSecret g.name = false := by decide
  have hm := Shape.mem_of_find? f.property
  obtain ⟨s, -, hs, hn, -⟩ := Shape.exists_slot_of_ofUser f.val hm (table f.val hm h)
  exact ⟨s, hs, hn⟩

theorem kind_ne_boolean_of_name : ∀ f ∈ Composite.name.shape.fields, f.kind ≠ .boolean := by
  decide

theorem kind_of_hasZero {c : Composite} {f : c.shape.Member} (h : f.val.HasZero) :
    f.val.kind = .boolean := by
  rcases h with hk | hc
  · exact hk
  · rw [c.clearable_eq_false f] at hc
    cases hc

theorem forcesWithValues (h : u.IsDecoded) (ho : u.ForcesOnlySet) : u.ForcesWithValues where
  forced_of_false s hk hv :=
    h.isForced_of_isZero (Slot.inName_eq_false (Or.inl hk)) hv
      (Field.isZero_eq_true_iff.mpr (Or.inl rfl))
  forced_of_cleared s hc hv :=
    h.isForced_of_isZero (Slot.inName_eq_false (Or.inr hc)) hv
      (Field.isZero_eq_true_iff.mpr (Or.inr ⟨hc, rfl⟩))
  forced_of_part c r hr f _ hv := by
    refine (h.parts c r hr).forces f.val.name ⟨_, hv, ?_⟩
    rw [Shape.isZero_member, Composite.isZero_iff]
  value_of_forced name hforced := by
    obtain ⟨f, rfl, hz, hset⟩ := ho.own name hforced
    obtain ⟨s, hs, hn⟩ := exists_slot_of_hasZero hz
    refine ⟨s, congrArg Field.name hs, by rw [hs]; exact hz, ?_⟩
    rw [get?, hn, if_neg Bool.false_ne_true, hs]
    exact hset
  value_of_forced_part c r hr name hforced := by
    obtain ⟨f, hf, hz, hset⟩ := ho.parts c r hr name hforced
    exact ⟨f, hf, kind_of_hasZero hz, hset⟩
  name_unforced := by
    refine NameSet.ext fun name => Bool.eq_false_iff.mpr fun hforced => ?_
    obtain ⟨f, -, hz, -⟩ := ho.parts .name u.name u.name_mem_records name hforced
    exact kind_ne_boolean_of_name f.val (Shape.mem_of_find? f.property) (kind_of_hasZero hz)

/-- **No unset value is ever left unforced**, and nothing is forced without a value, whatever
attribute strings are decoded; and one more that is decoded forgets no forced name. -/
theorem forcesWithValues_run (calls : List (Hasher × String)) :
    (run calls).ForcesWithValues ∧
      ∀ hasher input v, (run calls).decode hasher input = .ok v →
        ∀ name, (run calls).forced.contains name = true → v.forced.contains name = true :=
  ⟨forcesWithValues (isDecoded_run calls) (forcesOnlySet_run calls),
    fun _ _ _ hv _ h => isForced_decode h hv⟩

/-- A truth value stays forced when it is true again. -/
theorem forcesWithValues_run_suspended :
    ∃ v, (run [(.sha512, "suspended:false")]).decode .sha512 "suspended:true" = .ok v ∧
      v.get? .suspended = some (.flag true) ∧ v.forced.contains "suspended" = true := by
  have hforced : (run [(.sha512, "suspended:false")]).forced.contains "suspended" = true := by
    decide +kernel
  have hv : (run [(.sha512, "suspended:false")]).decode .sha512 "suspended:true"
      = .ok ((run [(.sha512, "suspended:false")]).put .suspended ⟨.flag true, rfl⟩) :=
    toOption_eq_some_iff.mp (by decide +kernel)
  refine ⟨_, hv, by decide +kernel, ?_⟩
  exact (forcesWithValues_run [(.sha512, "suspended:false")]).2 .sha512 _ _ hv _ hforced

end User

end Registrar
