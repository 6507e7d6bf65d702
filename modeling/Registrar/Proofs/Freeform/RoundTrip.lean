import Registrar.Proofs.Freeform.Decoded

/-!
# Round trips of attribute strings

Writing a user and decoding the text gives the user back, with three provisos. The password is
never written. A name is forced to be sent after decoding exactly if its value counts as unset,
so marks that earlier input left behind are lost. And the text of a user that was not decoded but
built by other means need not be one that the decoder takes.

* `User.decode_encode` — a well-formed user is decoded from its text.
* `User.decode_encode_of_decode` — a decoded user, and when its forced names come back.
* `User.exists_decode_encode_iff` — whose text the decoder takes.
* `User.encode_run_eq_error_iff` — which decoded users cannot be written.
-/

set_option autoImplicit false

namespace Registrar

namespace User

variable {u : User} {t : String}

/-! ## Forced names -/

/-- **Whether exactly the unset values of a user are forced to be sent**: of the scalars, the
truth values that are false and the texts that an empty value clears; in records of composite
attributes, the truth values that are false. -/
structure ForcesUnset (u : User) : Prop where
  scalars : ∀ name, u.forced.contains name = true ↔ ∃ s : Slot, s.field.name = name ∧
    ((s.field.kind = .boolean ∧ u.get? s = some (.flag false)) ∨
      (s.field.clearable = true ∧ u.get? s = some (.text "")))
  records : ∀ c, ∀ r ∈ u.records c, ∀ name, r.isForced name = true ↔
    ∃ f : c.shape.Member, f.val.name = name ∧ f.val.kind = .boolean ∧
      r.get? name = some (.flag false)

/-- What the marked record of a user forces. -/
theorem isForced_marked_iff (h : u.HasNoPassword) (name : String) :
    u.scalars.marked.isForced name = true ↔ ∃ s : Slot, s.field.name = name ∧
      ((s.field.kind = .boolean ∧ u.get? s = some (.flag false)) ∨
        (s.field.clearable = true ∧ u.get? s = some (.text ""))) := by
  rw [Record.isForced_marked]
  -- values in the name are not among the scalars of the user itself
  have hget : ∀ s : Slot, s.inName = false → u.get? s = u.scalars.get? s.field.name := by
    intro s hs
    rw [get?, hs, if_neg Bool.false_ne_true]
  have hzero : ∀ s : Slot, s.inName = false → ∀ v, Shape.ofUser.isZero s.field.name v = true ↔
      v = .flag false ∨ (s.field.clearable = true ∧ v = .text "") := by
    intro s hs v
    have hfield : Shape.ofUser.isZero s.field.name v = s.field.isZero v :=
      Shape.isZero_member (s.userMember hs) v
    rw [hfield, Field.isZero_eq_true_iff]
  constructor
  · rintro ⟨v, hv, hz⟩
    obtain ⟨s, rfl, hn, -, hadm⟩ :=
      Shape.exists_slot_of_admits (Record.admits_of_get? hv) (h name v hv)
    rcases (hzero s hn v).mp hz with rfl | ⟨hc, rfl⟩
    · exact ⟨s, rfl, Or.inl ⟨FieldKind.eq_boolean_of_admits hadm, by rw [hget s hn, hv]⟩⟩
    · exact ⟨s, rfl, Or.inr ⟨hc, by rw [hget s hn, hv]⟩⟩
  · rintro ⟨s, rfl, ⟨hk, hv⟩ | ⟨hc, hv⟩⟩
    · have hn := Slot.inName_eq_false (Or.inl hk)
      exact ⟨_, (hget s hn).symm.trans hv, (hzero s hn _).mpr (Or.inl rfl)⟩
    · have hn := Slot.inName_eq_false (Or.inr hc)
      exact ⟨_, (hget s hn).symm.trans hv, (hzero s hn _).mpr (Or.inr ⟨hc, rfl⟩)⟩

/-- **Marking forces exactly the unset values.** -/
theorem forcesUnset_marked (h : u.HasNoPassword) : u.marked.ForcesUnset where
  scalars name := by
    simp only [get?_marked]
    exact isForced_marked_iff h name
  records c r hr name := by
    obtain ⟨r, -, rfl⟩ := List.mem_map.mp hr
    rw [Record.isForced_marked]
    constructor
    · rintro ⟨v, hv, hz⟩
      obtain ⟨f, rfl, hadm⟩ := Shape.exists_member_of_admits (Record.admits_of_get? hv)
      rw [Shape.isZero_member, Composite.isZero_iff] at hz
      subst hz
      exact ⟨f, rfl, FieldKind.eq_boolean_of_admits hadm, hv⟩
    · rintro ⟨f, rfl, -, hv⟩
      refine ⟨_, hv, ?_⟩
      rw [Shape.isZero_member, Composite.isZero_iff]

/-- Whether nothing but unset values is forced to be sent. -/
def ForcesOnlyZeros (u : User) : Prop :=
  u.scalars.ForcesOnlyZeros ∧ ∀ c, ∀ r ∈ u.records c, r.ForcesOnlyZeros

/-- **Marking changes a decoded user exactly if a mark is left behind** on a value that does not
count as unset. -/
theorem IsDecoded.marked_eq_iff (h : u.IsDecoded) : u.marked = u ↔ u.ForcesOnlyZeros := by
  have hrecords : ∀ c, (u.records c).map Record.marked = u.records c ↔
      ∀ r ∈ u.records c, r.ForcesOnlyZeros := by
    intro c
    have hmap : (u.records c).map Record.marked = (u.records c).map id ↔
        ∀ r ∈ u.records c, r.marked = r := List.map_inj_left
    rw [List.map_id] at hmap
    exact hmap.trans (forall₂_congr fun r hr => Record.marked_eq_iff (h.parts c r hr).forces)
  unfold ForcesOnlyZeros
  rw [← Record.marked_eq_iff h.own.forces]
  constructor
  · intro e
    have hscalars : u.marked.scalars = u.scalars := congrArg scalars e
    exact ⟨hscalars, fun c => (hrecords c).mp (congrFun (congrArg records e) c)⟩
  · rintro ⟨hs, hr⟩
    exact ext hs fun c => (hrecords c).mpr (hr c)

/-! ## What is written again -/

theorem encode_marked (u : User) : u.marked.encode = u.encode :=
  encode_mapRecords (f := fun _ => Record.marked) (fun _ _ => rfl) u

theorem encode_withoutPassword (u : User) : u.withoutPassword.encode = u.encode := by
  unfold encode
  rw [writtenScalars_withoutPassword]
  rfl

theorem hasNoPassword_withoutPassword (u : User) : u.withoutPassword.HasNoPassword := by
  intro name v hv
  rw [withoutPassword, Record.get?_restrict] at hv
  split at hv
  · rename_i hs
    simpa using hs
  · cases hv

/-! ## Round trips -/

/-- **A well-formed user is decoded from its text**: what comes back has the JSON of the user
without the password, forces exactly the unset values, and is written as the same text. -/
theorem decode_encode (hu : u.WellFormed) (h : u.encode = .ok t) (hne : t ≠ "") (hasher : Hasher) :
    ∃ v, empty.decode hasher t = .ok v ∧ v.toJson = u.withoutPassword.toJson ∧ v.ForcesUnset ∧
      v.encode = .ok t := by
  refine ⟨u.withoutPassword.marked, decode_eq_marked h hne hu hasher, toJson_marked _,
    forcesUnset_marked u.hasNoPassword_withoutPassword, ?_⟩
  rw [encode_marked, encode_withoutPassword, h]

/-- A value with a colon, a truth value that is false and an occurrence come back. -/
theorem decode_encode_sales :
    (run [(.sha512, "suspended:false:orgunitpath~\x7b/Sales:EMEA\x7d:phone~value~+44")]).encode
        = .ok "orgUnitPath~\x7b/Sales:EMEA\x7d:suspended:false:phone~\x7bvalue~+44\x7d" ∧
      ∃ v, empty.decode .sha512
          "orgUnitPath~\x7b/Sales:EMEA\x7d:suspended:false:phone~\x7bvalue~+44\x7d" = .ok v ∧
        v.ForcesUnset := by
  have h : (run [(.sha512,
      "suspended:false:orgunitpath~\x7b/Sales:EMEA\x7d:phone~value~+44")]).encode
      = .ok "orgUnitPath~\x7b/Sales:EMEA\x7d:suspended:false:phone~\x7bvalue~+44\x7d" :=
    toOption_eq_some_iff.mp (by decide +kernel)
  obtain ⟨v, hv, -, hforces, -⟩ :=
    decode_encode (isDecoded_run _).wellFormed h (by decide) .sha512
  exact ⟨h, v, hv, hforces⟩

/-- **A decoded user comes back from its text** in all values. Its forced names come back, too,
exactly if no mark has been left behind by a value that was given and then replaced. -/
theorem decode_encode_of_decode {hasher : Hasher} {input : String}
    (hu : empty.decode hasher input = .ok u) (hp : Group.NoPassword input)
    (h : u.encode = .ok t) (hasher' : Hasher) :
    ∃ v, empty.decode hasher' t = .ok v ∧ v.unforced = u.unforced ∧
      (v = u ↔ u.ForcesOnlyZeros) := by
  have hdecoded := isDecoded_decode isDecoded_empty hu
  have hpass : u.HasNoPassword := hasNoPassword_empty.decode hu hp
  have hne := text_ne_empty h (written_ne_nil_of_decode hu hp)
  have hback := decode_eq_marked h hne hdecoded.wellFormed hasher'
  rw [hpass.withoutPassword_eq] at hback
  -- marking keeps every value, and is all that the round trip does
  refine ⟨u.marked, hback, ?_, hdecoded.marked_eq_iff⟩
  refine ext rfl fun c => ?_
  show ((u.records c).map Record.marked).map Record.unforced = (u.records c).map Record.unforced
  rw [List.map_map]
  rfl

/-- A truth value that was false before it was true comes back, but without its mark. -/
theorem decode_encode_of_decode_suspended :
    ∃ u v, empty.decode .sha512 "suspended:false:suspended:true" = .ok u ∧
      u.encode = .ok "suspended:true" ∧ empty.decode .sha512 "suspended:true" = .ok v ∧
        v.unforced = u.unforced ∧ (v = u ↔ u.ForcesOnlyZeros) := by
  have hu : empty.decode .sha512 "suspended:false:suspended:true"
      = .ok ((empty.put .suspended ⟨.flag false, rfl⟩).put .suspended ⟨.flag true, rfl⟩) :=
    toOption_eq_some_iff.mp (by decide +kernel)
  have hp : Group.NoPassword "suspended:false:suspended:true" := by decide +kernel
  have h : ((empty.put .suspended ⟨.flag false, rfl⟩).put .suspended ⟨.flag true, rfl⟩).encode
      = .ok "suspended:true" := toOption_eq_some_iff.mp (by decide +kernel)
  obtain ⟨v, hv, hvalues, hmarks⟩ := decode_encode_of_decode hu hp h .sha512
  exact ⟨_, v, hu, h, hv, hvalues, hmarks⟩

/-- A decoded user that does not come back from its text. -/
theorem exists_decode_encode_ne :
    Group.NoPassword "suspended:false:suspended:true" ∧
      ∃ u v, empty.decode .sha512 "suspended:false:suspended:true" = .ok u ∧
        u.encode = .ok "suspended:true" ∧
        empty.decode .sha512 "suspended:true" = .ok v ∧ v ≠ u := by
  refine ⟨by decide +kernel,
    (empty.put .suspended ⟨.flag false, rfl⟩).put .suspended ⟨.flag true, rfl⟩,
    empty.put .suspended ⟨.flag true, rfl⟩, ?_, ?_, ?_, ?_⟩
  · exact toOption_eq_some_iff.mp (by decide +kernel)
  · exact toOption_eq_some_iff.mp (by decide +kernel)
  · exact toOption_eq_some_iff.mp (by decide +kernel)
  · decide +kernel

/-! ## Texts that decoding takes -/

/-- **Whether the values of a user can be read back**: a recovery phone number is empty or starts
with a plus, and a value of a domain is spelled like one of the domain, up to case. -/
structure Readable (u : User) : Prop where
  phone : ∀ number, u.get? .recoveryPhone = some (.text number) → isPhone number = true
  known : ∀ c, ∀ r ∈ u.records c, ∀ (f : c.shape.Member) (d : Domain), f.val.kind = .enum d →
    ∀ text, r.get? f.val.name = some (.text text) → (d.get? text).isSome = true

theorem WellFormed.readable (h : u.WellFormed) : u.Readable where
  phone := h.phone
  known c r hr f d hd text hget := by
    have hlisted : d ∈ Domain.all := FieldKind.mem_all_of_isListed (hd ▸ c.isListed_kind f)
    rw [Domain.get?_of_mem hlisted (h.canonical c r hr f d hd text hget)]
    rfl

/-- **The text of a user is taken exactly if its values are readable.** -/
theorem exists_decode_encode_iff (h : u.encode = .ok t) (hne : t ≠ "") (hasher : Hasher) :
    (∃ v, empty.decode hasher t = .ok v) ↔ u.Readable := by
  obtain ⟨hw, -⟩ := u.encode_eq_ok_iff.mp h
  rw [decode_encode_eq h hne, exists_decodeGroups_iff, exists_edits_written_iff hw, ← phoneOk_iff]
  simp only [Record.isKnown_iff]
  constructor
  · rintro ⟨hp, hk⟩
    exact ⟨hp, hk⟩
  · intro hr
    exact ⟨hr.phone, hr.known⟩

/-- A phone number with a plus is taken. -/
theorem exists_decode_encode_iff_plus :
    (run [(.sha512, "recoveryphone:+44")]).encode = .ok "recoveryPhone:+44" ∧
      ∃ v, empty.decode .sha512 "recoveryPhone:+44" = .ok v := by
  have h : (run [(.sha512, "recoveryphone:+44")]).encode = .ok "recoveryPhone:+44" :=
    toOption_eq_some_iff.mp (by decide +kernel)
  have hreadable := (isDecoded_run [(.sha512, "recoveryphone:+44")]).wellFormed.readable
  exact ⟨h, (exists_decode_encode_iff h (by decide) .sha512).mpr hreadable⟩

/-- A phone number without a plus, which JSON can give, is written but not taken. -/
theorem exists_encode_not_decode :
    ∃ u, User.ofJson (.obj [("recoveryPhone", .str "441")]) = .ok u ∧
      u.encode = .ok "recoveryPhone:441" ∧
        ¬∃ v, empty.decode .sha512 "recoveryPhone:441" = .ok v := by
  refine ⟨empty.put .recoveryPhone ⟨.text "441", rfl⟩, ?_, ?_, ?_⟩
  · exact toOption_eq_some_iff.mp (by decide +kernel)
  · exact toOption_eq_some_iff.mp (by decide +kernel)
  · rintro ⟨v, hv⟩
    have hnone : (empty.decode .sha512 "recoveryPhone:441").toOption = none := by decide +kernel
    rw [toOption_eq_some_iff.mpr hv] at hnone
    cases hnone

/-! ## Users that cannot be written -/

/-- **A decoded user cannot be written exactly if its family name or given name holds a reserved
character.** No other value keeps a user that is reached by decoding from being written. -/
theorem encode_run_eq_error_iff (calls : List (Hasher × String)) :
    (∃ e, (run calls).encode = .error e) ↔
      ∃ s ∈ [Slot.familyName, Slot.givenName], ∃ text, (run calls).get? s = some (.text text) ∧
        ('~' ∈ text.toList ∨ '\x7b' ∈ text.toList ∨ '\x7d' ∈ text.toList) := by
  have hparts : ∀ s : Slot, s ∈ [Slot.familyName, Slot.givenName] ↔ s.inName = true := by
    intro s
    cases s <;> decide
  rw [encode_eq_error_iff, (isDecoded_run calls).writable_iff]
  simp only [hparts, Text.isPlain_iff]
  constructor
  · -- if no such value is found, each of the two is plain
    intro h
    by_contra hnot
    refine h fun s hs text hget => ?_
    refine ⟨fun hm => ?_, fun hm => ?_, fun hm => ?_⟩
    · exact hnot ⟨s, hs, text, hget, Or.inl hm⟩
    · exact hnot ⟨s, hs, text, hget, Or.inr (Or.inl hm)⟩
    · exact hnot ⟨s, hs, text, hget, Or.inr (Or.inr hm)⟩
  · rintro ⟨s, hs, text, hget, hm⟩ h
    obtain ⟨h₁, h₂, h₃⟩ := h s hs text hget
    rcases hm with hm | hm | hm
    · exact h₁ hm
    · exact h₂ hm
    · exact h₃ hm

end User

end Registrar
