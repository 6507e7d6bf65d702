import Registrar.Proofs.Freeform.Reread

/-!
# Users that decoding reaches

Starting from the empty user, attribute strings are decoded one after the other; one that is in
error changes nothing (`User.run`). Each edit that an attribute string makes keeps the invariant
`User.IsDecoded`: values have passed the checks of their fields, no scalar closes its braces
early, no value that counts as unset is left unforced, and what stands in an occurrence holds no
reserved character. The last part has one exception. The family name and the given name can also
be given as scalars, where reserved characters are allowed.

* `User.HasDecodedParts` — what is kept of composite attributes, whatever else changes.
* `User.isDecoded_edit`, `User.isDecoded_run` — the invariant.
* `User.IsDecoded.writable_iff` — which decoded users can be written.
* `User.written_ne_nil_of_decode` — what gives no password gives something to write.
-/

set_option autoImplicit false

namespace Registrar

/-! ## Records -/

/-- Whether a field of an occurrence is a scalar attribute, too. -/
def IsNamePart (c : Composite) (name : String) : Prop :=
  c = .name ∧ ∃ s : Slot, s.inName = true ∧ s.field.name = name

namespace Record

/-- What decoding keeps of the record of a user. -/
structure IsDecodedOwn (r : Record .ofUser) : Prop where
  values : r.Holds fun name v =>
    User.PhoneOk name v ∧
      (User.isSecret name = false → User.closesEarly v.asText.toList = false)
  forces : r.ForcesZeros

theorem IsDecodedOwn.set_of_isSecret {r : Record .ofUser} (h : r.IsDecodedOwn)
    {f : Shape.ofUser.Member} {v : f.val.kind.Value} (hs : User.isSecret f.val.name = true)
    (hz : f.val.isZero v.val = false) : (r.set f v).IsDecodedOwn := by
  have hput : r.put f v = r.set f v := by rw [put, hz, if_neg Bool.false_ne_true]
  rw [← hput]
  refine ⟨h.values.put ⟨fun hn => ?_, fun hs' => ?_⟩, h.forces.put f v⟩
  · rw [hn] at hs
    exact absurd hs (by decide)
  · rw [hs] at hs'
    cases hs'

/-- What decoding keeps of the records of a composite attribute. -/
structure IsDecodedPart (c : Composite) (r : Record c.shape) : Prop where
  values : r.Holds fun name v =>
    (∀ f : c.shape.Member, f.val.name = name → f.val.kind.IsCanonical v) ∧
      (IsNamePart c name ∨ Text.isPlain v.asText.toList = true)
  forces : r.ForcesZeros

theorem isDecodedPart_empty (c : Composite) : IsDecodedPart c .empty :=
  ⟨holds_empty, forcesZeros_empty⟩

theorem isDecodedPart_merge {c : Composite} {a b : Record c.shape} (ha : IsDecodedPart c a)
    (hb : IsDecodedPart c b) : IsDecodedPart c (a.merge b) :=
  ⟨holds_merge ha.values hb.values, forcesZeros_merge ha.forces hb.forces⟩

/-- **A record that is read from an occurrence** has the properties that decoding keeps. -/
theorem isDecodedPart_putAll {c : Composite} {as : List (Assignment c.shape)}
    (h : ∀ a ∈ as, Occurrence.IsGiven a) : IsDecodedPart c (empty.putAll as) := by
  refine ⟨holds_putAll holds_empty fun a ha => ⟨fun f hf => ?_, Or.inr ?_⟩,
    forcesZeros_putAll forcesZeros_empty as⟩
  · obtain ⟨text, -, hconv⟩ := h a ha
    rw [Shape.member_ext hf]
    exact FieldKind.isCanonical_of_convert hconv
  · obtain ⟨text, hplain, hconv⟩ := h a ha
    exact FieldKind.isPlain_asText_of_convert (c.isListed_kind a.1) hconv hplain

end Record

namespace Cardinality

variable {s : Shape} {P : Record s → Prop}

theorem eq_of_mem_initial {k : Cardinality} {r : Record s} (h : r ∈ k.initial) :
    k = .merged ∧ r = .empty := by
  cases k with
  | list => cases h
  | single => cases h
  | merged => exact ⟨rfl, List.mem_singleton.mp h⟩

theorem forall_store {k : Cardinality} (hm : ∀ a b : Record s, P a → P b → P (a.merge b))
    {old : List (Record s)} (ho : ∀ r ∈ old, P r) {r : Record s} (hr : P r) :
    ∀ x ∈ k.store old r, P x := by
  intro x hx
  cases k with
  | list =>
      rcases List.mem_append.mp hx with hx | hx
      · exact ho x hx
      · exact List.mem_singleton.mp hx ▸ hr
  | single => exact List.mem_singleton.mp hx ▸ hr
  | merged =>
      obtain ⟨a, ha, rfl⟩ := List.mem_map.mp hx
      exact hm a r (ho a ha) hr

theorem exists_mem_store {k : Cardinality} {old : List (Record s)} (hk : k.allows old.length = true)
    {r : Record s} (hr : r.isEmpty = false) : ∃ x ∈ k.store old r, x.isEmpty = false := by
  cases k with
  | list => exact ⟨r, List.mem_append_right old List.mem_cons_self, hr⟩
  | single => exact ⟨r, List.mem_cons_self, hr⟩
  | merged =>
      obtain ⟨a, rfl⟩ := exists_singleton_of_allows hk
      refine ⟨a.merge r, List.mem_cons_self, ?_⟩
      rw [Record.isEmpty_merge, hr, Bool.and_false]

end Cardinality

namespace User

theorem records_name (u : User) : u.records .name = [u.name] := by
  obtain ⟨r, hr⟩ := Cardinality.exists_singleton_of_allows (u.fits .name)
  rw [name, hr]
  rfl

theorem name_mem_records (u : User) : u.name ∈ u.records .name := by
  rw [records_name]
  exact List.mem_cons_self

theorem holds_scalars_put {P : String → Scalar → Prop} {u : User} (h : u.scalars.Holds P) {s : Slot}
    {v : s.field.kind.Value} (hv : P s.field.name v.val) : (u.put s v).scalars.Holds P := by
  unfold put
  split
  · exact h
  · exact h.put hv

variable {u : User}

/-! ## Composite attributes -/

/-- **What decoding keeps of the composite attributes of a user.** -/
structure HasDecodedParts (u : User) : Prop where
  parts : ∀ c, ∀ r ∈ u.records c, r.IsDecodedPart c
  filled : ∀ c : Composite, c.cardinality ≠ .merged → ∀ r ∈ u.records c, r.isEmpty = false

theorem hasDecodedParts_empty : HasDecodedParts empty where
  parts c r hr := by
    obtain ⟨-, rfl⟩ := Cardinality.eq_of_mem_initial hr
    exact Record.isDecodedPart_empty c
  filled _ hk _ hr := absurd (Cardinality.eq_of_mem_initial hr).1 hk

theorem HasDecodedParts.setName (h : u.HasDecodedParts) {r : Record Composite.name.shape}
    (hr : r.IsDecodedPart .name) : (u.setName r).HasDecodedParts := by
  refine ⟨fun c x hx => ?_, fun c hk x hx => ?_⟩
  · by_cases e : c = .name
    · subst e
      rw [User.setName, records_setRecords] at hx
      exact List.mem_singleton.mp hx ▸ hr
    · rw [User.setName, u.records_setRecords_of_ne _ _ e] at hx
      exact h.parts c x hx
  · have e : c ≠ .name := fun e => hk (e ▸ rfl)
    rw [User.setName, u.records_setRecords_of_ne _ _ e] at hx
    exact h.filled c hk x hx

theorem HasDecodedParts.put (h : u.HasDecodedParts) (s : Slot) (v : s.field.kind.Value) :
    (u.put s v).HasDecodedParts := by
  unfold User.put
  split
  · -- a part of the name may hold reserved characters, in the one record of the name
    rename_i hn
    have hname := h.parts .name u.name u.name_mem_records
    refine h.setName ⟨hname.values.put ⟨fun f hf => ?_, Or.inl ⟨rfl, s, hn, rfl⟩⟩,
      hname.forces.put (s.nameMember hn) v⟩
    have hfs : f = s.nameMember hn := Shape.member_ext hf
    rw [hfs]
    exact s.isCanonical_kind v.val
  · exact ⟨h.parts, h.filled⟩

theorem HasDecodedParts.add (h : u.HasDecodedParts) {c : Composite} {r : Record c.shape}
    (hr : r.IsDecodedPart c) (hne : r.isEmpty = false) : (u.add c r).HasDecodedParts := by
  refine ⟨fun d x hx => ?_, fun d hk x hx => ?_⟩
  · by_cases e : d = c
    · subst e
      rw [records_add] at hx
      exact Cardinality.forall_store (fun _ _ => Record.isDecodedPart_merge) (h.parts d) hr x hx
    · rw [u.records_add_of_ne r e] at hx
      exact h.parts d x hx
  · by_cases e : d = c
    · subst e
      rw [records_add] at hx
      refine Cardinality.forall_store (P := fun x => x.isEmpty = false) (fun a b ha hb => ?_)
        (h.filled d hk) hne x hx
      rw [Record.isEmpty_merge, ha, Bool.false_and]
    · rw [u.records_add_of_ne r e] at hx
      exact h.filled d hk x hx

theorem HasDecodedParts.wellFormed (h : u.HasDecodedParts) (hown : u.scalars.Holds PhoneOk) :
    u.WellFormed where
  phone _ hget := hown _ _ hget rfl
  canonical c r hr :=
    Record.isCanonical_iff.mp fun f v hv => ((h.parts c r hr).values _ v hv).1 f rfl
  filled := h.filled

/-! ## The invariant -/

/-- **What decoding keeps of a user.** -/
structure IsDecoded (u : User) : Prop where
  own : u.scalars.IsDecodedOwn
  parts : ∀ c, ∀ r ∈ u.records c, r.IsDecodedPart c
  filled : ∀ c : Composite, c.cardinality ≠ .merged → ∀ r ∈ u.records c, r.isEmpty = false

theorem IsDecoded.hasDecodedParts (h : u.IsDecoded) : u.HasDecodedParts := ⟨h.parts, h.filled⟩

theorem HasDecodedParts.isDecoded (h : u.HasDecodedParts) (hown : u.scalars.IsDecodedOwn) :
    u.IsDecoded :=
  ⟨hown, h.parts, h.filled⟩

theorem isDecoded_empty : IsDecoded empty :=
  hasDecodedParts_empty.isDecoded ⟨Record.holds_empty, Record.forcesZeros_empty⟩

theorem isDecoded_setPassword (h : u.IsDecoded) (hashName hash : String) :
    (u.setPassword hashName hash).IsDecoded := by
  have hpassword := h.own.set_of_isSecret (f := passwordField)
    (v := Field.textValue "password" hash) (by decide) rfl
  exact ⟨hpassword.set_of_isSecret (f := hashField) (by decide) rfl, h.parts, h.filled⟩

theorem isDecoded_put (h : u.IsDecoded) {s : Slot} {v : s.field.kind.Value}
    (hp : s = .recoveryPhone → isPhone v.val.asText = true)
    (hc : closesEarly v.val.asText.toList = false) : (u.put s v).IsDecoded := by
  refine (h.hasDecodedParts.put s v).isDecoded ⟨holds_scalars_put h.own.values
    ⟨fun hs => hp (name_inj hs), fun _ => hc⟩, ?_⟩
  unfold put
  split
  · exact h.own.forces
  · rename_i hn
    exact h.own.forces.put (s.userMember (Bool.eq_false_iff.mpr hn)) v

theorem isDecoded_add (h : u.IsDecoded) {c : Composite} {r : Record c.shape}
    (hr : r.IsDecodedPart c) (hne : r.isEmpty = false) : (u.add c r).IsDecoded :=
  (h.hasDecodedParts.add hr hne).isDecoded h.own

/-- **Each edit that attribute strings make keeps the invariant.** -/
theorem isDecoded_edit (h : u.IsDecoded) {e : Edit} (he : e.IsMade) (hasher : Hasher) :
    (u.edit hasher e).IsDecoded := by
  cases he with
  | password plain => exact isDecoded_setPassword h _ _
  | put hs hp hc => exact isDecoded_put h hp hc
  | add hne hg =>
      exact isDecoded_add h (Record.isDecodedPart_putAll hg) (Record.isEmpty_putAll hne)

theorem isDecoded_decode (h : u.IsDecoded) {hasher : Hasher} {input : String} {v : User}
    (hv : u.decode hasher input = .ok v) : v.IsDecoded := by
  obtain ⟨es, hes, rfl⟩ := (u.decode_eq_ok_iff hasher).mp hv
  exact editAll_induction (P := IsDecoded)
    (fun w e he hw => isDecoded_edit hw ((Edit.parse_spec hes).2 e he).1 hasher) h

/-- The user after an attribute string, which changes nothing if it is in error. -/
def attempt (u : User) (call : Hasher × String) : User :=
  match u.decode call.1 call.2 with
  | .ok v => v
  | .error _ => u

/-- **The user that attribute strings make of the empty one**, decoded one after the other. -/
def run (calls : List (Hasher × String)) : User := calls.foldl attempt empty

theorem isDecoded_attempt (h : u.IsDecoded) (call : Hasher × String) :
    (u.attempt call).IsDecoded := by
  unfold attempt
  split
  · rename_i v hv
    exact isDecoded_decode h hv
  · exact h

/-- **The invariant holds of every user that is reached.** -/
theorem isDecoded_run (calls : List (Hasher × String)) : (run calls).IsDecoded := by
  refine List.foldlRecOn calls attempt isDecoded_empty ?_
  intro u h call _
  exact isDecoded_attempt h call

/-! ## What the invariant says -/

/-- **A decoded user is well-formed.** -/
theorem IsDecoded.wellFormed (h : u.IsDecoded) : u.WellFormed :=
  h.hasDecodedParts.wellFormed fun name v hv => (h.own.values name v hv).1

/-- **A decoded user can be written exactly if the family name and the given name hold no
reserved character.** -/
theorem IsDecoded.writable_iff (h : u.IsDecoded) :
    u.Writable ↔ ∀ s : Slot, s.inName = true → ∀ text, u.get? s = some (.text text) →
      Text.isPlain text.toList = true := by
  constructor
  · intro hw s hs text hget
    rw [get?, if_pos hs] at hget
    exact hw.records .name u.name u.name_mem_records _ _ hget
  · intro hnames
    refine ⟨fun e he => ?_, fun c r hr name v hv => ?_⟩
    · obtain ⟨hget, hs⟩ := mem_writtenScalars.mp he
      exact (h.own.values _ _ hget).2 hs
    · -- only a part of the name may hold a reserved character, and only as a text
      rcases ((h.parts c r hr).values name v hv).2 with ⟨rfl, s, hs, rfl⟩ | hplain
      · rw [records_name] at hr
        obtain rfl := List.mem_singleton.mp hr
        have hget : u.get? s = some v := by rw [get?, if_pos hs, hv]
        cases v with
        | text text => exact hnames s hs text hget
        | flag b => exact (Scalar.asText_chars fun s => by simp).1
        | number n => exact (Scalar.asText_chars fun s => by simp).1
      · exact hplain

/-! ## What is written for a decoded user -/

theorem written_ne_nil_of_own {name : String} {v : Scalar} (h : u.scalars.get? name = some v)
    (hs : isSecret name = false) : u.written ≠ [] := by
  have hm : (name, v) ∈ u.writtenScalars := mem_writtenScalars.mpr ⟨h, hs⟩
  exact List.append_ne_nil_of_left_ne_nil (List.ne_nil_of_mem (List.mem_map_of_mem hm)) _

theorem written_ne_nil_of_part {c : Composite} {r : Record c.shape} (h : r ∈ u.records c)
    (hr : r.isEmpty = false) : u.written ≠ [] := by
  have hm : r ∈ u.writtenRecords c := mem_writtenRecords.mpr ⟨h, hr⟩
  have hne : u.compositeGroups c ≠ [] := by
    have hw : (u.writtenRecords c).isEmpty = false :=
      List.isEmpty_eq_false_iff.mpr (List.ne_nil_of_mem hm)
    simp [compositeGroups, hw]
  obtain ⟨p, hp⟩ := List.exists_mem_of_ne_nil _ hne
  exact List.append_ne_nil_of_right_ne_nil _
    (List.ne_nil_of_mem (List.mem_flatMap.mpr ⟨c, c.mem_all, hp⟩))

theorem written_ne_nil_of_edit {e : Edit} (he : e.IsMade) (hp : e.isPassword = false)
    (hasher : Hasher) : (u.edit hasher e).written ≠ [] := by
  cases he with
  | password plain => cases hp
  | @put s v hs _ _ =>
      have hsecret := isSecret_of_ne_password hs
      have hget : (u.put s v).get? s = some v.val := by rw [get?_put, if_pos rfl]
      rw [get?] at hget
      split at hget
      · exact written_ne_nil_of_part (name_mem_records _) (Record.isEmpty_eq_false_of_get? hget)
      · exact written_ne_nil_of_own hget hsecret
  | @add c as hne _ =>
      obtain ⟨x, hx, hxe⟩ := Cardinality.exists_mem_store (u.fits c)
        (Record.isEmpty_putAll (r := .empty) hne)
      rw [← records_add] at hx
      exact written_ne_nil_of_part hx hxe

/-- **An attribute string that gives no password leaves something to write.** -/
theorem written_ne_nil_of_decode {hasher : Hasher} {input : String} {v : User}
    (h : u.decode hasher input = .ok v) (hp : Group.NoPassword input) : v.written ≠ [] := by
  obtain ⟨es, hes, rfl⟩ := (u.decode_eq_ok_iff hasher).mp h
  obtain ⟨hne, hmade⟩ := Edit.parse_spec hes
  -- what the last edit leaves is there, whatever the others did
  obtain ⟨front, e, rfl⟩ : ∃ front e, es = front ++ [e] :=
    ⟨es.dropLast, es.getLast hne, (List.dropLast_concat_getLast hne).symm⟩
  obtain ⟨he, hpass⟩ := hmade e (List.mem_append_right _ List.mem_cons_self)
  rw [editAll_append]
  exact written_ne_nil_of_edit he (hpass hp) hasher

theorem text_ne_empty {t : String} (h : u.encode = .ok t) (hne : u.written ≠ []) : t ≠ "" := by
  obtain ⟨hw, rfl⟩ := u.encode_eq_ok_iff.mp h
  obtain ⟨p, rest, hp⟩ := List.exists_cons_of_ne_nil hne
  have hspells := hw.spells p (hp ▸ List.mem_cons_self)
  intro he
  have hnil : [':'].intercalate (u.written.map Prod.snd) = [] := by
    rw [← String.toList_ofList (l := [':'].intercalate _), he]
    rfl
  rw [hp, List.map_cons] at hnil
  rcases hspells.exists_separator with hm | hm
  · exact List.not_mem_nil (hnil ▸ Group.mem_intercalate_of_head hm)
  · exact List.not_mem_nil (hnil ▸ Group.mem_intercalate_of_head hm)

/-! ## Users without a password -/

/-- Whether a user has neither a password nor the way that it was hashed. -/
def HasNoPassword (u : User) : Prop := u.scalars.Holds fun name _ => isSecret name = false

theorem hasNoPassword_empty : HasNoPassword empty := Record.holds_empty

theorem HasNoPassword.edit (h : u.HasNoPassword) {e : Edit} (he : e.IsMade)
    (hp : e.isPassword = false) (hasher : Hasher) : (u.edit hasher e).HasNoPassword := by
  cases he with
  | password plain => cases hp
  | put hs _ _ => exact holds_scalars_put h (isSecret_of_ne_password hs)
  | add _ _ => exact h

theorem HasNoPassword.decode (h : u.HasNoPassword) {hasher : Hasher} {input : String} {v : User}
    (hv : u.decode hasher input = .ok v) (hp : Group.NoPassword input) : v.HasNoPassword := by
  obtain ⟨es, hes, rfl⟩ := (u.decode_eq_ok_iff hasher).mp hv
  refine editAll_induction (P := HasNoPassword) (fun w e he hw => ?_) h
  obtain ⟨hmade, hpass⟩ := (Edit.parse_spec hes).2 e he
  exact hw.edit hmade (hpass hp) hasher

theorem HasNoPassword.withoutPassword_eq (h : u.HasNoPassword) : u.withoutPassword = u := by
  refine ext (Record.ext (fun name => ?_) fun _ => rfl) fun _ => rfl
  rw [withoutPassword, Record.get?_restrict]
  cases hv : u.scalars.get? name with
  | none => split <;> rfl
  | some v =>
      have hsecret : isSecret name = false := h name v hv
      rw [hsecret]
      rfl

end User

end Registrar
