import Registrar.Proofs.Freeform.Joining
import Registrar.Proofs.Freeform.Written

/-!
# Decoding what has been written

The text of a user is made of the groups that the user is written as, so decoding it applies them
to the empty user. A group of a scalar puts the value back; only a recovery phone number may be
refused. A group of a composite attribute adds its records again, read one by one from their
texts.

* `User.exists_edits_written_iff` — when all groups of a user are taken.
* `User.decode_eq_marked` — a user with canonical values is rebuilt, marked and without password.
-/

set_option autoImplicit false

namespace Registrar

/-! ## Groups of scalars -/

namespace Slot

theorem isListed_kind (s : Slot) : s.field.kind.isListed = true := by
  cases s <;> rfl

theorem isCanonical_kind (s : Slot) (v : Scalar) : s.field.kind.IsCanonical v := by
  cases s <;> trivial

theorem edit_asText {s : Slot} (hs : s ≠ .password) (v : s.field.kind.Value) :
    s.edit v.val.asText =
      if s = .recoveryPhone ∧ User.isPhone v.val.asText = false then .error .phoneWithoutPlus
      else .ok (.put s v) := by
  have hconv := FieldKind.convert_asText s.isListed_kind s.field.name v (s.isCanonical_kind v.val)
  rw [edit, if_neg hs, hconv]
  rfl

end Slot

namespace Group

theorem edits_scalar (s : Slot) (value : List Char) :
    (Group.scalar s.field.name.toList value).edits
      = (s.edit (String.ofList value)).map ([·]) := by
  obtain ⟨hname, hkey, -⟩ := Slot.names_table s s.mem_all
  have hslot : (Vocabulary.ofUser.get? s.field.name).bind Slot.ofName? = some s := by
    rw [hname, Option.bind_some, s.ofName?_name]
  simp only [edits, String.ofList_toList, hkey, Edit.ofScalar, hslot]

end Group

namespace User

/-- What is asked of a value for a recovery phone number. -/
def PhoneOk (name : String) (v : Scalar) : Prop :=
  name = Slot.recoveryPhone.field.name → isPhone v.asText = true

theorem recoveryPhone_iff {s : Slot} {v : Scalar} :
    ¬(s = .recoveryPhone ∧ isPhone v.asText = false) ↔ PhoneOk s.field.name v := by
  unfold PhoneOk
  constructor
  · intro h hn
    by_contra hp
    exact h ⟨name_inj hn, Bool.eq_false_iff.mpr hp⟩
  · rintro h ⟨rfl, hp⟩
    rw [h rfl] at hp
    cases hp

/-- The group of a scalar that is written stands for an edit, unless it is no phone number where
one is asked for. -/
theorem exists_edits_scalar_iff {u : User} {e : String × Scalar} (he : e ∈ u.writtenScalars) :
    (∃ es, (scalarGroup e).1.edits = .ok es) ↔ PhoneOk e.1 e.2 := by
  obtain ⟨s, hn, -, hs, hv⟩ := exists_slot_of_mem he
  obtain ⟨name, v⟩ := e
  subst hn
  rw [scalarGroup, Group.edits_scalar, exists_map_eq_ok_iff, String.ofList_toList,
    Slot.edit_asText hs ⟨v, hv⟩, ← recoveryPhone_iff]
  split
  · rename_i h
    simp [h]
  · rename_i h
    simp [h]

/-- **A field of the record of a user is filled** by the group of its value. -/
theorem decodeGroup_scalar {a : Record.Assignment .ofUser} (hs : isSecret a.1.val.name = false)
    (hp : PhoneOk a.1.val.name a.2.val) (hasher : Hasher) (u : User) :
    u.decodeGroup hasher (scalarGroup a.entry).1
      = .ok { u with scalars := u.scalars.put a.1 a.2 } := by
  -- the field is that of a scalar attribute, and the edit of the group puts the value there
  obtain ⟨⟨f, hf⟩, v⟩ := a
  obtain ⟨s, -, rfl, hn, hpass⟩ := Shape.exists_slot_of_ofUser f (Shape.mem_of_find? hf) hs
  have hedits : (scalarGroup (s.field.name, v.val)).1.edits = .ok [.put s v] := by
    rw [scalarGroup, Group.edits_scalar, String.ofList_toList, Slot.edit_asText hpass v,
      if_neg (recoveryPhone_iff.mpr hp)]
    rfl
  have hput : u.put s v = { u with scalars := u.scalars.put (s.userMember hn) v } := by
    rw [put, dif_neg (by simp [hn])]
  have hentry : Record.Assignment.entry (⟨⟨s.field, hf⟩, v⟩ : Record.Assignment .ofUser)
      = (s.field.name, v.val) := rfl
  rw [decodeGroup_eq, hentry, hedits]
  exact congrArg Except.ok hput

theorem decodeGroups_scalars {as : List (Record.Assignment .ofUser)}
    (h : ∀ a ∈ as, isSecret a.1.val.name = false ∧ PhoneOk a.1.val.name a.2.val)
    (hasher : Hasher) (u : User) :
    u.decodeGroups hasher (as.map fun a => (scalarGroup a.entry).1)
      = .ok { u with scalars := u.scalars.putAll as } := by
  induction as generalizing u with
  | nil => rfl
  | cons a as ih =>
      obtain ⟨hs, hp⟩ := h a List.mem_cons_self
      have hrest := ih (fun b hb => h b (List.mem_cons_of_mem _ hb))
        { u with scalars := u.scalars.put a.1 a.2 }
      simp only [List.map_cons, decodeGroups, decodeGroup_scalar hs hp, hrest]
      rfl

/-! ## Groups of composite attributes -/

theorem any_isBrace_of_mem {u : User} (h : u.Writable) {c : Composite} {o : List Char}
    (ho : o ∈ (u.writtenRecords c).map Record.text) : o.any Occurrence.isBrace = false := by
  obtain ⟨r, hr, rfl⟩ := List.mem_map.mp ho
  exact Record.any_isBrace_text (h.records c r (mem_writtenRecords.mp hr).1)

theorem edits_body {u : User} (h : u.Writable) {c : Composite} (hne : u.writtenRecords c ≠ []) :
    c.edits (u.body c)
      = ((u.writtenRecords c).mapM fun r => Occurrence.read c r.text).map (·.map (.add c)) := by
  have hsplit : Occurrence.split (u.body c) = some ((u.writtenRecords c).map Record.text) :=
    Occurrence.split_flatMap (by simpa using hne) fun o => any_isBrace_of_mem h
  rw [Composite.edits, hsplit]
  simp only [List.mapM_map, Function.comp_def]

/-- The group of a composite attribute stands for edits exactly if the values are known. -/
theorem exists_edits_composite_iff {u : User} (h : u.Writable) (c : Composite) :
    (∀ g ∈ (u.compositeGroups c).map Prod.fst, ∃ es, g.edits = .ok es) ↔
      ∀ r ∈ u.records c, r.IsKnown := by
  have hread : ∀ r ∈ u.writtenRecords c, (∃ s, Occurrence.read c r.text = .ok s) ↔ r.IsKnown := by
    intro r hr
    obtain ⟨hr, he⟩ := mem_writtenRecords.mp hr
    exact Record.exists_read_text_iff (h.records c r hr) he
  have hknown : (∀ r ∈ u.records c, r.IsKnown) ↔ ∀ r ∈ u.writtenRecords c, r.IsKnown := by
    refine ⟨fun hall r hr => hall r (mem_writtenRecords.mp hr).1, fun hall r hr => ?_⟩
    cases he : r.isEmpty with
    | false => exact hall r (mem_writtenRecords.mpr ⟨hr, he⟩)
    | true =>
        -- an empty record has no value that could be unknown
        intro f v hv
        rw [Record.isEmpty_iff.mp he] at hv
        cases hv
  rw [hknown, compositeGroups]
  split
  · rename_i he
    simp [List.isEmpty_iff.mp he]
  · rename_i hne
    have hne : u.writtenRecords c ≠ [] := fun e => hne (List.isEmpty_iff.mpr e)
    simp only [List.map_cons, List.map_nil, List.mem_singleton, forall_eq, Group.edits,
      edits_body h hne]
    rw [exists_map_eq_ok_iff, exists_mapM_eq_ok_iff]
    exact forall₂_congr hread

theorem editAll_map_add (hasher : Hasher) (u : User) (c : Composite) (rs : List (Record c.shape)) :
    u.editAll hasher (rs.map (.add c)) = u.addAll c rs := by
  rw [editAll, List.foldl_map]
  rfl

/-- **Records with canonical values are added again**, marked, by the group of their
attribute. -/
theorem decodeGroups_composite {u : User} (h : u.Writable) {c : Composite}
    (hc : ∀ r ∈ u.records c, r.IsCanonical) (hasher : Hasher) (v : User) :
    v.decodeGroups hasher ((u.compositeGroups c).map Prod.fst)
      = .ok (v.addAll c ((u.writtenRecords c).map Record.marked)) := by
  rw [compositeGroups]
  split
  · rename_i he
    rw [List.isEmpty_iff.mp he]
    rfl
  · rename_i hne
    have hne : u.writtenRecords c ≠ [] := fun e => hne (List.isEmpty_iff.mpr e)
    -- each record is read from its text, and the edits add what has been read
    have hread : ∀ r ∈ u.writtenRecords c, ∀ s, Occurrence.read c r.text = .ok s ↔
        True ∧ s = r.marked := by
      intro r hr s
      obtain ⟨hr, he⟩ := mem_writtenRecords.mp hr
      rw [Record.read_text (h.records c r hr) he (hc r hr), Except.ok.injEq, true_and]
      exact eq_comm
    have hall := (mapM_eq_ok_iff hread).mpr ⟨fun _ _ => trivial, rfl⟩
    have hgroup : v.decodeGroup hasher (.composite c c.key.toList (u.body c))
        = .ok (v.addAll c ((u.writtenRecords c).map Record.marked)) := by
      rw [decodeGroup_eq, Group.edits, edits_body h hne, hall]
      exact congrArg Except.ok (v.editAll_map_add hasher c _)
    simp only [List.map_cons, List.map_nil, decodeGroups, hgroup]

theorem decodeGroups_composites {u : User} (h : u.Writable)
    (hc : ∀ c, ∀ r ∈ u.records c, r.IsCanonical) (hasher : Hasher) (cs : List Composite)
    (v : User) :
    v.decodeGroups hasher ((cs.flatMap u.compositeGroups).map Prod.fst)
      = .ok (v.addEach (fun c => (u.writtenRecords c).map Record.marked) cs) := by
  induction cs generalizing v with
  | nil => rfl
  | cons c cs ih =>
      rw [List.flatMap_cons, List.map_append,
        decodeGroups_append (decodeGroups_composite h (hc c) hasher v)]
      exact ih _

/-! ## The whole text -/

variable {u : User} {t : String}

theorem written_ne_nil (h : u.encode = .ok t) (hne : t ≠ "") : u.written ≠ [] := by
  obtain ⟨-, rfl⟩ := u.encode_eq_ok_iff.mp h
  intro he
  rw [he] at hne
  exact hne rfl

theorem decode_encode_eq (h : u.encode = .ok t) (hne : t ≠ "") (hasher : Hasher) (v : User) :
    v.decode hasher t = v.decodeGroups hasher (u.written.map Prod.fst) := by
  obtain ⟨hw, ht⟩ := u.encode_eq_ok_iff.mp h
  rw [ht, decode_intercalate hw.spells (written_ne_nil h hne)]

theorem phoneOk_iff :
    (∀ number, u.get? .recoveryPhone = some (.text number) → isPhone number = true) ↔
      ∀ e ∈ u.writtenScalars, PhoneOk e.1 e.2 := by
  constructor
  · rintro h ⟨name, v⟩ he rfl
    obtain ⟨s, hn, -, -, hv⟩ := exists_slot_of_mem he
    have hs : s = .recoveryPhone := name_inj hn
    subst hs
    cases v with
    | text number => exact h number (mem_writtenScalars.mp he).1
    | flag b => cases hv
    | number n => cases hv
  · intro h number hget
    have hsecret : isSecret Slot.recoveryPhone.field.name = false := by decide
    exact h (Slot.recoveryPhone.field.name, .text number)
      (mem_writtenScalars.mpr ⟨hget, hsecret⟩) rfl

/-- **The groups of a user stand for edits** exactly if a phone number is one and the values of
domains are known. -/
theorem exists_edits_written_iff (hw : u.Writable) :
    (∀ g ∈ u.written.map Prod.fst, ∃ es, g.edits = .ok es) ↔
      (∀ e ∈ u.writtenScalars, PhoneOk e.1 e.2) ∧ ∀ c, ∀ r ∈ u.records c, r.IsKnown := by
  have hscalars : (∀ g ∈ (u.writtenScalars.map scalarGroup).map Prod.fst, ∃ es, g.edits = .ok es) ↔
      ∀ e ∈ u.writtenScalars, PhoneOk e.1 e.2 := by
    simp only [List.map_map, List.forall_mem_map, Function.comp_apply]
    exact forall₂_congr fun e he => exists_edits_scalar_iff he
  have hcomposites : (∀ g ∈ (Composite.all.flatMap u.compositeGroups).map Prod.fst,
      ∃ es, g.edits = .ok es) ↔ ∀ c, ∀ r ∈ u.records c, r.IsKnown := by
    simp only [← exists_edits_composite_iff hw]
    constructor
    · intro hall c g hg
      obtain ⟨p, hp, rfl⟩ := List.mem_map.mp hg
      exact hall _ (List.mem_map_of_mem (List.mem_flatMap.mpr ⟨c, c.mem_all, hp⟩))
    · intro hall g hg
      obtain ⟨p, hp, rfl⟩ := List.mem_map.mp hg
      obtain ⟨c, -, hp⟩ := List.mem_flatMap.mp hp
      exact hall c _ (List.mem_map_of_mem hp)
  rw [written, List.map_append, List.forall_mem_append, hscalars, hcomposites]

/-- **Whether the values of a user are ones that decoding gives**: a recovery phone number is
empty or starts with a plus, a value of a domain is spelled as the domain has it, and no record
but the name is empty. -/
structure WellFormed (u : User) : Prop where
  phone : ∀ number, u.get? .recoveryPhone = some (.text number) → isPhone number = true
  canonical : ∀ c, ∀ r ∈ u.records c, ∀ (f : c.shape.Member) (d : Domain),
    f.val.kind = .enum d → ∀ text, r.get? f.val.name = some (.text text) → text ∈ d.values
  filled : ∀ c : Composite, c.cardinality ≠ .merged → ∀ r ∈ u.records c, r.isEmpty = false

/-- **The text of a well-formed user gives the user back**, marked and without password. -/
theorem decode_eq_marked (h : u.encode = .ok t) (hne : t ≠ "") (hu : u.WellFormed)
    (hasher : Hasher) : empty.decode hasher t = .ok u.withoutPassword.marked := by
  obtain ⟨hw, -⟩ := u.encode_eq_ok_iff.mp h
  have hcanonical : ∀ c, ∀ r ∈ u.records c, r.IsCanonical := fun c r hr =>
    Record.isCanonical_iff.mpr (hu.canonical c r hr)
  obtain ⟨as, has⟩ := Record.exists_assignments u.withoutPassword.scalars.conforms
  have has : as.map Record.Assignment.entry = u.writtenScalars := has
  have hok : ∀ a ∈ as, isSecret a.1.val.name = false ∧ PhoneOk a.1.val.name a.2.val := by
    intro a ha
    have hm : a.entry ∈ u.writtenScalars := has ▸ List.mem_map_of_mem ha
    exact ⟨(mem_writtenScalars.mp hm).2, phoneOk_iff.mp hu.phone _ hm⟩
  have hscalars : empty.decodeGroups hasher ((u.writtenScalars.map scalarGroup).map Prod.fst)
      = .ok { empty with scalars := u.withoutPassword.scalars.marked } := by
    rw [← has, List.map_map, List.map_map]
    exact (decodeGroups_scalars hok hasher empty).trans
      (congrArg (fun r => Except.ok { empty with scalars := r }) (Record.putAll_eq_marked has))
  rw [decode_encode_eq h hne, written, List.map_append, decodeGroups_append hscalars,
    decodeGroups_composites hw hcanonical]
  -- adding records leaves the scalars alone, and each attribute is added to once
  refine congrArg Except.ok (ext (scalars_addEach _ _ _) fun c => ?_)
  rw [records_addEach _ _ Composite.nodup_all, if_pos c.mem_all]
  exact Cardinality.foldl_store_written (u.fits c) (hu.filled c)

end User

end Registrar
