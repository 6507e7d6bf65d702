import Registrar.Payload
import Registrar.Proofs.Freeform.Added
import Registrar.Proofs.Json.Nested

/-!
# Payloads and their JSON

A payload is written as a JSON object and read from one. What has no value is not written: an
attribute without records, a name without parts. So the reader starts from the empty user, and each
entry of the object puts in what the user has there (`User.Shows`). What comes out agrees with the
user on the names that have been read (`User.Agrees`), and the others are empty in both.

Names that are forced to be sent are no part of the JSON, and no part of an attribute string.

* `Cardinality.ofJson_toJson?` — the records of a composite attribute.
* `User.exists_readField`, `User.exists_foldlM_readField` — one entry, and all of them.
* `User.ofJson_toJson` — a user reads back from its JSON, forced names apart.
* `Payload.exists_readable_toJson` — the JSON of a payload reads back from its text.
* `Payload.ofJson_parse_compact` — a payload reads back from its text.
-/

set_option autoImplicit false

namespace Registrar

/-! ## The fields of an object -/

namespace Json

theorem mem_of_get?_object {fields : List (String × Option Json)} {name : String} {j : Json}
    (h : (object fields).get? name = some j) : (name, some j) ∈ fields := by
  rw [get?_object] at h
  obtain ⟨⟨n, v⟩, hf, hv⟩ := List.mem_filterMap.mp (List.mem_of_getLast? h)
  split at hv
  · rename_i hn
    have hn : n = name := hn
    have hv : v = some j := hv
    rw [← hn, ← hv]
    exact hf
  · cases hv

theorem exists_get?_object {fields : List (String × Option Json)} {name : String} {j : Json}
    (h : (name, some j) ∈ fields) : ∃ j', (object fields).get? name = some j' := by
  rw [get?_object]
  have hmem : j ∈ valuesUnder name fields := List.mem_filterMap.mpr ⟨_, h, if_pos rfl⟩
  exact ⟨_, List.getLast?_eq_some_getLast (List.ne_nil_of_mem hmem)⟩

end Json

/-! ## Types of payloads -/

theorem Record.readFields_stored {shape type : Shape} (h : type.Stores shape) (r : Record shape)
    (f : shape.Member) (v : f.val.kind.Value) :
    (r.stored h).readFields [(f.val.name, v.val.toJson)] = .ok ((r.set f v).stored h) := by
  have hadmits : ∀ e ∈ [(f.val.name, v.val)], type.admits e.1 e.2 = true :=
    List.forall_mem_singleton.mpr ((h.admits_eq _ _).trans (shape.admits_member f v))
  obtain ⟨s, hs, hvalues, hforced⟩ := readFields_values _ hadmits (r.stored h)
  refine hs.trans (congrArg Except.ok (ext (fun n => ?_) fun n => ?_))
  · exact congrArg (·.get? n) hvalues
  · exact congrArg (·.contains n) hforced

/-! ## The records of a composite attribute -/

namespace Cardinality

variable {s : Shape} {k : Cardinality} {rs : List (Record s)}

theorem ofJson_toJson_single (r : Record s) :
    single.ofJson r.toJson = .ok [r.unforced] := by
  have hnull : r.toJson.isNull = false := rfl
  rw [ofJson, hnull, if_neg Bool.false_ne_true, Record.ofJson_toJson]
  rfl

/-- **The records of an attribute read back**, forced names apart, if they are written at all. -/
theorem ofJson_toJson? {j : Json} (hk : k.allows rs.length = true) (h : k.toJson? rs = some j) :
    k.ofJson j = .ok (rs.map Record.unforced) := by
  cases k with
  | list =>
      rw [toJson?] at h
      split at h
      · cases h
      · cases h
        have hread : rs.mapM (Record.ofJson ∘ Record.toJson) = .ok (rs.map Record.unforced) :=
          (mapM_eq_ok_iff (P := fun _ => True) (g := Record.unforced) fun r _ y => by
            simp [Record.ofJson_toJson, eq_comm]).mpr ⟨fun _ _ => trivial, rfl⟩
        rw [ofJson, List.mapM_map]
        exact hread
  | single =>
      rcases eq_nil_or_singleton_of_allows hk with rfl | ⟨r, rfl⟩
      · cases h
      · cases h
        exact ofJson_toJson_single r
  | merged =>
      obtain ⟨r, rfl⟩ := exists_singleton_of_allows hk
      obtain ⟨r', hr', rfl⟩ := Option.map_eq_some_iff.mp h
      obtain rfl := Option.some.inj (Option.filter_eq_some_iff.mp hr').1
      rw [ofJson, Record.ofJson_toJson]
      rfl

theorem toJson?_map_stored {type : Shape} (h : type.Stores s) :
    k.toJson? (rs.map (Record.stored h)) = k.toJson? rs := by
  cases k with
  | list => simp [toJson?, List.map_map, Function.comp_def]
  | single => cases rs <;> rfl
  | merged => cases rs <;> simp [toJson?, Option.filter, apply_ite]

/-- **The records of an attribute read back in a type that holds them.** -/
theorem ofJson_toJson?_stored {type : Shape} (h : type.Stores s) {j : Json}
    (hk : k.allows rs.length = true) (hj : k.toJson? rs = some j) :
    k.ofJson j = .ok ((rs.map Record.unforced).map (Record.stored h)) := by
  rw [← toJson?_map_stored h] at hj
  have hread := ofJson_toJson? (by rwa [List.length_map]) hj
  rw [hread, List.map_map, List.map_map]
  rfl

/-- Records that are not written are those of the empty user. -/
theorem map_unforced_of_toJson?_eq_none (hk : k.allows rs.length = true)
    (h : k.toJson? rs = none) : rs.map Record.unforced = k.initial := by
  cases k with
  | list =>
      rw [toJson?] at h
      split at h
      · rename_i hempty
        rw [List.isEmpty_iff.mp hempty]
        rfl
      · cases h
  | single =>
      cases rs with
      | nil => rfl
      | cons r rs => cases h
  | merged =>
      obtain ⟨r, rfl⟩ := exists_singleton_of_allows hk
      -- a record that is merged into is left out only when it is empty
      have hempty : r.isEmpty = true := by
        by_contra hne
        simp [toJson?, Option.filter, hne] at h
      have hr : r.unforced = .empty :=
        Record.ext (Record.isEmpty_iff.mp hempty) fun _ => rfl
      rw [List.map_singleton, hr]
      rfl

end Cardinality

/-! ## Reading the entries of a user -/

namespace User

theorem get?_scalars_field (u : User) (c : Composite) : u.scalars.get? c.field = none := by
  cases hget : u.scalars.get? c.field with
  | none => rfl
  | some v =>
      have hadmits := Record.admits_of_get? hget
      rw [Shape.admits, Shape.find?_ofUser_field] at hadmits
      cases hadmits

theorem name_ne_field (f : Shape.ofUser.Member) (c : Composite) : f.val.name ≠ c.field := by
  intro hname
  have hfind := f.property
  rw [hname, Shape.find?_ofUser_field] at hfind
  cases hfind

theorem ofField?_member (f : Shape.ofUser.Member) : Composite.ofField? f.val.name = none :=
  List.find?_eq_none.mpr fun c _ hc => name_ne_field f c (eq_of_beq hc).symm

/-- **Whether JSON shows what a user has under a name.** -/
inductive Shows (t : User) : String → Json → Prop where
  | scalar {f : Shape.ofUser.Member} {v : f.val.kind.Value}
      (h : t.scalars.get? f.val.name = some v.val) : Shows t f.val.name v.val.toJson
  | field {c : Composite} {j : Json}
      (h : c.cardinality.ofJson j = .ok ((t.records c).map (Record.stored c.stores))) :
      Shows t c.field j

/-- **Whether a user agrees with another under some names**, and is as it was before under all
others. -/
structure Agrees (names : List String) (t before after : User) : Prop where
  scalars : ∀ name, after.scalars.get? name =
    if name ∈ names then t.scalars.get? name else before.scalars.get? name
  records : ∀ c : Composite, after.records c =
    if c.field ∈ names then t.records c else before.records c
  forced : after.scalars.forced = before.scalars.forced

theorem Agrees.refl (t u : User) : Agrees [] t u u where
  scalars _ := rfl
  records _ := rfl
  forced := rfl

theorem Agrees.cons {name : String} {names : List String} {t u v w : User}
    (h : Agrees [name] t u v) (h' : Agrees names t v w) : Agrees (name :: names) t u w where
  scalars n := by
    rw [h'.scalars, h.scalars]
    by_cases hn : n = name <;> by_cases hmem : n ∈ names <;> simp [hn, hmem]
  records c := by
    rw [h'.records, h.records]
    by_cases hn : c.field = name <;> by_cases hmem : c.field ∈ names <;> simp [hn, hmem]
  forced := h'.forced.trans h.forced

/-- **One entry puts in what it shows.** -/
theorem exists_readField {t : User} {name : String} {j : Json} (h : t.Shows name j) (u : User) :
    ∃ v, u.readField name j = .ok v ∧ Agrees [name] t u v := by
  cases h with
  | @scalar f v h =>
      refine ⟨{ u with scalars := u.scalars.set f v }, ?_, ?_⟩
      · rw [readField, ofField?_member f]
        exact congrArg (Except.map _)
          (Record.readFields_stored Shape.userPayload_stores u.scalars f v)
      · refine ⟨fun n => ?_, fun c => ?_, rfl⟩
        · rw [Record.get?_set, ← h]
          by_cases hn : n = f.val.name <;> simp [hn]
        · -- no composite attribute has the field of a scalar
          rw [if_neg fun hmem => name_ne_field f c (List.mem_singleton.mp hmem).symm]
  | @field c j h =>
      refine ⟨u.setRecords c (t.records c) (t.fits c), ?_, ?_⟩
      · simp only [readField, Composite.ofField?_field]
        split
        · rename_i rs hrs
          obtain rfl := Except.ok.inj (hrs.symm.trans h)
          simp only [List.map_map, Function.comp_def, Record.restored_stored, List.map_id']
        · rename_i e he
          rw [h] at he
          cases he
      · refine ⟨fun n => ?_, fun d => ?_, rfl⟩
        · show u.scalars.get? n = _
          by_cases hn : n = c.field
          · rw [hn, get?_scalars_field, get?_scalars_field, if_pos List.mem_cons_self]
          · rw [if_neg fun hmem => hn (List.mem_singleton.mp hmem)]
        · by_cases hd : d = c
          · subst hd
            rw [records_setRecords, if_pos List.mem_cons_self]
          · have hfield : d.field ≠ c.field := fun e => hd (Composite.field_inj e)
            rw [records_setRecords_of_ne _ _ _ hd,
              if_neg fun hmem => hfield (List.mem_singleton.mp hmem)]

/-- **All entries put in what they show.** -/
theorem exists_foldlM_readField {t : User} {es : List (String × Json)}
    (h : ∀ e ∈ es, t.Shows e.1 e.2) (u : User) :
    ∃ v, es.foldlM (fun w e => w.readField e.1 e.2) u = .ok v ∧ Agrees (es.map Prod.fst) t u v := by
  induction es generalizing u with
  | nil => exact ⟨u, rfl, .refl t u⟩
  | cons e es ih =>
      obtain ⟨he, hes⟩ := List.forall_mem_cons.mp h
      obtain ⟨v, hv, hfirst⟩ := exists_readField he u
      obtain ⟨w, hw, hrest⟩ := ih hes v
      refine ⟨w, ?_, hfirst.cons hrest⟩
      rw [List.foldlM_cons]
      exact bind_eq_ok_iff.mpr ⟨v, hv, hw⟩

/-! ## The JSON of a user -/

def entries (u : User) : List (String × Json) := (Json.present u.jsonFields).entries

theorem toJson_eq (u : User) : u.toJson = .obj u.entries := rfl

theorem mem_entries_iff {u : User} {name : String} {j : Json} :
    (name, j) ∈ u.entries ↔ u.toJson.get? name = some j :=
  NameMap.mem_entries_iff

/-- **The entries of the JSON of a user** are its scalars and the records that are written. -/
theorem mem_jsonFields_iff {u : User} {name : String} {j : Json} :
    (name, some j) ∈ u.jsonFields ↔
      (∃ v, u.scalars.get? name = some v ∧ j = v.toJson) ∨
        ∃ c : Composite, c.field = name ∧ c.cardinality.toJson? (u.records c) = some j := by
  rw [jsonFields, List.mem_append, List.mem_map, List.mem_map]
  refine or_congr ?_ ?_
  · constructor
    · rintro ⟨⟨n, v⟩, hmem, he⟩
      obtain ⟨rfl, hj⟩ := Prod.mk.inj he
      exact ⟨v, NameMap.mem_entries_iff.mp hmem, (Option.some.inj hj).symm⟩
    · rintro ⟨v, hv, rfl⟩
      exact ⟨(name, v), NameMap.mem_entries_iff.mpr hv, rfl⟩
  · constructor
    · rintro ⟨c, -, he⟩
      obtain ⟨hname, hj⟩ := Prod.mk.inj he
      exact ⟨c, hname, hj⟩
    · rintro ⟨c, rfl, hj⟩
      exact ⟨c, c.mem_all, by rw [hj]⟩

theorem shows_of_mem_entries {u : User} {name : String} {j : Json} (h : (name, j) ∈ u.entries) :
    u.unforced.Shows name j := by
  have hfield := mem_jsonFields_iff.mp (Json.mem_of_get?_object (mem_entries_iff.mp h))
  rcases hfield with ⟨v, hv, rfl⟩ | ⟨c, rfl, hj⟩
  · obtain ⟨f, rfl, hadmits⟩ := Shape.exists_member_of_admits (Record.admits_of_get? hv)
    exact .scalar (t := u.unforced) (v := ⟨v, hadmits⟩) hv
  · exact .field (Cardinality.ofJson_toJson?_stored c.stores (u.fits c) hj)

theorem mem_names_of_mem_jsonFields {u : User} {name : String} {j : Json}
    (h : (name, some j) ∈ u.jsonFields) : name ∈ u.entries.map Prod.fst := by
  obtain ⟨j', hj'⟩ := Json.exists_get?_object h
  exact List.mem_map.mpr ⟨(name, j'), mem_entries_iff.mpr hj', rfl⟩

/-- **A user reads back from its JSON**, forced names apart. -/
theorem ofJson_toJson (u : User) : ofJson u.toJson = .ok u.unforced := by
  obtain ⟨v, hv, hagrees⟩ := exists_foldlM_readField (t := u.unforced)
    (fun e he => shows_of_mem_entries (show (e.1, e.2) ∈ u.entries from he)) empty
  have hsame : v = u.unforced := by
    refine ext (Record.ext (fun name => ?_) fun name => ?_) fun c => ?_
    · rw [hagrees.scalars]
      split
      · rfl
      · -- a scalar that has a value is written
        rename_i hnot
        cases hget : u.scalars.get? name with
        | none => exact hget.symm
        | some x =>
            exact absurd (mem_names_of_mem_jsonFields (mem_jsonFields_iff.mpr
              (Or.inl ⟨x, hget, rfl⟩))) hnot
    · exact congrArg (·.contains name) hagrees.forced
    · rw [hagrees.records]
      split
      · rfl
      · -- records that are not written are none, or an empty name
        rename_i hnot
        cases hjson : c.cardinality.toJson? (u.records c) with
        | none => exact (Cardinality.map_unforced_of_toJson?_eq_none (u.fits c) hjson).symm
        | some j =>
            exact absurd (mem_names_of_mem_jsonFields (mem_jsonFields_iff.mpr
              (Or.inr ⟨c, rfl, hjson⟩))) hnot
  rw [toJson_eq, ofJson, hv, hsame]

end User

/-! ## The text of a payload -/

theorem Scalar.readable_toJson (depth : Nat) (v : Scalar) : Json.Readable depth v.toJson := by
  cases v with
  | text s => exact .str s
  | flag b => exact .bool b
  | number n =>
      have hmin := n.le_toInt
      have hmax := n.toInt_lt
      have hfloor : Json.Digits.maxNegative = 2 ^ 63 := by decide
      have hceiling : 2 ^ 63 ≤ Json.Digits.maxSignificand := by decide
      exact .int (by omega) (by omega)

theorem Record.readable_toJson {shape : Shape} (depth : Nat) (r : Record shape) :
    Json.Readable (depth + 1) r.toJson := by
  refine .obj (List.pairwise_map.mpr r.values.sorted) fun e he => ?_
  obtain ⟨x, -, rfl⟩ := List.mem_map.mp he
  exact x.2.readable_toJson depth

/-- A list of records holds them one level below. -/
theorem Cardinality.readable_toJson? {s : Shape} {k : Cardinality} {rs : List (Record s)} {j : Json}
    (depth : Nat) (h : k.toJson? rs = some j) : Json.Readable (depth + 2) j := by
  cases k with
  | list =>
      rw [toJson?] at h
      split at h
      · cases h
      · cases h
        refine .arr fun j hj => ?_
        obtain ⟨r, -, rfl⟩ := List.mem_map.mp hj
        exact r.readable_toJson depth
  | single =>
      obtain ⟨r, -, rfl⟩ := Option.map_eq_some_iff.mp h
      exact r.readable_toJson (depth + 1)
  | merged =>
      obtain ⟨r, -, rfl⟩ := Option.map_eq_some_iff.mp h
      exact r.readable_toJson (depth + 1)

namespace Payload

/-- The type of the object that a payload is about. -/
def object : Payload → ObjectType
  | .flat type _ => .flat type
  | .user _ => .user

/-- The payload without forced names, its own and those of every record in it. -/
def unforced : Payload → Payload
  | .flat type r => .flat type r.unforced
  | .user u => .user u.unforced

/-- **The JSON of a payload can be read back**: three containers at most stand in one another. -/
theorem exists_readable_toJson (p : Payload) :
    ∃ entries, p.toJson = .obj entries ∧ Json.Readable 3 (.obj entries) := by
  cases p with
  | flat type r => exact ⟨_, rfl, r.readable_toJson 2⟩
  | user u =>
      refine ⟨u.entries, rfl, .obj (Json.present u.jsonFields).sorted fun e he => ?_⟩
      have hget := User.mem_entries_iff.mp (show (e.1, e.2) ∈ u.entries from he)
      rcases User.mem_jsonFields_iff.mp (Json.mem_of_get?_object hget) with ⟨v, -, hv⟩ | ⟨c, -, hj⟩
      · rw [hv]
        exact v.readable_toJson 2
      · exact Cardinality.readable_toJson? 0 hj

/-- **A payload reads back from its JSON**, forced names apart. -/
theorem ofJson_toJson (p : Payload) : ofJson p.object p.toJson = .ok p.unforced := by
  cases p with
  | flat type r => exact ofJson_toJson_flat type r
  | user u =>
      show (User.ofJson u.toJson).map Payload.user = _
      rw [User.ofJson_toJson]
      rfl

/-- **A payload reads back from its text**, forced names apart, whatever its object, texts and
numbers are; and a user is written as the same attribute string as before. -/
theorem ofJson_parse_compact :
    (∀ p : Payload, Json.parse (Json.compact p.toJson) = .ok p.toJson ∧
      ofJson p.object p.toJson = .ok p.unforced) ∧
    ∀ u : User, User.ofJson u.toJson = .ok u.unforced ∧ u.unforced.encode = u.encode := by
  refine ⟨fun p => ⟨?_, p.ofJson_toJson⟩, fun u => ⟨u.ofJson_toJson, ?_⟩⟩
  · obtain ⟨entries, hjson, hread⟩ := p.exists_readable_toJson
    rw [hjson]
    exact Json.parse_compact hread (by decide)
  · exact User.encode_mapRecords (f := fun _ => Record.unforced) (fun _ _ => rfl) u

end Payload

end Registrar
