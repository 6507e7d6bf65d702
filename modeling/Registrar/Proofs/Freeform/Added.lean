import Mathlib.Data.List.Forall2
import Mathlib.Data.List.Induction
import Registrar.Proofs.Freeform.Occurrences
import Registrar.Proofs.Users

/-!
# What occurrences add to a user

An occurrence names fields of a composite attribute, each in any case or by a synonym, and some of
them repeatedly. What it adds to the JSON of the user is an object of these fields, each under its
own name and with the value that is given last:

```
email~{type~work~address~a@b.c~TYPE~home}     [ … , {"address":"a@b.c","type":"home"} ]
name~{givenname~Ada}{christianname~Eve}       {"familyName": as it was, "givenName":"Eve"}
```

The objects go behind those that the attribute has, or the last of them in place of the old one, or
part by part into the name. Nothing else in the JSON of the user changes.

* `Occurrence.isShownBy_of_read` — what is read from an occurrence shows all that the occurrence
  says.
* `User.get?_toJson_field`, `User.get?_toJson_congr` — the fields of the JSON of a user.
* `User.gains_addAll` — what records add to the JSON of a user.
* `User.applyBody_adds` — what the body of a composite attribute adds.
-/

set_option autoImplicit false

namespace Registrar

/-! ## Objects of fields that are given repeatedly -/

theorem NameMap.map_foldl_insert {α β : Type} (f : α → β) (es : List (String × α)) (m : NameMap α) :
    (es.foldl (fun m e => m.insert e.1 e.2) m).map f
      = (es.map fun e => (e.1, f e.2)).foldl (fun m e => m.insert e.1 e.2) (m.map f) := by
  induction es generalizing m with
  | nil => rfl
  | cons e es ih => rw [List.foldl_cons, ih, map_insert, List.map_cons, List.foldl_cons]

namespace Json

/-- The values that are given under a name, in order. -/
def valuesUnder (name : String) (fields : List (String × Option Json)) : List Json :=
  fields.filterMap fun f => if f.1 = name then f.2 else none

theorem valuesUnder_append (name : String) (fields more : List (String × Option Json)) :
    valuesUnder name (fields ++ more) = valuesUnder name fields ++ valuesUnder name more :=
  List.filterMap_append

/-- The fields of an object, one after the other. -/
theorem get?_foldl_present (fields : List (String × Option Json)) (m : NameMap Json)
    (name : String) :
    (fields.foldl (fun m f => match f.2 with | some v => m.insert f.1 v | none => m) m).get? name
      = (valuesUnder name fields).getLast?.or (m.get? name) := by
  induction fields generalizing m with
  | nil => rfl
  | cons f fields ih =>
      obtain ⟨n, j⟩ := f
      rw [List.foldl_cons, ih, valuesUnder, valuesUnder, List.filterMap_cons]
      cases j with
      | none => simp
      | some v =>
          simp only
          by_cases hn : n = name
          · rw [if_pos hn, NameMap.get?_insert, if_pos hn.symm]
            rw [List.getLast?_cons]
            cases (List.filterMap (fun f => if f.1 = name then f.2 else none) fields).getLast? with
            | none => rfl
            | some w => rfl
          · rw [if_neg hn, NameMap.get?_insert, if_neg (Ne.symm hn)]

/-- **Under each name an object has the value that is given last.** -/
theorem get?_object (fields : List (String × Option Json)) (name : String) :
    (object fields).get? name = (valuesUnder name fields).getLast? := by
  have hfold := get?_foldl_present fields .empty name
  rw [NameMap.get?_empty, Option.or_none] at hfold
  exact hfold

theorem record_eq (fields : List (String × Json)) :
    record fields
      = .obj (fields.foldl (fun m e => m.insert e.1 e.2) NameMap.empty).entries := by
  rw [record, object, present, List.foldl_map]

theorem get?_record (fields : List (String × Json)) (name : String) :
    (record fields).get? name
      = ((fields.filter fun f => f.1 = name).map Prod.snd).getLast? := by
  rw [record, get?_object, valuesUnder, List.filterMap_map]
  congr 1
  induction fields with
  | nil => rfl
  | cons f fields ih =>
      rw [List.filterMap_cons, ih]
      by_cases hn : f.1 = name
      · rw [List.filter_cons_of_pos (by simpa using hn)]
        simp [hn]
      · rw [List.filter_cons_of_neg (by simpa using hn)]
        simp [hn]

end Json

/-! ## What an occurrence says -/

theorem forall₂_of_mapM {α β ε : Type} {f : α → Except ε β} {xs : List α} {ys : List β}
    (h : xs.mapM f = .ok ys) : List.Forall₂ (fun x y => f x = .ok y) xs ys := by
  induction xs generalizing ys with
  | nil =>
      cases h
      exact .nil
  | cons x xs ih =>
      rw [mapM_cons_eq] at h
      cases hx : f x with
      | error e =>
          rw [hx] at h
          cases h
      | ok y =>
          rw [hx] at h
          obtain ⟨zs, hzs, rfl⟩ := map_eq_ok_iff.mp h
          exact .cons hx (ih hzs)

namespace Occurrence

/-- **What an occurrence says**: the fields that its names stand for, each with what its value is
converted to, in the order in which they are given. -/
def Says (c : Composite) (o : List Char) (fields : List (String × Json)) : Prop :=
  ∃ ps, pairs (o.splitOn '~') = some ps ∧
    List.Forall₂ (fun p field => ∃ f v, c.subField? (String.ofList p.1) = some f ∧
      f.val.kind.convert f.val.name (String.ofList p.2) = .ok v ∧
        field = (f.val.name, v.val.toJson)) ps fields

/-- **Whether JSON shows what an occurrence says**: it is the object of the fields that are named,
and each has the value that is given last. -/
def IsShownBy (c : Composite) (o : List Char) (j : Json) : Prop :=
  ∃ fields, Says c o fields ∧ j = Json.record fields ∧
    ∀ name, j.get? name = ((fields.filter fun f => f.1 = name).map Prod.snd).getLast?

theorem toJson_putAll {c : Composite} (as : List (Record.Assignment c.shape)) :
    (Record.empty.putAll as).toJson
      = Json.record (as.map fun a => (a.1.val.name, a.2.val.toJson)) := by
  have hvalues : (Record.empty.putAll as).values.map Scalar.toJson
      = List.foldl (fun (m : NameMap Json) e => m.insert e.1 e.2) .empty
          (as.map fun a => (a.1.val.name, a.2.val.toJson)) := by
    rw [Record.values_putAll, NameMap.map_foldl_insert, List.map_map]
    rfl
  rw [Json.record_eq, ← hvalues]
  rfl

/-- **What is read from an occurrence shows all that the occurrence says**, and nothing else. -/
theorem isShownBy_of_read {c : Composite} {o : List Char} {r : Record c.shape}
    (h : read c o = .ok r) : IsShownBy c o r.toJson := by
  rw [read_eq] at h
  split at h
  · cases h
  · rename_i ps hps
    rw [fill_eq] at h
    obtain ⟨as, hm, rfl⟩ := map_eq_ok_iff.mp h
    rw [toJson_putAll]
    refine ⟨_, ⟨ps, hps, ?_⟩, rfl, Json.get?_record _⟩
    refine List.forall₂_map_right_iff.mpr ((forall₂_of_mapM hm).imp fun p a ha => ?_)
    unfold resolve at ha
    split at ha
    · cases ha
    · rename_i f hf
      obtain ⟨v, hv, rfl⟩ := map_eq_ok_iff.mp ha
      exact ⟨f, v, hf, hv, rfl⟩

end Occurrence

/-! ## The fields of the JSON of a user -/

theorem Shape.find?_ofUser_field (c : Composite) : Shape.ofUser.find? c.field = none := by
  cases c <;> decide

theorem Composite.field_inj {c d : Composite} (h : c.field = d.field) : c = d := by
  have hc := ofField?_field c
  rw [h, ofField?_field] at hc
  exact (Option.some.inj hc).symm

/-- Of the elements of a list one is picked. -/
theorem filterMap_pick {α β : Type} [DecidableEq α] {f : α → Option β} {xs : List α}
    (h : xs.Nodup) {x : α} (hx : x ∈ xs) :
    (xs.filterMap fun y => if y = x then f y else none) = (f x).toList := by
  induction xs with
  | nil => cases hx
  | cons y ys ih =>
      obtain ⟨hy, hys⟩ := List.nodup_cons.mp h
      rw [List.filterMap_cons]
      by_cases hyx : y = x
      · subst hyx
        have hrest : (ys.filterMap fun z => if z = y then f z else none) = [] := by
          refine List.filterMap_eq_nil_iff.mpr fun z hz => if_neg fun hzy => hy ?_
          rw [← hzy]
          exact hz
        rw [if_pos rfl, hrest]
        cases f y <;> rfl
      · have hxs : x ∈ ys := (List.mem_cons.mp hx).resolve_left fun e => hyx e.symm
        rw [if_neg hyx]
        exact ih hys hxs

namespace User

/-- **The field of a composite attribute** in the JSON of a user. -/
theorem get?_toJson_field (u : User) (c : Composite) :
    u.toJson.get? c.field = c.cardinality.toJson? (u.records c) := by
  -- no scalar is named like a composite attribute
  have hscalars : Json.valuesUnder c.field
      (u.scalars.values.entries.map fun e => (e.1, some e.2.toJson)) = [] := by
    rw [Json.valuesUnder, List.filterMap_map, List.filterMap_eq_nil_iff]
    intro e he
    refine if_neg fun hname => ?_
    have hadmits := u.scalars.conforms e he
    rw [hname, Shape.admits, Shape.find?_ofUser_field] at hadmits
    cases hadmits
  -- and no other composite attribute is
  have hrecords : Json.valuesUnder c.field
      (Composite.all.map fun d => (d.field, d.cardinality.toJson? (u.records d)))
        = (c.cardinality.toJson? (u.records c)).toList := by
    rw [Json.valuesUnder, List.filterMap_map,
      ← filterMap_pick (f := fun d => d.cardinality.toJson? (u.records d)) Composite.nodup_all
        c.mem_all]
    refine List.filterMap_congr fun d _ => ?_
    by_cases hd : d = c
    · subst hd
      simp
    · have hfield : d.field ≠ c.field := fun e => hd (Composite.field_inj e)
      simp [hd, hfield]
  rw [toJson, Json.get?_object, jsonFields, Json.valuesUnder_append, hscalars, hrecords,
    List.nil_append]
  cases c.cardinality.toJson? (u.records c) <;> rfl

/-- **Users that differ in one composite attribute** have the same JSON in all other fields. -/
theorem get?_toJson_congr {u v : User} {c : Composite} (hs : v.scalars = u.scalars)
    (hr : ∀ d, d ≠ c → v.records d = u.records d) {name : String} (hname : name ≠ c.field) :
    v.toJson.get? name = u.toJson.get? name := by
  have hrecords : Json.valuesUnder name
      (Composite.all.map fun d => (d.field, d.cardinality.toJson? (v.records d)))
        = Json.valuesUnder name
          (Composite.all.map fun d => (d.field, d.cardinality.toJson? (u.records d))) := by
    rw [Json.valuesUnder, Json.valuesUnder, List.filterMap_map, List.filterMap_map]
    refine List.filterMap_congr fun d _ => ?_
    by_cases hd : d = c
    · subst hd
      simp [Ne.symm hname]
    · simp [hr d hd]
  rw [toJson, toJson, Json.get?_object, Json.get?_object, jsonFields, jsonFields,
    Json.valuesUnder_append, Json.valuesUnder_append, hs, hrecords]

end User

/-! ## What records add -/

namespace Cardinality

variable {shape : Shape}

theorem foldl_store_list (old rs : List (Record shape)) :
    rs.foldl (fun old r => list.store old r) old = old ++ rs := by
  induction rs generalizing old with
  | nil => rw [List.foldl_nil, List.append_nil]
  | cons r rs ih =>
      rw [List.foldl_cons, ih]
      show (old ++ [r]) ++ rs = old ++ r :: rs
      rw [List.append_assoc, List.singleton_append]

theorem foldl_store_single {rs : List (Record shape)} (hne : rs ≠ []) (old : List (Record shape)) :
    rs.foldl (fun old r => single.store old r) old = [rs.getLast hne] := by
  induction rs using List.reverseRecOn with
  | nil => exact absurd rfl hne
  | append_singleton rs r _ =>
      rw [List.foldl_concat, List.getLast_concat]
      rfl

theorem foldl_store_merged (old : Record shape) (rs : List (Record shape)) :
    rs.foldl (fun old r => merged.store old r) [old] = [rs.foldl Record.merge old] := by
  induction rs generalizing old with
  | nil => rfl
  | cons r rs ih => exact ih (old.merge r)

end Cardinality

/-- **Of records that are merged the last one that has a value counts.** -/
theorem Record.get?_foldl_merge {shape : Shape} (r : Record shape) (rs : List (Record shape))
    (name : String) :
    (rs.foldl merge r).get? name = (rs.reverse.findSome? (·.get? name)).or (r.get? name) := by
  induction rs generalizing r with
  | nil => rfl
  | cons s rs ih =>
      rw [List.foldl_cons, ih, get?_merge, List.reverse_cons, List.findSome?_append,
        List.findSome?_singleton, Option.or_assoc]

theorem Record.get?_toJson {shape : Shape} (r : Record shape) (name : String) :
    r.toJson.get? name = (r.get? name).map Scalar.toJson :=
  NameMap.get?_map Scalar.toJson r.values name

namespace Json

/-- The items of a field that is an array. -/
def items : Option Json → List Json
  | some (.arr js) => js
  | _ => []

/-- A part of a field that is an object. -/
def part? (field : Option Json) (name : String) : Option Json := field.bind (·.get? name)

theorem items_list {shape : Shape} (rs : List (Record shape)) :
    items (Cardinality.list.toJson? rs) = rs.map Record.toJson := by
  cases rs <;> rfl

theorem part?_merged {shape : Shape} (r : Record shape) (name : String) :
    part? (Cardinality.merged.toJson? [r]) name = (r.get? name).map Scalar.toJson := by
  have hjson : Cardinality.merged.toJson? [r]
      = if r.isEmpty then none else some r.toJson := by
    cases hr : r.isEmpty <;> simp [Cardinality.toJson?, Option.filter, hr]
  rw [hjson]
  cases hr : r.isEmpty with
  | true =>
      rw [Record.isEmpty_iff.mp hr name]
      rfl
  | false => exact r.get?_toJson name

end Json

/-- **What the JSON of a user gains** by objects that are added to a composite attribute. -/
structure User.Gains (u v : User) (c : Composite) (js : List Json) : Prop where
  /-- They go behind those of the list, … -/
  appended : c.cardinality = .list →
    v.toJson.get? c.field = some (.arr (Json.items (u.toJson.get? c.field) ++ js))
  /-- … or the last takes the place of the old one, … -/
  replaced : c.cardinality = .single → v.toJson.get? c.field = js.getLast?
  /-- … or each part is that of the last that has the part or, if none has, what it was. -/
  merged : c.cardinality = .merged → ∀ part, Json.part? (v.toJson.get? c.field) part
    = (js.reverse.findSome? (·.get? part)).or (Json.part? (u.toJson.get? c.field) part)
  /-- All other fields are as they were. -/
  kept : ∀ name, name ≠ c.field → v.toJson.get? name = u.toJson.get? name

namespace User

/-- **What records add to the JSON of a user.** -/
theorem gains_addAll (u : User) (c : Composite) {rs : List (Record c.shape)} (hne : rs ≠ []) :
    u.Gains (u.addAll c rs) c (rs.map Record.toJson) where
  appended hc := by
    have hmore : (u.records c ++ rs).isEmpty = false :=
      List.isEmpty_eq_false_iff.mpr (List.append_ne_nil_of_right_ne_nil _ hne)
    rw [get?_toJson_field, get?_toJson_field, records_addAll, hc, Cardinality.foldl_store_list,
      Json.items_list, ← List.map_append, Cardinality.toJson?, hmore]
    rfl
  replaced hc := by
    rw [get?_toJson_field, records_addAll, hc, Cardinality.foldl_store_single hne,
      List.getLast?_map, List.getLast?_eq_some_getLast hne]
    rfl
  merged hc part := by
    obtain ⟨r, hr⟩ : ∃ r, u.records c = [r] := by
      have hfits := u.fits c
      rw [hc] at hfits
      exact Cardinality.exists_singleton_of_allows hfits
    rw [get?_toJson_field, get?_toJson_field, records_addAll, hc, hr,
      Cardinality.foldl_store_merged, Json.part?_merged, Json.part?_merged,
      Record.get?_foldl_merge, ← List.map_reverse, List.findSome?_map, Option.map_or,
      List.map_findSome?]
    simp only [Function.comp_def, Record.get?_toJson]
  kept name hname :=
    get?_toJson_congr (u.scalars_addAll c rs) (fun _ hd => u.records_addAll_of_ne rs hd) hname

/-- The records of occurrences that are all added. -/
theorem exists_of_applyOccurrences {u v : User} {c : Composite} {os : List (List Char)}
    (h : u.applyOccurrences c os = (.ok (), v)) :
    ∃ rs, List.Forall₂ (fun o r => Occurrence.read c o = .ok r) os rs ∧ v = u.addAll c rs := by
  induction os generalizing u with
  | nil =>
      cases h
      exact ⟨[], .nil, rfl⟩
  | cons o os ih =>
      rw [applyOccurrences] at h
      cases hr : Occurrence.read c o with
      | error e =>
          rw [hr] at h
          cases h
      | ok r =>
          rw [hr] at h
          obtain ⟨rs, hrs, rfl⟩ := ih h
          exact ⟨r :: rs, .cons hr hrs, rfl⟩

/-- **No field that is accepted is lost.** If the body of a composite attribute is accepted, then
each of its occurrences is read into its type as a record that shows what the occurrence says and
nothing else, and these are what the JSON of the user gains. -/
theorem applyBody_adds {u v : User} {c : Composite} {body : List Char}
    (h : u.applyBody c body = (.ok (), v)) :
    ∃ (os : List (List Char)) (ts : List (Record c.payload)), Occurrence.split body = some os ∧
      List.Forall₂ (fun o t => Gathered.readTyped c o = .ok t ∧ Occurrence.IsShownBy c o t.toJson)
        os ts ∧
      u.Gains v c (ts.map Record.toJson) := by
  unfold applyBody at h
  split at h
  · cases h
  · rename_i os hos
    obtain ⟨rs, hrs, rfl⟩ := exists_of_applyOccurrences h
    obtain ⟨hne, -⟩ := Occurrence.split_spec hos
    have hrecords : rs ≠ [] := by
      rintro rfl
      exact hne (List.forall₂_nil_right_iff.mp hrs)
    refine ⟨os, rs.map (Record.stored c.stores), hos, ?_, ?_⟩
    · refine List.forall₂_map_right_iff.mpr (hrs.imp fun o r hr => ⟨?_, ?_⟩)
      · rw [Gathered.readTyped_eq, hr]
        rfl
      · exact Occurrence.isShownBy_of_read hr
    · rw [List.map_map]
      exact u.gains_addAll c hrecords

/-- A given name by a synonym and by its own name, and a family name behind it. -/
theorem applyBody_adds_name :
    ∃ v, empty.applyBody .name
        "\x7bchristianname~Ada~GivenName~Eve\x7d\x7bfamilyname~King\x7d".toList = (.ok (), v) ∧
      ∃ (os : List (List Char)) (ts : List (Record Composite.name.payload)),
        Occurrence.split
          "\x7bchristianname~Ada~GivenName~Eve\x7d\x7bfamilyname~King\x7d".toList = some os ∧
        List.Forall₂ (fun o t => Gathered.readTyped .name o = .ok t ∧
          Occurrence.IsShownBy .name o t.toJson) os ts ∧
        empty.Gains v .name (ts.map Record.toJson) := by
  have hfirst : ∀ x : Except Error Unit × User, x.1.toOption = some () →
      ∃ v, x = (.ok (), v) :=
    fun x hx => ⟨x.2, Prod.ext (toOption_eq_some_iff.mp hx) rfl⟩
  obtain ⟨v, h⟩ := hfirst (empty.applyBody .name
    "\x7bchristianname~Ada~GivenName~Eve\x7d\x7bfamilyname~King\x7d".toList) (by decide +kernel)
  exact ⟨v, h, applyBody_adds h⟩

end User

end Registrar
