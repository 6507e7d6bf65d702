import Registrar.Proofs.Freeform.Added
import Registrar.Proofs.Freeform.Commuting
import Registrar.Proofs.Freeform.Forced
import Registrar.Proofs.Freeform.Joining
import Registrar.Proofs.Freeform.Reachable

/-!
# What an attribute string leaves alone

An attribute string changes what its groups name, and nothing else. What a group names is the
scalar attribute that its name stands for, in any case or by a synonym, or the composite attribute
that the name introduces; of the name of the user it is only the parts that the occurrences name.
The family name and the given name are parts of the name that can be named in both ways.

`User.Framed` says so for a list of groups. It holds of no groups at all (`Framed.refl`), of one
group (`framed_of_decodeGroup`), and of one list of groups behind another (`Framed.append`), so it
holds of every run (`framed_of_decodeGroups`).

* `Occurrence.get?_eq_none_of_read` — a record has values for the fields that are named.
* `User.framed_of_decode` — what an attribute string leaves alone.
-/

set_option autoImplicit false

namespace Registrar

/-! ## What groups name -/

namespace Occurrence

/-- The fields of a composite attribute that an occurrence names. -/
def namedFields (c : Composite) (o : List Char) : List String :=
  ((pairs (o.splitOn '~')).getD []).filterMap fun p =>
    (c.subField? (String.ofList p.1)).map fun f => f.val.name

/-- **The record of an occurrence has values for the fields that are named**, and for no others. -/
theorem get?_eq_none_of_read {c : Composite} {o : List Char} {r : Record c.shape}
    (h : read c o = .ok r) {name : String} (hn : name ∉ namedFields c o) : r.get? name = none := by
  -- what has a value in the end was named on the way
  have hnamed : r.Holds fun n _ => n ∈ namedFields c o := by
    rw [read_eq] at h
    split at h
    · cases h
    · rename_i ps hps
      rw [fill_eq] at h
      obtain ⟨as, hm, rfl⟩ := map_eq_ok_iff.mp h
      refine Record.holds_putAll Record.holds_empty fun a ha => ?_
      obtain ⟨p, hp, hr⟩ := exists_of_mem_mapM hm ha
      rw [namedFields, hps, Option.getD_some, List.mem_filterMap]
      refine ⟨p, hp, ?_⟩
      unfold resolve at hr
      split at hr
      · cases hr
      · rename_i f hf
        obtain ⟨v, -, rfl⟩ := map_eq_ok_iff.mp hr
        rw [hf, Option.map_some]
  cases hget : r.get? name with
  | none => rfl
  | some v => exact absurd (hnamed name v hget) hn

theorem get?_eq_none_of_forall₂ {c : Composite} {os : List (List Char)} {rs : List (Record c.shape)}
    (h : List.Forall₂ (fun o r => read c o = .ok r) os rs) {name : String}
    (hno : ∀ o ∈ os, name ∉ namedFields c o) : ∀ r ∈ rs, r.get? name = none := by
  induction h with
  | nil => exact List.forall_mem_nil _
  | cons hread _ ih =>
      rw [List.forall_mem_cons] at hno
      exact List.forall_mem_cons.mpr ⟨get?_eq_none_of_read hread hno.1, ih hno.2⟩

end Occurrence

theorem Composite.ne_name_of_cardinality {c : Composite} (h : c.cardinality ≠ .merged) :
    c ≠ .name := by
  rintro rfl
  exact h rfl

theorem Edit.touches_put_of_ne {s : Slot} {x : s.field.kind.Value} {c : Composite}
    (h : c ≠ .name) : (Edit.put s x).touches c = false := by
  simp [touches, h]

namespace Group

def slot? : Group → Option Slot
  | .scalar name _ => (Vocabulary.ofUser.get? (String.ofList name)).bind Slot.ofName?
  | .composite _ _ _ => none

def composite? : Group → Option Composite
  | .scalar _ _ => none
  | .composite c _ _ => some c

/-- The occurrences that a group gives for a composite attribute. -/
def occurrences (c : Composite) : Group → List (List Char)
  | .scalar _ _ => []
  | .composite d _ body => if d = c then (Occurrence.split body).getD [] else []

/-- Whether a group names a part of the name, in an occurrence or as a scalar attribute. -/
def NamesPart (part : String) (g : Group) : Prop :=
  (∃ o ∈ g.occurrences .name, part ∈ Occurrence.namedFields .name o) ∨
    ∃ s ∈ g.slot?, s.inName = true ∧ s.field.name = part

instance (part : String) (g : Group) : Decidable (g.NamesPart part) :=
  inferInstanceAs (Decidable ((∃ o ∈ g.occurrences .name, part ∈ Occurrence.namedFields .name o) ∨
    ∃ s ∈ g.slot?, s.inName = true ∧ s.field.name = part))

theorem isPassword_eq_true {g : Group} (h : g.slot? = some .password) : g.isPassword = true := by
  cases g with
  | scalar name value => exact beq_iff_eq.mpr h
  | composite c name body => cases h

end Group

namespace User

/-- **What groups leave alone** in a user, and how much they add to it. -/
structure Framed (gs : List Group) (u v : User) : Prop where
  /-- Lists grow at their end by one record for each occurrence. -/
  grown : ∀ c : Composite, c.cardinality = .list → ∃ more, v.records c = u.records c ++ more ∧
    List.Forall₂ (fun o r => Occurrence.read c o = .ok r) (gs.flatMap (Group.occurrences c)) more
  /-- A single record that is not named stays as it is. -/
  kept : ∀ c : Composite, c.cardinality = .single → (∀ g ∈ gs, g.composite? ≠ some c) →
    v.records c = u.records c
  /-- So does a scalar attribute that is no part of the name, … -/
  scalars : ∀ s : Slot, s.inName = false → (∀ g ∈ gs, g.slot? ≠ some s) → v.get? s = u.get? s
  /-- … and each part of the name. -/
  parts : ∀ part, (∀ g ∈ gs, ¬g.NamesPart part) → v.name.get? part = u.name.get? part
  /-- The password and the name of its hash are changed by a password only. -/
  secret : (∀ g ∈ gs, g.isPassword = false) → ∀ name, isSecret name = true →
    v.scalars.get? name = u.scalars.get? name
  /-- No forced name is forgotten. -/
  forced : ∀ name, u.forced.contains name = true → v.forced.contains name = true

namespace Framed

variable {gs hs : List Group} {u v w : User}

theorem refl (u : User) : Framed [] u u where
  grown _ _ := ⟨[], (List.append_nil _).symm, .nil⟩
  kept _ _ _ := rfl
  scalars _ _ _ := rfl
  parts _ _ := rfl
  secret _ _ _ := rfl
  forced _ h := h

/-- **What groups leave alone, one after the other.** -/
theorem append (h : Framed gs u v) (h' : Framed hs v w) : Framed (gs ++ hs) u w where
  grown c hc := by
    obtain ⟨more, hmore, hread⟩ := h.grown c hc
    obtain ⟨more', hmore', hread'⟩ := h'.grown c hc
    refine ⟨more ++ more', ?_, ?_⟩
    · rw [hmore', hmore, List.append_assoc]
    · rw [List.flatMap_append]
      exact List.rel_append hread hread'
  kept c hc hno := by
    rw [List.forall_mem_append] at hno
    exact (h'.kept c hc hno.2).trans (h.kept c hc hno.1)
  scalars s hs hno := by
    rw [List.forall_mem_append] at hno
    exact (h'.scalars s hs hno.2).trans (h.scalars s hs hno.1)
  parts part hno := by
    rw [List.forall_mem_append] at hno
    exact (h'.parts part hno.2).trans (h.parts part hno.1)
  secret hno name hname := by
    rw [List.forall_mem_append] at hno
    exact (h'.secret hno.2 name hname).trans (h.secret hno.1 name hname)
  forced name hname := h'.forced name (h.forced name hname)

theorem length_records (h : Framed gs u v) {c : Composite} (hc : c.cardinality = .list) :
    (v.records c).length
      = (u.records c).length + (gs.flatMap (Group.occurrences c)).length := by
  obtain ⟨more, hmore, hread⟩ := h.grown c hc
  rw [hmore, List.length_append, hread.length_eq]

end Framed

/-! ## One group -/

variable (hasher : Hasher) {u v : User}

/-- **A password** changes the two fields that it is about. -/
theorem framed_password {g : Group} (hg : g.slot? = some .password)
    (hnone : ∀ c, g.occurrences c = []) (u : User) (plain : String) :
    Framed [g] u (u.edit hasher (.password plain)) where
  grown c _ := ⟨[], (List.append_nil _).symm, by simp [hnone c]⟩
  kept _ _ _ := rfl
  scalars s hs hno := by
    -- no scalar attribute but the password has one of the two fields
    have hne : s ≠ .password := fun e => hno g List.mem_cons_self (e ▸ hg)
    have hpass : s.field.name ≠ "password" := fun e => hne (name_inj (t := .password) e)
    have hhash : s.field.name ≠ "hashFunction" := by cases s <;> decide
    have hget := u.get?_scalars_setPassword hasher.name (hasher.hash plain) s.field.name
    rw [if_neg hhash, if_neg hpass] at hget
    rw [get?, get?, hs, if_neg Bool.false_ne_true, if_neg Bool.false_ne_true]
    exact hget
  parts _ _ := rfl
  secret hno := by
    have hg' := hno g List.mem_cons_self
    rw [Group.isPassword_eq_true hg] at hg'
    cases hg'
  forced _ h := h

/-- **A value that is put in** changes its own attribute. -/
theorem framed_put {g : Group} {s : Slot} (hg : g.slot? = some s) (hs : s ≠ .password)
    (hnone : ∀ c, g.occurrences c = []) (u : User) (x : s.field.kind.Value) :
    Framed [g] u (u.edit hasher (.put s x)) where
  grown c hc := by
    have hname : c ≠ .name := Composite.ne_name_of_cardinality (hc ▸ by decide)
    refine ⟨[], ?_, by simp [hnone c]⟩
    rw [records_edit_of_not_touches hasher (Edit.touches_put_of_ne hname), List.append_nil]
  kept c hc _ := by
    have hname : c ≠ .name := Composite.ne_name_of_cardinality (hc ▸ by decide)
    exact records_edit_of_not_touches hasher (Edit.touches_put_of_ne hname) u
  scalars t _ hno := by
    have hne : t ≠ s := fun e => hno g List.mem_cons_self (e ▸ hg)
    exact (u.get?_put s t x).trans (if_neg hne)
  parts part hno := by
    show (u.put s x).name.get? part = u.name.get? part
    -- the family name and the given name are put into the record of the name
    cases hin : s.inName with
    | false => rw [name, name, records_put hin]
    | true =>
        have hne : part ≠ s.field.name := fun e =>
          hno g List.mem_cons_self (Or.inr ⟨s, hg, hin, e.symm⟩)
        rw [put_of_inName hin, name_setName]
        exact (Record.get?_put _ (s.nameMember hin) x part).trans (if_neg hne)
  secret _ name hname := u.get?_scalars_put_of_isSecret hs x hname
  forced name h := isForced_edit h hasher (.put s x)

theorem name_addAll (u : User) (rs : List (Record Composite.name.shape)) :
    (u.addAll .name rs).name = rs.foldl Record.merge u.name := by
  have hmerged : [(u.addAll .name rs).name] = [rs.foldl Record.merge u.name] :=
    calc [(u.addAll .name rs).name]
        = (u.addAll .name rs).records .name := (records_name _).symm
      _ = rs.foldl (fun old r => Cardinality.merged.store old r) (u.records .name) :=
          u.records_addAll .name rs
      _ = [rs.foldl Record.merge u.name] := by
          rw [records_name, Cardinality.foldl_store_merged]
  exact List.singleton_inj.mp hmerged

/-- **Occurrences** change their own attribute, and of the name the parts that they name. -/
theorem framed_addAll {c : Composite} {name body : List Char} {os : List (List Char)}
    (hos : Occurrence.split body = some os) {rs : List (Record c.shape)}
    (hrs : List.Forall₂ (fun o r => Occurrence.read c o = .ok r) os rs) (u : User) :
    Framed [.composite c name body] u (u.addAll c rs) where
  grown d hd := by
    rw [List.flatMap_singleton, Group.occurrences]
    by_cases hcd : c = d
    · subst hcd
      rw [if_pos rfl, hos, Option.getD_some]
      exact ⟨rs, by rw [records_addAll, hd, Cardinality.foldl_store_list], hrs⟩
    · rw [if_neg hcd]
      exact ⟨[], by rw [u.records_addAll_of_ne rs (Ne.symm hcd), List.append_nil], .nil⟩
  kept d _ hno := by
    have hne : d ≠ c := fun e => hno _ List.mem_cons_self (e ▸ rfl)
    exact u.records_addAll_of_ne rs hne
  scalars s hs _ := by
    rw [get?, get?, hs, if_neg Bool.false_ne_true, if_neg Bool.false_ne_true, scalars_addAll]
  parts part hno := by
    by_cases hc : c = .name
    · subst hc
      rw [name_addAll, Record.get?_foldl_merge]
      -- no record that is merged into the name has a value for the part
      have hnone : rs.reverse.findSome? (·.get? part) = none := by
        refine List.findSome?_eq_none_iff.mpr fun r hr => ?_
        refine Occurrence.get?_eq_none_of_forall₂ hrs (fun o ho hn => ?_) r (List.mem_reverse.mp hr)
        refine hno _ List.mem_cons_self (Or.inl ⟨o, ?_, hn⟩)
        rw [Group.occurrences, if_pos rfl, hos, Option.getD_some]
        exact ho
      rw [hnone, Option.none_or]
    · rw [User.name, User.name, u.records_addAll_of_ne rs (Ne.symm hc)]
  secret _ n _ := by rw [scalars_addAll]
  forced n h := by
    rw [User.forced, scalars_addAll]
    exact h

/-- **What one group leaves alone.** -/
theorem framed_of_decodeGroup {g : Group} (h : u.decodeGroup hasher g = .ok v) :
    Framed [g] u v := by
  rw [decodeGroup_eq] at h
  obtain ⟨es, hes, rfl⟩ := map_eq_ok_iff.mp h
  cases g with
  | composite c name body =>
      simp only [Group.edits, Composite.edits] at hes
      split at hes
      · cases hes
      · rename_i os hos
        obtain ⟨rs, hm, rfl⟩ := map_eq_ok_iff.mp hes
        have hadd : u.editAll hasher (rs.map (.add c)) = u.addAll c rs := List.foldl_map
        rw [hadd]
        exact framed_addAll hos (forall₂_of_mapM hm) u
  | scalar name value =>
      have hnone : ∀ c, (Group.scalar name value).occurrences c = [] := fun _ => rfl
      simp only [Group.edits] at hes
      split at hes
      · cases hes
      · obtain ⟨e, he, rfl⟩ := map_eq_ok_iff.mp hes
        unfold Edit.ofScalar at he
        split at he
        · cases he
        · -- the name of the group stands for a scalar attribute
          rename_i s hs
          rcases Slot.eq_of_edit he with ⟨rfl, rfl⟩ | ⟨hpass, -, x, -, rfl⟩
          · exact framed_password hasher (g := .scalar name value) hs hnone u _
          · exact framed_put hasher (g := .scalar name value) hs hpass hnone u x

/-! ## Runs of groups -/

/-- **What groups leave alone**, however many they are and whatever they name. -/
theorem framed_of_decodeGroups {gs : List Group} (h : u.decodeGroups hasher gs = .ok v) :
    Framed gs u v := by
  -- the first group makes a user that the others start from
  induction gs generalizing u with
  | nil =>
      cases h
      exact .refl _
  | cons g gs ih =>
      rw [decodeGroups] at h
      split at h
      · cases h
      · rename_i w hw
        exact (framed_of_decodeGroup hasher hw).append (ih h)

theorem exists_split_of_decodeGroups {gs : List Group} (h : u.decodeGroups hasher gs = .ok v)
    {c : Composite} {name body : List Char} (hg : .composite c name body ∈ gs) :
    ∃ os, Occurrence.split body = some os := by
  obtain ⟨es, hes⟩ := (u.exists_decodeGroups_iff hasher gs).mp ⟨v, h⟩ _ hg
  simp only [Group.edits, Composite.edits] at hes
  split at hes
  · cases hes
  · rename_i os hos
    exact ⟨os, hos⟩

/-- **An attribute string changes only what it names.** Whatever it is decoded into, its groups
leave alone all that they do not name, each list grows by as many records as occurrences are given
for it, and those are the occurrences that the bodies are made of. -/
theorem framed_of_decode {input : String} (h : u.decode hasher input = .ok v) :
    ∃ gs, Group.split input.toList = .ok gs ∧ Framed gs u v ∧
      (∀ c : Composite, c.cardinality = .list → u.records c <+: v.records c ∧
        (v.records c).length
          = (u.records c).length + (gs.flatMap (Group.occurrences c)).length) ∧
      ∀ c name body, Group.composite c name body ∈ gs → ∃ os, Occurrence.split body = some os := by
  obtain ⟨gs, hgs, hdecode⟩ := decode_eq_ok_iff_groups.mp h
  have hframed := framed_of_decodeGroups hasher hdecode
  refine ⟨gs, hgs, hframed, fun c hc => ⟨?_, hframed.length_records hc⟩, fun c name body hg => ?_⟩
  · obtain ⟨more, hmore, -⟩ := hframed.grown c hc
    exact ⟨more, hmore.symm⟩
  · exact exists_split_of_decodeGroups hasher hdecode hg

/-- Two more addresses and a given name, for a user that has an address and a full name. -/
theorem framed_of_decode_emails :
    ∃ u v, empty.decode .sha512 "email~address~a@b.c:name~fullname~Ada King:orgunitpath:/staff"
        = .ok u ∧
      u.decode .sha512 "EMAIL~\x7baddress~d@e.f\x7d\x7baddress~g@h.i\x7d:christianname:Ada"
        = .ok v ∧
      u.records .email <+: v.records .email ∧
      (v.records .email).length = (u.records .email).length + 2 ∧
      v.get? .orgUnitPath = u.get? .orgUnitPath ∧
      v.name.get? "fullName" = u.name.get? "fullName" := by
  have outcome : ∀ x : Except Error (List Edit), x.toOption.isSome = true → ∃ es, x = .ok es :=
    fun x hx => (Option.isSome_iff_exists.mp hx).imp fun _ => toOption_eq_some_iff.mp
  obtain ⟨es, hes⟩ := outcome
    (Edit.parse "email~address~a@b.c:name~fullname~Ada King:orgunitpath:/staff") (by decide +kernel)
  obtain ⟨fs, hfs⟩ := outcome
    (Edit.parse "EMAIL~\x7baddress~d@e.f\x7d\x7baddress~g@h.i\x7d:christianname:Ada")
    (by decide +kernel)
  have hu := (empty.decode_eq_ok_iff .sha512).mpr ⟨es, hes, rfl⟩
  have hv := ((empty.editAll .sha512 es).decode_eq_ok_iff .sha512).mpr ⟨fs, hfs, rfl⟩
  obtain ⟨gs, hgs, hframed, hlists, -⟩ := framed_of_decode .sha512 hv
  -- the groups of the second text
  have hsplit : Group.split
      "EMAIL~\x7baddress~d@e.f\x7d\x7baddress~g@h.i\x7d:christianname:Ada".toList
        = .ok [.composite .email "EMAIL".toList
            "\x7baddress~d@e.f\x7d\x7baddress~g@h.i\x7d".toList,
          .scalar "christianname".toList "Ada".toList] :=
    toOption_eq_some_iff.mp (by decide +kernel)
  obtain rfl := Except.ok.inj (hsplit.symm.trans hgs)
  obtain ⟨hfront, hlength⟩ := hlists .email rfl
  refine ⟨_, _, hu, hv, hfront, hlength.trans (congrArg _ ?_), ?_, ?_⟩
  · decide +kernel
  · exact hframed.scalars .orgUnitPath rfl (by decide +kernel)
  · exact hframed.parts "fullName" (by decide +kernel)

end User

end Registrar
