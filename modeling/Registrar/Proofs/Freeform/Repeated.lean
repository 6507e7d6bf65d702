import Registrar.Proofs.Freeform.Joining
import Registrar.Proofs.Freeform.Occurrences

/-!
# Occurrences in one group and in several

The occurrences of a composite attribute can stand in the body of one group or in a group each, and
one occurrence without a colon needs no braces:

```text
email~{address~a@b.c}{address~d@e.f~type~work}            one body, split at its braces
email~{address~a@b.c}:email~{address~d@e.f~type~work}     two groups, split at the colon
email~address~a@b.c                                       one occurrence, without braces
```

Whichever way they are given, the occurrences are added one after the other up to the first that is
in error, and that one decides what the error is.

* `Composite.any_endsName_of_ofKey?` — no name of a composite attribute ends early, in any case.
* `User.decodeGroups_braced` — a group for each occurrence.
* `User.decode_repeated` — attribute strings that repeat occurrences or groups.
-/

set_option autoImplicit false

namespace Registrar

/-! ## Names of composite attributes in any case -/

theorem Text.lower_of_endsName {ch : Char} (h : Group.endsName ch = true) : lower ch = [ch] := by
  rcases Bool.or_eq_true_iff.mp h with hc | hc
  · rw [eq_of_beq hc]
    decide
  · rw [eq_of_beq hc]
    decide

namespace Composite

/-- No name that introduces a composite attribute ends early. -/
theorem keys_table : ∀ c ∈ all, ∀ key ∈ c.keys, key.toList.any Group.endsName = false := by
  decide +kernel

/-- **No name of a composite attribute ends early**, in any case. -/
theorem any_endsName_of_ofKey? {key : String} {c : Composite} (h : ofKey? key = some c) :
    key.toList.any Group.endsName = false := by
  have hkey : Text.lowercase key ∈ c.keys := by
    have hfound := List.find?_some h
    exact List.contains_iff_mem.mp hfound
  have hlower := List.any_eq_false.mp (keys_table c c.mem_all _ hkey)
  refine List.any_eq_false.mpr fun ch hch hends => hlower ch ?_ hends
  rw [Text.toList_lowercase, List.mem_flatMap]
  exact ⟨ch, hch, by rw [Text.lower_of_endsName hends]; exact List.mem_singleton_self ch⟩

end Composite

/-! ## Attribute strings with several occurrences -/

/-- A group with occurrences in braces. -/
def Group.ofOccurrences (key : String) (os : List String) : String :=
  key ++ "~" ++ String.join (os.map fun o => "\x7b" ++ o ++ "\x7d")

namespace Group

variable {key : String} {c : Composite}

theorem toList_ofOccurrences (key : String) (os : List String) :
    (ofOccurrences key os).toList
      = key.toList ++ '~' :: (os.map String.toList).flatMap Occurrence.braced := by
  have hbraced : ∀ o : String, ("\x7b" ++ o ++ "\x7d").toList = Occurrence.braced o.toList := by
    intro o
    simp [Occurrence.braced]
  simp [ofOccurrences, List.flatMap_map, hbraced]

theorem spells_body (hk : Composite.ofKey? key = some c) {body : List Char} (hb : IsBody body) :
    (Group.composite c key.toList body).Spells (key.toList ++ '~' :: body) :=
  .body (Composite.any_endsName_of_ofKey? hk) (by rw [String.ofList_toList, hk]) hb

theorem isBody_of_noBrace {o : List Char} (ho : o.any Occurrence.isBrace = false) (hc : ':' ∉ o) :
    IsBody o := by
  induction o with
  | nil => rfl
  | cons ch o ih =>
      obtain ⟨hch, ho⟩ := Bool.or_eq_false_iff.mp ho
      obtain ⟨hopen, hclose⟩ := Bool.or_eq_false_iff.mp hch
      have hcolon : ':' ≠ ch := List.ne_of_not_mem_cons hc
      have hrest : ':' ∉ o := List.not_mem_of_not_mem_cons hc
      -- the depth stays as it is
      have hdepth : depthBehind? 0 ch = some 0 := by
        rw [depthBehind?, if_neg (ne_of_beq_false hopen), if_neg (ne_of_beq_false hclose)]
      exact takeBody_cons_eq_some_iff.mpr
        (Or.inr ⟨fun h => hcolon h.1.symm, 0, hdepth, o, ih ho hrest, rfl⟩)

end Group

/-! ## Decoding -/

namespace User

variable {hasher : Hasher} {c : Composite}

theorem decodeGroup_braced (u : User) (hasher : Hasher) (name : List Char) {o : List Char}
    (ho : o.any Occurrence.isBrace = false) :
    u.decodeGroup hasher (.composite c name (Occurrence.braced o))
      = (Occurrence.read c o).map (u.add c) := by
  have hsplit : Occurrence.split (Occurrence.braced o) = some [o] :=
    Occurrence.split_braced ho []
  rw [decodeGroup, applyBody, hsplit]
  simp only [applyOccurrences]
  cases Occurrence.read c o with
  | error e => rfl
  | ok r => rfl

/-- **A group for each occurrence** adds the occurrences one after the other, up to the first that
is in error. -/
theorem decodeGroups_braced (u : User) (hasher : Hasher) (name : List Char) {os : List (List Char)}
    (h : ∀ o ∈ os, o.any Occurrence.isBrace = false) :
    u.decodeGroups hasher (os.map fun o => .composite c name (Occurrence.braced o))
      = settled (u.applyOccurrences c os) := by
  induction os generalizing u with
  | nil => rfl
  | cons o os ih =>
      have hrest : ∀ p ∈ os, p.any Occurrence.isBrace = false :=
        fun p hp => h p (List.mem_cons_of_mem _ hp)
      rw [List.map_cons, decodeGroups, u.decodeGroup_braced hasher name (h o List.mem_cons_self),
        applyOccurrences]
      cases Occurrence.read c o with
      | error e => rfl
      | ok r => exact ih (u.add c r) hrest

/-- **The group of a body** adds the occurrences of the body. -/
theorem decode_body (u : User) (hasher : Hasher) {key : String}
    (hk : Composite.ofKey? key = some c) {body : List Char} (hb : Group.IsBody body) :
    u.decode hasher (String.ofList (key.toList ++ '~' :: body)) = settled (u.applyBody c body) := by
  have hspells : ∀ p ∈ [(Group.composite c key.toList body, key.toList ++ '~' :: body)],
      p.1.Spells p.2 := by
    intro p hp
    rw [List.mem_singleton.mp hp]
    exact Group.spells_body hk hb
  have hdecode := decode_intercalate hspells (List.cons_ne_nil _ _) hasher u
  rw [List.map_singleton, List.map_singleton, List.intercalate_singleton] at hdecode
  rw [hdecode, decodeGroups, decodeGroup]
  cases settled (u.applyBody c body) <;> rfl

section Braces

variable {key : String} (hk : Composite.ofKey? key = some c) {os : List String} (hne : os ≠ [])
  (h : ∀ o ∈ os, o.toList.any Occurrence.isBrace = false)

include hk hne h

/-- **One group** adds its occurrences one after the other, up to the first that is in error. -/
theorem decode_ofOccurrences (u : User) (hasher : Hasher) :
    u.decode hasher (Group.ofOccurrences key os)
      = settled (u.applyOccurrences c (os.map String.toList)) := by
  have hbrace : ∀ o ∈ os.map String.toList, o.any Occurrence.isBrace = false :=
    List.forall_mem_map.mpr h
  have htext : Group.ofOccurrences key os = String.ofList (key.toList ++ '~' ::
      (os.map String.toList).flatMap Occurrence.braced) := by
    rw [← Group.toList_ofOccurrences, String.ofList_toList]
  have hsplit := Occurrence.split_flatMap (mt List.map_eq_nil_iff.mp hne) hbrace
  rw [htext, u.decode_body hasher hk (Occurrence.isBody_flatMap hbrace), applyBody, hsplit]

/-- **Groups of one occurrence each** do the same. -/
theorem decode_intercalate_ofOccurrences (u : User) (hasher : Hasher) :
    u.decode hasher (":".intercalate (os.map fun o => Group.ofOccurrences key [o]))
      = settled (u.applyOccurrences c (os.map String.toList)) := by
  have hbrace : ∀ o ∈ os.map String.toList, o.any Occurrence.isBrace = false :=
    List.forall_mem_map.mpr h
  -- the groups with their texts
  let ps := (os.map String.toList).map fun o =>
    (Group.composite c key.toList (Occurrence.braced o),
      key.toList ++ '~' :: Occurrence.braced o)
  have hspells : ∀ p ∈ ps, p.1.Spells p.2 := by
    refine List.forall_mem_map.mpr fun o ho => ?_
    have hplain : ∀ p ∈ [o], p.any Occurrence.isBrace = false := by
      intro p hp
      rw [List.mem_singleton.mp hp]
      exact hbrace o ho
    have hbody := Occurrence.isBody_flatMap hplain
    rw [List.flatMap_singleton] at hbody
    exact Group.spells_body hk hbody
  have hps : ps ≠ [] := by simpa [ps] using hne
  have htexts : (os.map fun o => Group.ofOccurrences key [o]).map String.toList
      = ps.map Prod.snd := by
    rw [List.map_map, List.map_map, List.map_map]
    refine List.map_congr_left fun o _ => ?_
    exact (Group.toList_ofOccurrences key [o]).trans (by simp)
  have htext : ":".intercalate (os.map fun o => Group.ofOccurrences key [o])
      = String.ofList ([':'].intercalate (ps.map Prod.snd)) := by
    rw [← htexts, ← String.ofList_toList (s := ":".intercalate _), String.toList_intercalate]
    rfl
  have hgroups : ps.map Prod.fst = (os.map String.toList).map fun o =>
      .composite c key.toList (Occurrence.braced o) := by
    rw [List.map_map]
    rfl
  rw [htext, decode_intercalate hspells hps, hgroups, u.decodeGroups_braced hasher _ hbrace]

end Braces

/-- **An occurrence without a colon** needs no braces. -/
theorem decode_bare (u : User) (hasher : Hasher) {key : String}
    (hk : Composite.ofKey? key = some c) {o : String}
    (ho : o.toList.any Occurrence.isBrace = false) (hc : ':' ∉ o.toList) :
    u.decode hasher (key ++ "~" ++ o) = settled (u.applyOccurrences c [o.toList]) := by
  have htext : key ++ "~" ++ o = String.ofList (key.toList ++ '~' :: o.toList) := by
    apply String.toList_inj.mp
    simp
  rw [htext, u.decode_body hasher hk (Group.isBody_of_noBrace ho hc), applyBody,
    Occurrence.split_of_noBrace ho]

/-- **Repeated occurrences are repeated groups.** The occurrences of a composite attribute are
decoded to the same user or with the same error in one group and in a group each, and an occurrence
without a colon with and without braces. -/
theorem decode_repeated (u : User) (hasher : Hasher) {key : String}
    (hk : Composite.ofKey? key = some c) :
    (∀ os : List String, os ≠ [] → (∀ o ∈ os, o.toList.any Occurrence.isBrace = false) →
      u.decode hasher (Group.ofOccurrences key os)
        = u.decode hasher (":".intercalate (os.map fun o => Group.ofOccurrences key [o]))) ∧
    (∀ o : String, o.toList.any Occurrence.isBrace = false → ':' ∉ o.toList →
      u.decode hasher (key ++ "~" ++ o) = u.decode hasher (Group.ofOccurrences key [o])) := by
  refine ⟨fun os hne h => ?_, fun o ho hc => ?_⟩
  -- both are applying the occurrences one after the other
  · calc u.decode hasher (Group.ofOccurrences key os)
        = settled (u.applyOccurrences c (os.map String.toList)) :=
          decode_ofOccurrences hk hne h u hasher
      _ = u.decode hasher (":".intercalate (os.map fun o => Group.ofOccurrences key [o])) :=
          (decode_intercalate_ofOccurrences hk hne h u hasher).symm
  · have hone : ∀ p ∈ [o], p.toList.any Occurrence.isBrace = false := by
      intro p hp
      rw [List.mem_singleton.mp hp]
      exact ho
    calc u.decode hasher (key ++ "~" ++ o)
        = settled (u.applyOccurrences c [o.toList]) := u.decode_bare hasher hk ho hc
      _ = u.decode hasher (Group.ofOccurrences key [o]) :=
          (decode_ofOccurrences hk (List.cons_ne_nil _ _) hone u hasher).symm

/-- A name given in two parts, the second of which holds a colon, and given once without braces. -/
theorem decode_repeated_name :
    Composite.ofKey? "Name" = some .name ∧
      empty.decode .sha512 "Name~\x7bgivenname~Ada\x7d\x7bfamilyname~King: Lovelace\x7d"
        = empty.decode .sha512
          "Name~\x7bgivenname~Ada\x7d:Name~\x7bfamilyname~King: Lovelace\x7d" ∧
      empty.decode .sha512 "Name~givenname~Ada"
        = empty.decode .sha512 "Name~\x7bgivenname~Ada\x7d" := by
  have hk : Composite.ofKey? "Name" = some .name := by decide +kernel
  have hbrace : ∀ o ∈ ["givenname~Ada", "familyname~King: Lovelace"],
      o.toList.any Occurrence.isBrace = false := by decide
  refine ⟨hk, ?_, ?_⟩
  · exact (decode_repeated empty .sha512 hk).1 ["givenname~Ada", "familyname~King: Lovelace"]
      (List.cons_ne_nil _ _) hbrace
  · exact (decode_repeated empty .sha512 hk).2 "givenname~Ada" (by decide) (by decide)

end User

end Registrar
