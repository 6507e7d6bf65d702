import Registrar.Freeform.Decoding
import Registrar.Proofs.Freeform.Grammar

/-!
# Attribute strings that are joined

Decoding is a homomorphism: a text that is joined from others by colons is decoded by decoding
these one after the other. It is so because a group ends at the same place whatever follows
behind the next colon.

* `User.decode_eq_ok_iff_groups` — decoding applies the groups of a text.
* `User.decode_intercalate` — decoding texts that spell groups.
* `User.decode_append_eq_ok_iff` — decoding two texts joined by a colon.
-/

set_option autoImplicit false

namespace Registrar.User

/-- **Decoding applies the groups of a text.** A blank text has none. -/
theorem decode_eq_ok_iff_groups {u v : User} {hasher : Hasher} {input : String} :
    u.decode hasher input = .ok v ↔
      ∃ gs, Group.split input.toList = .ok gs ∧ u.decodeGroups hasher gs = .ok v := by
  unfold decode
  split
  · rename_i hblank
    refine iff_of_false (by simp) ?_
    rintro ⟨gs, hs, -⟩
    exact Group.trim_ne_nil_of_split hs (List.isEmpty_iff.mp hblank)
  · cases Group.split input.toList <;> simp

/-- **Decoding the texts of groups applies the groups.** -/
theorem decode_intercalate {ps : List (Group × List Char)} (h : ∀ p ∈ ps, p.1.Spells p.2)
    (hne : ps ≠ []) (hasher : Hasher) (v : User) :
    v.decode hasher (String.ofList ([':'].intercalate (ps.map Prod.snd)))
      = v.decodeGroups hasher (ps.map Prod.fst) := by
  rw [decode, String.toList_ofList,
    List.isEmpty_eq_false_iff.mpr (Group.trim_intercalate_ne_nil h hne),
    Group.split_intercalate h hne]
  rfl

/-- **Decoding two texts joined by a colon is decoding one after the other.** If the first one
gives a user, the whole is taken exactly if the second one is, and gives the same user. -/
theorem decode_append_eq_ok_iff {u v : User} {hasher : Hasher} {a : String}
    (h : u.decode hasher a = .ok v) (b : String) (w : User) :
    u.decode hasher (a ++ ":" ++ b) = .ok w ↔ v.decode hasher b = .ok w := by
  obtain ⟨gs, hs, hgs⟩ := decode_eq_ok_iff_groups.mp h
  have htext : (a ++ ":" ++ b).toList = a.toList ++ ':' :: b.toList := by simp
  rw [decode_eq_ok_iff_groups, decode_eq_ok_iff_groups, htext, Group.split_append hs]
  simp only [map_eq_ok_iff]
  constructor
  · rintro ⟨all, ⟨more, hm, rfl⟩, hw⟩
    rw [decodeGroups_append hgs] at hw
    exact ⟨more, hm, hw⟩
  · rintro ⟨more, hm, hw⟩
    refine ⟨gs ++ more, ⟨more, hm, rfl⟩, ?_⟩
    rw [decodeGroups_append hgs]
    exact hw

/-- A value in braces ends at the same place with and without a group behind it. -/
theorem decode_append_eq_ok_iff_sales :
    ∃ v w, empty.decode .sha512 "orgunitpath~\x7b/Sales:EMEA\x7d" = .ok v ∧
      v.decode .sha512 "suspended:false" = .ok w ∧
        empty.decode .sha512 ("orgunitpath~\x7b/Sales:EMEA\x7d" ++ ":" ++ "suspended:false")
          = .ok w := by
  have ha : empty.decode .sha512 "orgunitpath~\x7b/Sales:EMEA\x7d"
      = .ok (empty.put .orgUnitPath ⟨.text "/Sales:EMEA", rfl⟩) :=
    toOption_eq_some_iff.mp (by decide +kernel)
  have hb : (empty.put .orgUnitPath ⟨.text "/Sales:EMEA", rfl⟩).decode .sha512 "suspended:false"
      = .ok ((empty.put .orgUnitPath ⟨.text "/Sales:EMEA", rfl⟩).put .suspended
          ⟨.flag false, rfl⟩) :=
    toOption_eq_some_iff.mp (by decide +kernel)
  exact ⟨_, _, ha, hb, (decode_append_eq_ok_iff ha "suspended:false" _).mpr hb⟩

end Registrar.User
