import Registrar.Proofs.Freeform.Commuting
import Registrar.Proofs.Freeform.Phrases
import Registrar.Proofs.Freeform.Reachable
import Registrar.Proofs.Freeform.RoundTrip

/-!
# Passwords do not leak

A password in braces may hold any character; only a closing brace in front of a colon ends it.

```
suspended:true:password~{a}b~{c}:givenname~Ada     the password is a}b~{c
suspended:true:password~{}:givenname~Ada           the password is empty
```

Where the groups around it begin and end does not depend on the password, therefore, and neither
does whether the attribute string is in error. The password reaches the hash function and nothing
else: two attribute strings that differ in the password make users that differ in its hash.

* `Edit.parse_withPassword` — a password is one edit among edits that do not depend on it.
* `User.AgreeButPassword.editAll` — users that agree except in the password stay so.
* `User.decode_withPassword` — two passwords in the same place.
-/

set_option autoImplicit false

namespace Registrar

/-! ## A password among other groups -/

/-- The attribute string with a password in braces between two others. -/
def withPassword (a b p : String) : String := a ++ ":password~\x7b" ++ p ++ "\x7d:" ++ b

namespace Group

theorem allEdits_append (gs hs : List Group) :
    allEdits (gs ++ hs) =
      match allEdits gs with
      | .error e => .error e
      | .ok es => (allEdits hs).map (es ++ ·) := by
  induction gs with
  | nil =>
      show allEdits hs = (allEdits hs).map ([] ++ ·)
      cases allEdits hs <;> rfl
  | cons g gs ih =>
      rw [List.cons_append, allEdits_cons, allEdits_cons]
      cases g.edits with
      | error e => rfl
      | ok es =>
          simp only [ih]
          cases allEdits gs with
          | error e => rfl
          | ok fs =>
              simp only [Except.map]
              cases allEdits hs with
              | error e => rfl
              | ok more => simp

theorem split_of_spells {g : Group} {text : List Char} (h : g.Spells text) :
    split text = .ok [g] := by
  have ht : take (text ++ []) = .ok (g, []) := take_of_spells h rfl
  rw [List.append_nil] at ht
  rw [split_eq, ht]

theorem spells_password {p : List Char} (hp : ¬['\x7d', ':'] <:+: p) :
    (Group.scalar Slot.password.field.name.toList p).Spells
      (Slot.password.field.name.toList ++ '~' :: '\x7b' :: (p ++ ['\x7d'])) := by
  obtain ⟨-, hkey, hname⟩ := Slot.names_table .password (Slot.mem_all _)
  refine .braced hname ?_ (Bool.eq_false_iff.mpr fun h => hp (User.closesEarly_iff.mp h))
  rw [String.ofList_toList]
  exact hkey

theorem edits_password (p : String) :
    (Group.scalar Slot.password.field.name.toList p.toList).edits = .ok [.password p] := by
  rw [edits_scalar, String.ofList_toList]
  rfl

/-- **A password is one group**, and the groups around it do not depend on it. -/
theorem split_withPassword {a : String} {gs : List Group} (ha : split a.toList = .ok gs)
    (b : String) {p : String} (hp : ¬['\x7d', ':'] <:+: p.toList) :
    split (withPassword a b p).toList
      = (split b.toList).map
          (gs ++ .scalar Slot.password.field.name.toList p.toList :: ·) := by
  have htext : (withPassword a b p).toList = a.toList ++ ':' ::
      ((Slot.password.field.name.toList ++ '~' :: '\x7b' :: (p.toList ++ ['\x7d']))
        ++ ':' :: b.toList) := by
    simp [withPassword, Slot.field, Field.text]
  rw [htext, split_append ha, split_append (split_of_spells (spells_password hp))]
  cases split b.toList <;> rfl

end Group

namespace Edit

/-- The edits in front of a password and behind it. An attribute string is split before any of
its groups is read, so what is in error behind the password may count before what is in front. -/
def around (gs : List Group) (b : String) : Except Error (List Edit × List Edit) :=
  match Group.split b.toList with
  | .error e => .error e
  | .ok hs =>
      match Group.allEdits gs with
      | .error e => .error e
      | .ok front => (Group.allEdits hs).map (front, ·)

theorem parse_eq {input : String} (h : Text.trim input.toList ≠ []) :
    parse input =
      match Group.split input.toList with
      | .error e => .error e
      | .ok gs => Group.allEdits gs := by
  exact if_neg (by simpa using h)

theorem trim_withPassword (a b p : String) : Text.trim (withPassword a b p).toList ≠ [] :=
  Group.trim_ne_nil (Or.inl (by simp [withPassword]))

/-- **A password is one edit among others that do not depend on it.** -/
theorem parse_withPassword {a : String} {gs : List Group} (ha : Group.split a.toList = .ok gs)
    (b : String) {p : String} (hp : ¬['\x7d', ':'] <:+: p.toList) :
    parse (withPassword a b p)
      = (around gs b).map fun es => es.1 ++ .password p :: es.2 := by
  rw [parse_eq (trim_withPassword a b p), Group.split_withPassword ha b hp, around]
  cases Group.split b.toList with
  | error e => rfl
  | ok hs =>
      simp only [Except.map, Group.allEdits_append, Group.allEdits_cons, Group.edits_password]
      cases Group.allEdits gs with
      | error e => rfl
      | ok front => cases Group.allEdits hs <;> rfl

/-- The edits around a password are ones that attribute strings make. Behind it stands another
password only if a group gives one. -/
theorem around_spec {gs : List Group} {b : String} {front behind : List Edit}
    (h : around gs b = .ok (front, behind)) :
    ∀ e ∈ behind, e.IsMade ∧ (Group.NoPassword b → e.isPassword = false) := by
  unfold around at h
  cases hb : Group.split b.toList with
  | error e => simp [hb] at h
  | ok hs =>
      cases hg : Group.allEdits gs with
      | error e => simp [hb, hg] at h
      | ok es =>
          simp only [hb, hg] at h
          obtain ⟨more, hmore, hpair⟩ := map_eq_ok_iff.mp h
          obtain ⟨-, rfl⟩ := Prod.mk.inj hpair
          -- the text behind the password makes these edits on its own, too
          have hparse : parse b = .ok behind := by
            rw [parse_eq (Group.trim_ne_nil_of_split hb), hb]
            exact hmore
          exact (parse_spec hparse).2

end Edit

/-! ## Users that agree except in the password -/

namespace Record

variable {shape : Shape} {r t : Record shape} {name : String}

theorem get?_put_congr (f : shape.Member) (v : f.val.kind.Value) (h : r.get? name = t.get? name) :
    (r.put f v).get? name = (t.put f v).get? name := by
  rw [get?_put, get?_put, h]

theorem isForced_put_congr (f : shape.Member) (v : f.val.kind.Value)
    (h : r.isForced name = t.isForced name) :
    (r.put f v).isForced name = (t.put f v).isForced name := by
  rw [isForced_put, isForced_put, h]

end Record

namespace User

/-- **Whether two users agree except in the password**: in the other scalars, the way in which
the password was hashed among them, in the names that are forced to be sent, and in all records of
composite attributes. -/
structure AgreeButPassword (u v : User) : Prop where
  scalars : ∀ name, name ≠ "password" → u.scalars.get? name = v.scalars.get? name
  forced : ∀ name, u.scalars.isForced name = v.scalars.isForced name
  records : ∀ c, u.records c = v.records c

theorem agreeButPassword_setPassword (u : User) (hashName hash hash' : String) :
    (u.setPassword hashName hash).AgreeButPassword (u.setPassword hashName hash') where
  scalars name hn := by
    rw [get?_scalars_setPassword, get?_scalars_setPassword, if_neg hn, if_neg hn]
  forced _ := rfl
  records _ := rfl

namespace AgreeButPassword

variable {u v : User}

theorem withoutPassword_eq (h : u.AgreeButPassword v) : u.withoutPassword = v.withoutPassword := by
  refine ext (Record.ext (fun name => ?_) h.forced) h.records
  show (u.scalars.restrict _).get? name = (v.scalars.restrict _).get? name
  rw [Record.get?_restrict, Record.get?_restrict]
  by_cases hn : name = "password"
  · rw [hn]
    rfl
  · rw [h.scalars name hn]

/-- **The password is never written.** -/
theorem encode_eq (h : u.AgreeButPassword v) : u.encode = v.encode := by
  calc u.encode
      = u.withoutPassword.encode := u.encode_withoutPassword.symm
    _ = v.withoutPassword.encode := congrArg encode h.withoutPassword_eq
    _ = v.encode := v.encode_withoutPassword

/-- **One edit** is made to both users in the same way. -/
theorem edit (h : u.AgreeButPassword v) (hasher : Hasher) (e : Edit) :
    (u.edit hasher e).AgreeButPassword (v.edit hasher e) := by
  have hrecords : ∀ c, (u.edit hasher e).records c = (v.edit hasher e).records c := fun c =>
    records_edit_congr hasher e (h.records c)
  cases e with
  | password plain =>
      refine ⟨fun name hn => ?_, h.forced, hrecords⟩
      show (u.setPassword _ _).scalars.get? name = (v.setPassword _ _).scalars.get? name
      rw [get?_scalars_setPassword, get?_scalars_setPassword, h.scalars name hn]
  | add c r => exact ⟨h.scalars, h.forced, hrecords⟩
  | put s w =>
      -- a part of the name stands in a record of its own, and the other scalars are left alone
      have hscalars : ∀ x : User, (x.edit hasher (.put s w)).scalars = (x.put s w).scalars :=
        fun _ => rfl
      cases hs : s.inName with
      | true =>
          refine ⟨fun name hn => ?_, fun name => ?_, hrecords⟩
          · rw [hscalars, hscalars, scalars_put hs, scalars_put hs, h.scalars name hn]
          · rw [hscalars, hscalars, scalars_put hs, scalars_put hs, h.forced]
      | false =>
          refine ⟨fun name hn => ?_, fun name => ?_, hrecords⟩
          · rw [hscalars, hscalars, put_of_not_inName hs, put_of_not_inName hs]
            exact Record.get?_put_congr (s.userMember hs) w (h.scalars name hn)
          · rw [hscalars, hscalars, put_of_not_inName hs, put_of_not_inName hs]
            exact Record.isForced_put_congr (s.userMember hs) w (h.forced name)

/-- **Any edits** are. -/
theorem editAll (h : u.AgreeButPassword v) (hasher : Hasher) (es : List Edit) :
    (u.editAll hasher es).AgreeButPassword (v.editAll hasher es) := by
  induction es generalizing u v with
  | nil => exact h
  | cons e es ih => exact ih (h.edit hasher e)

end AgreeButPassword

theorem get?_password_setPassword (u : User) (hashName hash : String) :
    (u.setPassword hashName hash).scalars.get? "password" = some (.text hash) := by
  rw [get?_scalars_setPassword, if_neg (by decide), if_pos rfl]

theorem get?_password_editAll {hasher : Hasher} {es : List Edit}
    (hes : ∀ e ∈ es, e.IsMade ∧ e.isPassword = false) (u : User) :
    (u.editAll hasher es).scalars.get? "password" = u.scalars.get? "password" := by
  refine editAll_induction (P := fun v => v.scalars.get? "password" = u.scalars.get? "password")
    (fun v e he hv => ?_) rfl
  obtain ⟨hmade, hpass⟩ := hes e he
  rw [← hv]
  cases hmade with
  | password plain => cases hpass
  | put hs _ _ => exact v.get?_scalars_put_of_isSecret hs _ (by decide)
  | add _ _ => rfl

end User

/-! ## Two passwords in the same place -/

/-- A hash function that hides nothing: the text from its end. -/
def Hasher.reversed : Hasher := ⟨"reversed", fun s => String.ofList s.toList.reverse⟩

namespace User

theorem decode_withPassword_eq (hasher : Hasher) (u : User) {a : String} {gs : List Group}
    (ha : Group.split a.toList = .ok gs) (b : String) {p : String}
    (hp : ¬['\x7d', ':'] <:+: p.toList) :
    u.decode hasher (withPassword a b p) = (Edit.around gs b).map fun es =>
      ((u.editAll hasher es.1).setPassword hasher.name (hasher.hash p)).editAll hasher es.2 := by
  rw [decode_eq, Edit.parse_withPassword ha b hp]
  cases Edit.around gs b with
  | error e => rfl
  | ok es => exact congrArg Except.ok (u.editAll_append hasher es.1 (.password p :: es.2))

/-- **Passwords do not leak.** Two attribute strings that differ in a password only are both in
error, in the same way, or make users that agree except in the password. The users are written
alike, and if the passwords have the same hash, they are the same user. If no group behind gives
another password, the hashes are the passwords that the users have. -/
theorem decode_withPassword (hasher : Hasher) (u : User) {a : String} {gs : List Group}
    (ha : Group.split a.toList = .ok gs) (b : String) {p q : String}
    (hp : ¬['\x7d', ':'] <:+: p.toList) (hq : ¬['\x7d', ':'] <:+: q.toList) :
    (∃ e, u.decode hasher (withPassword a b p) = .error e ∧
        u.decode hasher (withPassword a b q) = .error e) ∨
      ∃ v w, u.decode hasher (withPassword a b p) = .ok v ∧
        u.decode hasher (withPassword a b q) = .ok w ∧
        v.AgreeButPassword w ∧ v.encode = w.encode ∧
        (hasher.hash p = hasher.hash q → v = w) ∧
        (Group.NoPassword b → v.scalars.get? "password" = some (.text (hasher.hash p)) ∧
          w.scalars.get? "password" = some (.text (hasher.hash q))) := by
  rw [decode_withPassword_eq hasher u ha b hp, decode_withPassword_eq hasher u ha b hq]
  cases hes : Edit.around gs b with
  | error e => exact Or.inl ⟨e, rfl, rfl⟩
  | ok es =>
      obtain ⟨front, behind⟩ := es
      have hagree := (agreeButPassword_setPassword (u.editAll hasher front) hasher.name
        (hasher.hash p) (hasher.hash q)).editAll hasher behind
      refine Or.inr ⟨_, _, rfl, rfl, hagree, hagree.encode_eq, fun hhash => ?_, fun hno => ?_⟩
      · rw [hhash]
      · -- what stands behind the password leaves it alone
        have hbehind : ∀ e ∈ behind, e.IsMade ∧ e.isPassword = false := by
          intro e he
          obtain ⟨hmade, hpass⟩ := Edit.around_spec hes e he
          exact ⟨hmade, hpass hno⟩
        have hkept : ∀ hash, (((u.editAll hasher front).setPassword hasher.name hash).editAll
            hasher behind).scalars.get? "password" = some (.text hash) := by
          intro hash
          rw [get?_password_editAll hbehind, get?_password_setPassword]
        exact ⟨hkept _, hkept _⟩

/-- A password that holds braces, a tilde and a quotation mark, and the empty one. -/
theorem decode_withPassword_braces :
    Group.split "suspended:true".toList = .ok [.scalar "suspended".toList "true".toList] ∧
      ¬['\x7d', ':'] <:+: "a\x7db~\x7bc:\"".toList ∧ ¬['\x7d', ':'] <:+: "".toList ∧
      Group.NoPassword "givenname~Ada" ∧
      ∃ v w,
        empty.decode Hasher.reversed
          (withPassword "suspended:true" "givenname~Ada" "a\x7db~\x7bc:\"") = .ok v ∧
        empty.decode Hasher.reversed
          (withPassword "suspended:true" "givenname~Ada" "") = .ok w ∧
        v.AgreeButPassword w ∧ v.encode = w.encode ∧
        v.scalars.get? "password" = some (.text "\":c\x7b~b\x7da") ∧
        w.scalars.get? "password" = some (.text "") := by
  have ha : Group.split "suspended:true".toList = .ok [.scalar "suspended".toList "true".toList] :=
    by decide +kernel
  have hp : ¬['\x7d', ':'] <:+: "a\x7db~\x7bc:\"".toList := by decide +kernel
  have hq : ¬['\x7d', ':'] <:+: "".toList := by decide +kernel
  have hb : Group.NoPassword "givenname~Ada" := by decide +kernel
  refine ⟨ha, hp, hq, hb, ?_⟩
  have hok : (empty.decode Hasher.reversed (withPassword "suspended:true" "givenname~Ada"
      "a\x7db~\x7bc:\"")).isOk = true := by decide +kernel
  rcases decode_withPassword Hasher.reversed empty ha "givenname~Ada" hp hq with
    ⟨e, he, -⟩ | ⟨v, w, hv, hw, hagree, hencode, -, hhash⟩
  · rw [he] at hok
    cases hok
  · exact ⟨v, w, hv, hw, hagree, hencode, hhash hb⟩

end User

end Registrar
