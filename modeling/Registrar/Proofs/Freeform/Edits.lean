import Registrar.Proofs.Freeform.Occurrences

/-!
# The edits that an attribute string makes

What an attribute string does to a user does not depend on the user: it makes the same list of
edits to each (`Edit.parse`), and it is in error for all users or for none. An edit gives the user
a password, puts a value into a scalar attribute, or adds an occurrence of a composite one.

* `User.decode_eq` — decoding makes the edits of the attribute string.
* `Edit.parse_spec` — the edits that attribute strings make.
* `User.editAll_induction` — what each edit preserves, attribute strings preserve.
-/

set_option autoImplicit false

namespace Registrar

/-- **One change that an attribute string makes to a user.** -/
inductive Edit where
  | password (plain : String)
  | put (s : Slot) (v : s.field.kind.Value)
  | add (c : Composite) (r : Record c.shape)

namespace User

def edit (hasher : Hasher) (u : User) : Edit → User
  | .password plain => u.setPassword hasher.name (hasher.hash plain)
  | .put s v => u.put s v
  | .add c r => u.add c r

/-- **The user after edits**, made one after the other. -/
def editAll (hasher : Hasher) (u : User) (es : List Edit) : User := es.foldl (edit hasher) u

theorem editAll_append (hasher : Hasher) (u : User) (es fs : List Edit) :
    u.editAll hasher (es ++ fs) = (u.editAll hasher es).editAll hasher fs :=
  List.foldl_append

end User

/-! ## Edits of an attribute string -/

/-- The edit of a scalar attribute that a text is given for. -/
def Slot.edit (s : Slot) (value : String) : Except Error Edit :=
  if s = .password then .ok (.password value)
  else if s = .recoveryPhone ∧ User.isPhone value = false then .error .phoneWithoutPlus
  else (s.field.kind.convert s.field.name value).map (.put s)

/-- The edit of the scalar attribute of a name. -/
def Edit.ofScalar (name value : String) : Except Error Edit :=
  match (Vocabulary.ofUser.get? name).bind Slot.ofName? with
  | none => .error (.unknownAttribute name)
  | some s => s.edit value

/-- The edits of a composite attribute that a body is given for: one for each occurrence. -/
def Composite.edits (c : Composite) (body : List Char) : Except Error (List Edit) :=
  match Occurrence.split body with
  | none => .error .malformedString
  | some os => (os.mapM (Occurrence.read c)).map fun rs => rs.map (.add c)

namespace Group

/-- The edits of a group. -/
def edits : Group → Except Error (List Edit)
  | .composite c _ body => c.edits body
  | .scalar name value =>
      match Composite.ofKey? (String.ofList name) with
      | some _ => .error .missingValue
      | none => (Edit.ofScalar (String.ofList name) (String.ofList value)).map ([·])

def allEdits (gs : List Group) : Except Error (List Edit) := (gs.mapM edits).map List.flatten

theorem allEdits_cons (g : Group) (gs : List Group) :
    allEdits (g :: gs) =
      match g.edits with
      | .error e => .error e
      | .ok es => (allEdits gs).map (es ++ ·) := by
  rw [allEdits, mapM_cons_eq]
  cases g.edits with
  | error e => rfl
  | ok es =>
      rw [allEdits]
      cases gs.mapM edits <;> rfl

end Group

/-- **The edits that an attribute string makes.** -/
def Edit.parse (input : String) : Except Error (List Edit) :=
  if (Text.trim input.toList).isEmpty then .error .malformedString
  else
    match Group.split input.toList with
    | .error e => .error e
    | .ok gs => Group.allEdits gs

/-! ## Decoding makes edits -/

namespace User

variable (hasher : Hasher) (u : User)

theorem assign_eq (s : Slot) (value : String) :
    u.assign hasher s value = (s.edit value).map (u.edit hasher) := by
  unfold assign Slot.edit
  split
  · rfl
  · split
    · rfl
    · cases s.field.kind.convert s.field.name value <;> rfl

theorem setScalar_eq (name value : String) :
    u.setScalar hasher name value = (Edit.ofScalar name value).map (u.edit hasher) := by
  unfold setScalar Edit.ofScalar
  cases (Vocabulary.ofUser.get? name).bind Slot.ofName? with
  | none => rfl
  | some s => exact u.assign_eq hasher s value

theorem settled_applyOccurrences (c : Composite) (os : List (List Char)) :
    settled (u.applyOccurrences c os)
      = (os.mapM (Occurrence.read c)).map fun rs => u.editAll hasher (rs.map (.add c)) := by
  -- once an occurrence is in error, those added before it do not matter
  induction os generalizing u with
  | nil => rfl
  | cons o os ih =>
      rw [mapM_cons_eq, applyOccurrences]
      cases Occurrence.read c o with
      | error e => rfl
      | ok r =>
          simp only [ih]
          cases os.mapM (Occurrence.read c) <;> rfl

theorem settled_applyBody (c : Composite) (body : List Char) :
    settled (u.applyBody c body) = (c.edits body).map (u.editAll hasher) := by
  unfold applyBody Composite.edits
  cases Occurrence.split body with
  | none => rfl
  | some os =>
      simp only [u.settled_applyOccurrences hasher c os]
      cases os.mapM (Occurrence.read c) <;> rfl

theorem decodeGroup_eq (g : Group) :
    u.decodeGroup hasher g = g.edits.map (u.editAll hasher) := by
  cases g with
  | composite c name body => exact u.settled_applyBody hasher c body
  | scalar name value =>
      simp only [decodeGroup, Group.edits]
      cases hk : Composite.ofKey? (String.ofList name) with
      | some c => rfl
      | none =>
          simp only [setScalar_eq]
          cases Edit.ofScalar (String.ofList name) (String.ofList value) <;> rfl

theorem decodeGroups_eq (gs : List Group) :
    u.decodeGroups hasher gs = (Group.allEdits gs).map (u.editAll hasher) := by
  -- the edits of the first group change the user that the others are applied to
  induction gs generalizing u with
  | nil => rfl
  | cons g gs ih =>
      rw [decodeGroups, decodeGroup_eq, Group.allEdits_cons]
      cases g.edits with
      | error e => rfl
      | ok es =>
          simp only [Except.map, ih]
          cases Group.allEdits gs with
          | error e => rfl
          | ok more => exact congrArg Except.ok (u.editAll_append hasher es more).symm

/-- **Groups are decoded exactly if each of them stands for edits.** -/
theorem exists_decodeGroups_iff (gs : List Group) :
    (∃ v, u.decodeGroups hasher gs = .ok v) ↔ ∀ g ∈ gs, ∃ es, g.edits = .ok es := by
  rw [decodeGroups_eq, exists_map_eq_ok_iff, Group.allEdits, exists_map_eq_ok_iff,
    exists_mapM_eq_ok_iff]

/-- **Decoding makes the edits of the attribute string.** -/
theorem decode_eq (input : String) :
    u.decode hasher input = (Edit.parse input).map (u.editAll hasher) := by
  unfold decode Edit.parse
  split
  · rfl
  · cases Group.split input.toList with
    | error e => rfl
    | ok gs => exact u.decodeGroups_eq hasher gs

theorem decode_eq_ok_iff {v : User} {input : String} :
    u.decode hasher input = .ok v ↔ ∃ es, Edit.parse input = .ok es ∧ v = u.editAll hasher es := by
  rw [decode_eq, map_eq_ok_iff]

end User

/-! ## The edits that attribute strings make -/

namespace Slot

theorem eq_of_edit {s : Slot} {value : String} {e : Edit} (h : s.edit value = .ok e) :
    (s = .password ∧ e = .password value) ∨
      (s ≠ .password ∧ (s = .recoveryPhone → User.isPhone value = true) ∧
        ∃ v, s.field.kind.convert s.field.name value = .ok v ∧ e = .put s v) := by
  unfold edit at h
  split at h
  · rename_i hs
    cases h
    exact Or.inl ⟨hs, rfl⟩
  · rename_i hs
    split at h
    · cases h
    · rename_i hp
      refine Or.inr ⟨hs, fun hs' => by simpa [hs'] using hp, ?_⟩
      exact map_eq_ok_iff.mp h

theorem value_of_convert {s : Slot} {field text : String} {v : s.field.kind.Value}
    (h : s.field.kind.convert field text = .ok v) : v.val = .text text ∨ ∃ b, v.val = .flag b := by
  have flag : ∀ w : FieldKind.boolean.Value, ∃ b, w.val = .flag b := by
    rintro ⟨w, hw⟩
    cases w with
    | flag b => exact ⟨b, rfl⟩
    | text t => cases hw
    | number n => cases hw
  cases s
  all_goals first
    | exact Or.inr (flag v)
    | exact Or.inl (by cases h; rfl)

theorem isPhone_asText_of_convert {s : Slot} {field text : String} {v : s.field.kind.Value}
    (h : s.field.kind.convert field text = .ok v)
    (hp : s = .recoveryPhone → User.isPhone text = true) :
    s = .recoveryPhone → User.isPhone v.val.asText = true := by
  rintro rfl
  cases h
  exact hp rfl

end Slot

namespace Edit

/-- **Whether an edit is one that attribute strings make.** -/
inductive IsMade : Edit → Prop where
  | password (plain : String) : IsMade (.password plain)
  | put {s : Slot} {v : s.field.kind.Value} (hs : s ≠ .password)
      (hp : s = .recoveryPhone → User.isPhone v.val.asText = true)
      (hc : User.closesEarly v.val.asText.toList = false) : IsMade (.put s v)
  | add {c : Composite} {as : List (Record.Assignment c.shape)} (hne : as ≠ [])
      (hg : ∀ a ∈ as, Occurrence.IsGiven a) : IsMade (.add c (Record.empty.putAll as))

def isPassword : Edit → Bool
  | .password _ => true
  | _ => false

theorem isMade_of_edit {s : Slot} {value : String} {e : Edit} (h : s.edit value = .ok e)
    (hc : User.closesEarly value.toList = false) : e.IsMade := by
  rcases Slot.eq_of_edit h with ⟨-, rfl⟩ | ⟨hs, hp, v, hv, rfl⟩
  · exact .password value
  · refine .put hs (Slot.isPhone_asText_of_convert hv hp) ?_
    rcases Slot.value_of_convert hv with ht | ⟨b, hb⟩
    · rw [ht]
      exact hc
    · rw [hb]
      exact User.closesEarly_of_noColon (Scalar.asText_chars fun s => by simp).2

theorem isPassword_of_edit {s : Slot} {value : String} {e : Edit} (h : s.edit value = .ok e)
    (hs : s ≠ .password) : e.isPassword = false := by
  rcases Slot.eq_of_edit h with ⟨hs', -⟩ | ⟨-, -, v, -, rfl⟩
  · exact absurd hs' hs
  · rfl

theorem isMade_of_read {c : Composite} {o : List Char} {r : Record c.shape}
    (h : Occurrence.read c o = .ok r) (hbrace : o.any Occurrence.isBrace = false) :
    (Edit.add c r).IsMade := by
  obtain ⟨as, has, rfl, hg⟩ := Occurrence.read_spec h hbrace
  exact .add has hg

theorem isMade_of_edits {c : Composite} {body : List Char} {es : List Edit}
    (h : c.edits body = .ok es) : es ≠ [] ∧ ∀ e ∈ es, e.IsMade ∧ e.isPassword = false := by
  unfold Composite.edits at h
  split at h
  · cases h
  · rename_i os hos
    obtain ⟨hne, hbrace⟩ := Occurrence.split_spec hos
    obtain ⟨rs, hm, rfl⟩ := map_eq_ok_iff.mp h
    refine ⟨fun hnil => ?_, fun e he => ?_⟩
    · have hlen := Cardinality.length_of_mapM hm
      rw [List.map_eq_nil_iff.mp hnil] at hlen
      exact hne (List.length_eq_zero_iff.mp hlen.symm)
    · obtain ⟨r, hr, rfl⟩ := List.mem_map.mp he
      obtain ⟨o, ho, hread⟩ := exists_of_mem_mapM hm hr
      exact ⟨isMade_of_read hread (hbrace o ho), rfl⟩

end Edit

namespace Group

def isPassword : Group → Bool
  | .scalar name _ =>
      (Vocabulary.ofUser.get? (String.ofList name)).bind Slot.ofName? == some .password
  | .composite _ _ _ => false

theorem edits_spec {g : Group} {es : List Edit} (h : g.edits = .ok es) {text : List Char}
    (hg : g.Spells text) :
    es ≠ [] ∧ ∀ e ∈ es, e.IsMade ∧ (g.isPassword = false → e.isPassword = false) := by
  cases g with
  | composite c name body =>
      obtain ⟨hne, hes⟩ := Edit.isMade_of_edits h
      exact ⟨hne, fun e he => ⟨(hes e he).1, fun _ => (hes e he).2⟩⟩
  | scalar name value =>
      simp only [edits] at h
      split at h
      · cases h
      · obtain ⟨e, he, rfl⟩ := map_eq_ok_iff.mp h
        refine ⟨by simp, fun e' he' => ?_⟩
        rw [List.mem_singleton.mp he']
        unfold Edit.ofScalar at he
        split at he
        · cases he
        · -- the name stands for a scalar attribute, which is the password or not
          rename_i s hs
          refine ⟨Edit.isMade_of_edit he (by simpa using hg.closesEarly), fun hp => ?_⟩
          refine Edit.isPassword_of_edit he fun hpass => ?_
          simp [isPassword, hs, hpass] at hp

end Group

/-- Whether no group of an attribute string gives a password. -/
def Group.NoPassword (input : String) : Prop :=
  ∀ gs, split input.toList = .ok gs → ∀ g ∈ gs, g.isPassword = false

instance (input : String) : Decidable (Group.NoPassword input) :=
  decidable_of_iff
    (∀ gs ∈ (Group.split input.toList).toOption, ∀ g ∈ gs, g.isPassword = false)
    (forall_congr' fun _ => imp_congr_left toOption_eq_some_iff)

namespace Edit

/-- **The edits of an attribute string**: at least one, and a password only where a group gives
one. -/
theorem parse_spec {input : String} {es : List Edit} (h : parse input = .ok es) :
    es ≠ [] ∧ ∀ e ∈ es, e.IsMade ∧ (Group.NoPassword input → e.isPassword = false) := by
  unfold parse at h
  split at h
  · cases h
  · cases hs : Group.split input.toList with
    | error e => simp [hs] at h
    | ok gs =>
        simp only [hs] at h
        obtain ⟨hne, hgs⟩ := Group.spells_of_split hs
        obtain ⟨ess, hm, rfl⟩ := map_eq_ok_iff.mp h
        have hspec : ∀ es ∈ ess, ∃ g ∈ gs, g.edits = .ok es ∧ ∃ text, g.Spells text :=
          fun es hes => by
            obtain ⟨g, hg, he⟩ := exists_of_mem_mapM hm hes
            exact ⟨g, hg, he, hgs g hg⟩
        refine ⟨fun hnil => ?_, fun e he => ?_⟩
        · -- there is a first group, and it stands for an edit
          cases ess with
          | nil => exact hne (List.length_eq_zero_iff.mp (Cardinality.length_of_mapM hm).symm)
          | cons es ess =>
              obtain ⟨g, -, he, text, hg⟩ := hspec es List.mem_cons_self
              simp only [List.flatten_cons, List.append_eq_nil_iff] at hnil
              exact (Group.edits_spec he hg).1 hnil.1
        · obtain ⟨es, hes, he⟩ := List.mem_flatten.mp he
          obtain ⟨g, hg, hge, text, hgt⟩ := hspec es hes
          obtain ⟨hmade, hpass⟩ := (Group.edits_spec hge hgt).2 e he
          exact ⟨hmade, fun hno => hpass (hno gs hs g hg)⟩

end Edit

/-- **What each edit preserves, edits preserve.** -/
theorem User.editAll_induction {P : User → Prop} {hasher : Hasher} {es : List Edit}
    (step : ∀ u, ∀ e ∈ es, P u → P (u.edit hasher e)) {u : User} (h : P u) :
    P (u.editAll hasher es) := by
  refine List.foldlRecOn es (edit hasher) h ?_
  intro v hv e he
  exact step v e he hv

end Registrar
