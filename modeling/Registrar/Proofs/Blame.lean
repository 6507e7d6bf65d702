import Registrar.Proofs.Checked

/-!
# What errors are about

An error that building a row or decoding an attribute string ends in is about the input, not about
the tables behind it. It is never one of JSON, and a name that it calls unknown is a name that the
input writes: the name of a group, or of a field of an occurrence.

```
emails                       a header with a composite attribute
{adress~a@b.org}             a row: no occurrence of emails has a field adress
```

* `Error.Blames` — what an error may be about.
* `Composite.Misnames`, `Group.Misnames` — the unknown names that a body and a group write.
* `Builder.blames_of_build`, `User.blames_of_decode` — the errors of rows and of attribute strings.
* `checks_never_fail` — both, with and without checks on the way.
-/

set_option autoImplicit false

namespace Registrar

/-! ## Unknown names -/

/-- **Whether an occurrence writes a name** that no field of it has. -/
def Occurrence.Misnames (c : Composite) (occurrence : List Char) (name : String) : Prop :=
  ∃ ps, pairs (occurrence.splitOn '~') = some ps ∧
    ∃ p ∈ ps, String.ofList p.1 = name ∧ c.subField? name = none

/-- **Whether an occurrence of a body writes a name** that no field of it has. -/
def Composite.Misnames (c : Composite) (body : List Char) (name : String) : Prop :=
  ∃ os, Occurrence.split body = some os ∧ ∃ o ∈ os, Occurrence.Misnames c o name

/-- **Whether a group writes a name** that is not known: that of the group, if no scalar attribute
has it, or one in its body. -/
def Group.Misnames : Group → String → Prop
  | .composite c _ body, name => c.Misnames body name
  | .scalar written _, name =>
      String.ofList written = name ∧ (Vocabulary.ofUser.get? name).bind Slot.ofName? = none

/-! ## Errors -/

/-- **Whether an error is about the input**: it is none of JSON, and if it calls a name unknown, it
is one of these names. -/
def Error.Blames (unknown : String → Prop) : Error → Prop
  | .json _ => False
  | .unknownAttribute name => unknown name
  | _ => True

section

variable {unknown unknown' : String → Prop} {e : Error}

theorem Error.Blames.mono (h : ∀ name, unknown name → unknown' name) (he : e.Blames unknown) :
    e.Blames unknown' := by
  cases e with
  | unknownAttribute name => exact h name he
  | json cause => exact he
  | _ => trivial

/-- A text that does not convert is blamed for no name. -/
theorem FieldKind.blames_of_convert {k : FieldKind} {field text : String}
    (h : k.convert field text = .error e) : e.Blames unknown := by
  have hboolean : ∀ {e}, parseBoolean field text = .error e → e.Blames unknown := by
    intro e h
    unfold parseBoolean at h
    split at h
    · cases h
    · split at h
      · cases h
      · cases h
        trivial
  cases k with
  | text => cases h
  | boolean => exact hboolean (map_eq_error_iff.mp h)
  | booleanText => exact hboolean (map_eq_error_iff.mp h)
  | integer =>
      simp only [convert] at h
      split at h
      · cases h
      · cases h
        trivial
  | enum d =>
      have hcheck := map_eq_error_iff.mp h
      unfold Domain.check at hcheck
      split at hcheck
      · cases hcheck
      · cases hcheck
        trivial

/-! ## Occurrences -/

theorem Occurrence.blames_of_fill {c : Composite} {r : Record c.shape}
    {ps : List (List Char × List Char)} (h : fill c r ps = .error e) :
    e.Blames fun name => ∃ p ∈ ps, String.ofList p.1 = name ∧ c.subField? name = none := by
  induction ps generalizing r with
  | nil => cases h
  | cons p ps ih =>
      obtain ⟨name, value⟩ := p
      rw [fill] at h
      split at h
      · rename_i hfield
        cases h
        exact ⟨_, List.mem_cons_self, rfl, hfield⟩
      · split at h
        · rename_i hconvert
          cases h
          exact FieldKind.blames_of_convert hconvert
        · refine (ih h).mono ?_
          rintro name' ⟨p, hp, hname⟩
          exact ⟨p, List.mem_cons_of_mem _ hp, hname⟩

theorem Occurrence.blames_of_read {c : Composite} {o : List Char} (h : read c o = .error e) :
    e.Blames (Misnames c o) := by
  rw [read_eq] at h
  split at h
  · cases h
    trivial
  · rename_i ps hps
    exact (blames_of_fill h).mono fun name hname => ⟨ps, hps, hname⟩

namespace User

variable {u : User} {hasher : Hasher}

theorem blames_of_applyOccurrences {c : Composite} {os : List (List Char)}
    (h : settled (u.applyOccurrences c os) = .error e) :
    e.Blames fun name => ∃ o ∈ os, Occurrence.Misnames c o name := by
  induction os generalizing u with
  | nil => cases h
  | cons o os ih =>
      rw [applyOccurrences] at h
      split at h
      · rename_i hread
        cases h
        exact (Occurrence.blames_of_read hread).mono fun name hname =>
          ⟨o, List.mem_cons_self, hname⟩
      · refine (ih h).mono ?_
        rintro name ⟨o', ho', hname⟩
        exact ⟨o', List.mem_cons_of_mem _ ho', hname⟩

/-- **What a body is blamed for**: the names of fields that its occurrences do not have. -/
theorem blames_of_applyBody {c : Composite} {body : List Char}
    (h : settled (u.applyBody c body) = .error e) : e.Blames (c.Misnames body) := by
  unfold applyBody at h
  split at h
  · cases h
    trivial
  · rename_i os hos
    exact (blames_of_applyOccurrences h).mono fun name hname => ⟨os, hos, hname⟩

/-! ## Attribute strings -/

theorem blames_of_assign {s : Slot} {value : String} (h : u.assign hasher s value = .error e) :
    e.Blames unknown := by
  unfold assign at h
  split at h
  · cases h
  · split at h
    · cases h
      trivial
    · exact FieldKind.blames_of_convert (map_eq_error_iff.mp h)

/-- **What a group is blamed for**: the unknown names that it writes. -/
theorem blames_of_decodeGroup {g : Group} (h : u.decodeGroup hasher g = .error e) :
    e.Blames g.Misnames := by
  cases g with
  | composite c name body => exact blames_of_applyBody h
  | scalar name value =>
      rw [decodeGroup] at h
      split at h
      · cases h
        trivial
      · unfold setScalar at h
        split at h
        · rename_i hname
          cases h
          exact ⟨rfl, hname⟩
        · exact blames_of_assign h

theorem blames_of_decodeGroups {gs : List Group} (h : u.decodeGroups hasher gs = .error e) :
    e.Blames fun name => ∃ g ∈ gs, g.Misnames name := by
  induction gs generalizing u with
  | nil => cases h
  | cons g gs ih =>
      rw [decodeGroups] at h
      split at h
      · rename_i hg
        cases h
        exact (blames_of_decodeGroup hg).mono fun name hname => ⟨g, List.mem_cons_self, hname⟩
      · refine (ih h).mono ?_
        rintro name ⟨g', hg', hname⟩
        exact ⟨g', List.mem_cons_of_mem _ hg', hname⟩

end User

namespace Group

theorem blames_of_takeAfterTilde {name after : List Char}
    (h : takeAfterTilde name after = .error e) : e.Blames unknown := by
  unfold takeAfterTilde at h
  split at h
  · split at h
    · cases h
    · cases h
      trivial
  · split at h
    · split at h
      · cases h
      · cases h
        trivial
    · cases h

theorem blames_of_take {cs : List Char} (h : take cs = .error e) : e.Blames unknown := by
  unfold take at h
  simp only at h
  split at h
  · cases h
    trivial
  · cases h
  · exact blames_of_takeAfterTilde h

theorem blames_of_splitWithin {fuel : Nat} {cs : List Char} (h : splitWithin fuel cs = .error e) :
    e.Blames unknown := by
  induction fuel generalizing cs with
  | zero =>
      cases h
      trivial
  | succ fuel ih =>
      rw [splitWithin] at h
      split at h
      · rename_i hcs
        cases h
        exact blames_of_take hcs
      · split at h
        · cases h
        · exact ih (map_eq_error_iff.mp h)

theorem blames_of_split {cs : List Char} (h : split cs = .error e) : e.Blames unknown :=
  blames_of_splitWithin h

end Group

/-- **What an attribute string is blamed for**: the unknown names that its groups write. -/
theorem User.blames_of_decode {u : User} {hasher : Hasher} {input : String}
    (h : u.decode hasher input = .error e) :
    e.Blames fun name => ∃ ps, Phrase.MakeUp ps input.toList ∧ ∃ p ∈ ps, p.group.Misnames name := by
  unfold decode at h
  split at h
  · cases h
    trivial
  · split at h
    · rename_i hsplit
      cases h
      exact Group.blames_of_split hsplit
    · rename_i groups hsplit
      obtain ⟨ps, hmakeUp, rfl⟩ := Phrase.exists_makeUp hsplit
      refine (blames_of_decodeGroups h).mono ?_
      rintro name ⟨g, hg, hname⟩
      obtain ⟨p, hp, rfl⟩ := List.mem_map.mp hg
      exact ⟨ps, hmakeUp, p, hp, hname⟩

/-! ## Rows -/

theorem Record.blames_of_putCell {shape : Shape} {r : Record shape} {column cell : String}
    (hcolumn : ∃ f : shape.Member, f.val.name = column)
    (h : r.putCell column cell = .error e) : e.Blames unknown := by
  obtain ⟨f, rfl⟩ := hcolumn
  unfold putCell at h
  rw [Shape.member?_name] at h
  simp only at h
  split at h
  · split at h <;> cases h
  · exact FieldKind.blames_of_convert (map_eq_error_iff.mp h)

/-- **What the cell of a column of a user is blamed for**: the names of fields that the occurrences
of a composite attribute do not have. -/
theorem User.blames_of_putCell {u : User} {hasher : Hasher} {column cell : String}
    (hcolumn : (Composite.ofField? column).isSome = true ∨ (Slot.ofName? column).isSome = true)
    (h : u.putCell hasher column cell = .error e) :
    e.Blames fun name => ∃ c : Composite, c.field = column ∧ c.Misnames cell.toList name := by
  unfold putCell at h
  split at h
  · rename_i c hc
    obtain rfl := Composite.field_of_ofField? hc
    split at h
    · cases h
    · exact (blames_of_applyBody h).mono fun name hname => ⟨c, rfl, hname⟩
  · rename_i hfield
    rw [hfield] at hcolumn
    obtain ⟨s, hs⟩ := Option.isSome_iff_exists.mp (hcolumn.resolve_left Bool.false_ne_true)
    rw [hs] at h
    simp only at h
    split at h
    · split at h <;> cases h
    · exact blames_of_assign h

/-- Cells fail because one of them does. -/
theorem exists_of_putCells_error {σ : Type} {keyColumn : String}
    {put : σ → String → String → Except Error σ} {key : Option String} {s : σ}
    {cells : List (String × String)} (h : putCells keyColumn put key s cells = .error e) :
    ∃ cell ∈ cells, cell.1 ≠ keyColumn ∧ ∃ s, put s cell.1 cell.2 = .error e := by
  induction cells generalizing key s with
  | nil => cases h
  | cons cell cells ih =>
      obtain ⟨column, text⟩ := cell
      rw [putCells] at h
      split at h
      · obtain ⟨cell, hcell, hput⟩ := ih h
        exact ⟨cell, List.mem_cons_of_mem _ hcell, hput⟩
      · rename_i hkey
        split at h
        · rename_i hput
          cases h
          exact ⟨_, List.mem_cons_self, hkey, s, hput⟩
        · obtain ⟨cell, hcell, hput⟩ := ih h
          exact ⟨cell, List.mem_cons_of_mem _ hcell, hput⟩

namespace Builder

/-- The unknown names that the cells of a row write. Only cells of composite attributes of a user
write names. -/
def Misnames (b : Builder) (header : Header) (row : List String) (name : String) : Prop :=
  b.object = .user ∧
    ∃ (c : Composite) (cell : String), header.Reads row c.field cell ∧ c.Misnames cell.toList name

theorem blames_of_collect {b : Builder} {names row : List String} {header : Header}
    (hheader : Header.ofCells b.object names = .ok header)
    (h : b.collect (Header.pair header.columns row) = .error e) :
    e.Blames (b.Misnames header row) := by
  obtain ⟨object, mode, hasher⟩ := b
  cases object with
  | flat type =>
      rw [collect_flat] at h
      obtain ⟨cell, hcell, hkey, r, hput⟩ := exists_of_putCells_error (map_eq_error_iff.mp h)
      have hreads : header.Reads row cell.1 cell.2 := Header.reads_iff.mpr hcell
      have hfield := (FlatRow.eq_key_or_exists_field hheader hreads).resolve_left hkey
      exact Record.blames_of_putCell hfield hput
  | user =>
      obtain ⟨cell, hcell, hkey, u, hput⟩ := exists_of_putCells_error (map_eq_error_iff.mp h)
      have hknown := Header.isKnown_of_mem_pair hheader hcell hkey
      refine (User.blames_of_putCell hknown hput).mono ?_
      rintro name ⟨c, hfield, hname⟩
      exact ⟨rfl, c, cell.2, Header.reads_iff.mpr (hfield ▸ hcell), hname⟩

/-- **What a row under an accepted header is blamed for**: the unknown names that its cells
write. -/
theorem blames_of_build {b : Builder} {names row : List String} {header : Header}
    (hheader : Header.ofCells b.object names = .ok header)
    (h : b.build header row = .error e) : e.Blames (b.Misnames header row) := by
  unfold build at h
  split at h
  · cases h
    trivial
  · split at h
    · rename_i hcollect
      cases h
      exact blames_of_collect hheader hcollect
    · split at h
      · cases h
        trivial
      · cases h

end Builder

end

/-! ## Checks -/

/-- **No check fails that is not about the input.** Building a row under an accepted header and
decoding an attribute string give the same with all checks on the way as without. What they gather
by the tables of fields is read into the types of payloads, and yet they never end in an error of
JSON. They call a name unknown only if it is written in the input: by a cell of a composite
attribute of a user, or as the name of a group or in the body of one. -/
theorem checks_never_fail :
    (∀ (b : Builder) (names : List String) (header : Header) (row : List String),
      Header.ofCells b.object names = .ok header →
        b.buildChecked header row = b.build header row ∧
        (∀ cause, b.build header row ≠ .error (.json cause)) ∧
        ∀ name, b.build header row = .error (.unknownAttribute name) →
          b.object = .user ∧ ∃ (c : Composite) (cell : String),
            header.Reads row c.field cell ∧ c.Misnames cell.toList name) ∧
    ∀ (u : User) (hasher : Hasher) (input : String),
      u.decodeChecked hasher input = u.decode hasher input ∧
      (∀ cause, u.decode hasher input ≠ .error (.json cause)) ∧
      ∀ name, u.decode hasher input = .error (.unknownAttribute name) →
        ∃ ps, Phrase.MakeUp ps input.toList ∧ ∃ p ∈ ps, p.group.Misnames name := by
  constructor
  · intro b names header row hheader
    have hblames : ∀ e, b.build header row = .error e → e.Blames (b.Misnames header row) :=
      fun e => Builder.blames_of_build hheader
    exact ⟨Builder.buildChecked_eq hheader row, fun cause h => hblames _ h,
      fun name h => hblames _ h⟩
  · intro u hasher input
    have hblames : ∀ e, u.decode hasher input = .error e → e.Blames fun name =>
        ∃ ps, Phrase.MakeUp ps input.toList ∧ ∃ p ∈ ps, p.group.Misnames name :=
      fun e => User.blames_of_decode
    exact ⟨u.decodeChecked_eq hasher input, fun cause h => hblames _ h, fun name h => hblames _ h⟩

/-- A row and an attribute string that misspell a field of an occurrence. -/
theorem checks_never_fail_misspelled :
    ∃ (header : Header) (c : Composite) (cell : String) (ps : List Phrase),
      Header.ofCells .user ["userKey", "email"] = .ok header ∧
      (⟨.user, .update, .sha512⟩ : Builder).buildChecked header
        ["a@b.org", "\x7badress~c@d.org\x7d"] = .error (.unknownAttribute "adress") ∧
      header.Reads ["a@b.org", "\x7badress~c@d.org\x7d"] c.field cell ∧
      c.Misnames cell.toList "adress" ∧
      User.empty.decodeChecked .sha512 "suspended~true:email~adress~c@d.org"
        = .error (.unknownAttribute "adress") ∧
      Phrase.MakeUp ps "suspended~true:email~adress~c@d.org".toList ∧
      ∃ p ∈ ps, p.group.Misnames "adress" := by
  let b : Builder := ⟨.user, .update, .sha512⟩
  let row := ["a@b.org", "\x7badress~c@d.org\x7d"]
  let header : Header := ⟨.user, ["userKey", "emails"]⟩
  have hheader : Header.ofCells b.object ["userKey", "email"] = .ok header :=
    toOption_eq_some_iff.mp (by decide +kernel)
  have hbuild : b.build header row = .error (.unknownAttribute "adress") :=
    error?_eq_some_iff.mp (by decide +kernel)
  have hdecode : User.empty.decode .sha512 "suspended~true:email~adress~c@d.org"
      = .error (.unknownAttribute "adress") :=
    error?_eq_some_iff.mp (by decide +kernel)
  obtain ⟨hrows, hstrings⟩ := checks_never_fail
  obtain ⟨hchecked, -, hrow⟩ := hrows b _ header row hheader
  obtain ⟨-, c, cell, hreads, hmisnames⟩ := hrow _ hbuild
  obtain ⟨hcheckedString, -, hstring⟩ :=
    hstrings User.empty .sha512 "suspended~true:email~adress~c@d.org"
  obtain ⟨ps, hmakeUp, hgroups⟩ := hstring _ hdecode
  exact ⟨header, c, cell, ps, hheader, hchecked.trans hbuild, hreads, hmisnames,
    hcheckedString.trans hdecode, hmakeUp, hgroups⟩

end Registrar
