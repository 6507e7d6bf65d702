import Registrar.Proofs.Freeform.Phrases
import Registrar.Proofs.Freeform.Reread
import Registrar.Row

/-!
# Rows as attribute strings

A row about a user says the same as an attribute string: one phrase for each cell that has
something to say, in the order of the columns (`Row.text`). A builder goes through the cells and
never reads that text. Both give the same user as long as each phrase ends where its cell ends
(`Row.Fits`).

    orgUnitPath  suspended  emails               a header
    /Sales:EMEA  false      {address~a@b.org}    a row
    orgUnitPath~{/Sales:EMEA}:suspended~{false}:email~{address~a@b.org}

* `User.decodeGroup_phrase` — a cell changes a user as the group of its phrase does.
* `Row.isValid_phrase` — the phrase of a cell that fits is one of the language.
* `Builder.decode_text_of_build` — building a row and decoding its text.
-/

set_option autoImplicit false

namespace Registrar

/-! ## The text of a row -/

namespace Row

/-- Whether a cell stands in the text of its row. That of the key column does not, and an empty
one only if it clears its attribute. -/
def isShown (cell : String × String) : Bool :=
  cell.1 != ObjectType.user.key
    && (!cell.2.isEmpty || ObjectType.user.clearable.contains cell.1)

/-- **The phrase of a cell**: its column with the cell as a body or as a value in braces. -/
def phrase (cell : String × String) : Phrase :=
  match Composite.ofField? cell.1 with
  | some c => .body c c.key.toList cell.2.toList
  | none => .braced cell.1.toList cell.2.toList

/-- The phrases of a row, in the order of its columns. -/
def phrases (cells : List (String × String)) : List Phrase := (cells.filter isShown).map phrase

/-- **The text of a row.** -/
def text (cells : List (String × String)) : String := String.ofList (Phrase.joined (phrases cells))

/-- **Whether the phrase of a cell ends where the cell ends**: a scalar has no closing brace in
front of a colon, and a body that starts with no opening brace has no colon. -/
structure Fits (cell : String × String) : Prop where
  scalar : ∀ s, Slot.ofName? cell.1 = some s → ¬['\x7d', ':'] <:+: cell.2.toList
  composite : ∀ c, Composite.ofField? cell.1 = some c →
    cell.2.toList.head? ≠ some '\x7b' → ':' ∉ cell.2.toList

theorem fits_iff {cell : String × String} :
    Fits cell ↔
      (∀ s ∈ Slot.ofName? cell.1, User.closesEarly cell.2.toList = false) ∧
        ∀ c ∈ Composite.ofField? cell.1,
          cell.2.toList.head? ≠ some '\x7b' → ':' ∉ cell.2.toList := by
  simp only [← Bool.not_eq_true, User.closesEarly_iff]
  exact ⟨fun h => ⟨h.scalar, h.composite⟩, fun h => ⟨h.1, h.2⟩⟩

instance (cell : String × String) : Decidable (Fits cell) := decidable_of_iff' _ fits_iff

theorem phrase_composite (c : Composite) (cell : String) :
    phrase (c.field, cell) = .body c c.key.toList cell.toList := by
  simp only [phrase, c.ofField?_field]

theorem phrase_scalar (s : Slot) (cell : String) :
    phrase (s.field.name, cell) = .braced s.field.name.toList cell.toList := by
  simp only [phrase, s.ofField?_name]

theorem phrases_cons_of_isShown {cell : String × String} (h : isShown cell = true)
    (cells : List (String × String)) : phrases (cell :: cells) = phrase cell :: phrases cells := by
  rw [phrases, List.filter_cons_of_pos h]
  rfl

theorem phrases_cons_of_not_isShown {cell : String × String} (h : isShown cell = false)
    (cells : List (String × String)) : phrases (cell :: cells) = phrases cells := by
  rw [phrases, List.filter_cons_of_neg (Bool.eq_false_iff.mp h)]
  rfl

end Row

/-! ## Cells -/

namespace User

variable {u v : User} {hasher : Hasher} {cell : String × String}

theorem assign_empty {s : Slot} (h : s.field.clearable = true) :
    u.assign hasher s "" = .ok (u.put s ⟨.text "", Field.admits_of_clearable h ""⟩) := by
  cases s <;> first | exact absurd h (by decide) | rfl

/-- **What a cell that is shown does**: it adds the occurrences of a body, or it assigns a
value. -/
theorem exists_of_putCell (hs : Row.isShown cell = true)
    (h : u.putCell hasher cell.1 cell.2 = .ok v) :
    (∃ c : Composite, cell.1 = c.field ∧ settled (u.applyBody c cell.2.toList) = .ok v) ∨
      ∃ s : Slot, cell.1 = s.field.name ∧ u.assign hasher s cell.2 = .ok v := by
  obtain ⟨canonical, cell⟩ := cell
  simp only [Row.isShown, Bool.and_eq_true, Bool.or_eq_true, Bool.not_eq_true'] at hs
  obtain ⟨-, hs⟩ := hs
  unfold putCell at h
  split at h
  · rename_i c hc
    obtain rfl := Composite.field_of_ofField? hc
    rw [c.contains_clearable] at hs
    rw [hs.resolve_right Bool.false_ne_true] at h
    exact Or.inl ⟨c, rfl, h⟩
  · split at h
    · cases h
    · rename_i s hslot
      obtain rfl := Slot.name_of_ofName? hslot
      refine Or.inr ⟨s, rfl, ?_⟩
      split at h
      · -- a cell that is empty is shown because it clears its attribute
        rename_i he
        rw [he, s.contains_clearable] at hs
        have hclear := hs.resolve_left Bool.noConfusion
        rw [dif_pos hclear] at h
        rw [String.isEmpty_iff.mp he, assign_empty hclear]
        exact h
      · exact h

/-- A cell that is not shown leaves the user alone. -/
theorem eq_of_putCell (hk : cell.1 ≠ ObjectType.user.key) (hs : Row.isShown cell = false)
    (h : u.putCell hasher cell.1 cell.2 = .ok v) : v = u := by
  obtain ⟨canonical, cell⟩ := cell
  simp only [Row.isShown, Bool.and_eq_false_iff, bne_eq_false_iff_eq, hk, false_or,
    Bool.or_eq_false_iff, Bool.not_eq_false'] at hs
  obtain ⟨he, hclear⟩ := hs
  unfold putCell at h
  simp only [he, if_true] at h
  split at h
  · cases h
    rfl
  · split at h
    · cases h
    · rename_i s hslot
      obtain rfl := Slot.name_of_ofName? hslot
      rw [s.contains_clearable] at hclear
      simp only [hclear] at h
      cases h
      rfl

theorem decodeGroup_scalar_name (u : User) (hasher : Hasher) (s : Slot) (value : List Char) :
    u.decodeGroup hasher (.scalar s.field.name.toList value)
      = u.assign hasher s (String.ofList value) := by
  rw [decodeGroup_eq, Group.edits_scalar, assign_eq]
  cases s.edit (String.ofList value) <;> rfl

/-- **A cell that is shown changes a user as the group of its phrase does.** -/
theorem decodeGroup_phrase (hs : Row.isShown cell = true)
    (h : u.putCell hasher cell.1 cell.2 = .ok v) :
    u.decodeGroup hasher (Row.phrase cell).group = .ok v := by
  have hcell := exists_of_putCell hs h
  obtain ⟨canonical, cell⟩ := cell
  rcases hcell with ⟨c, rfl, hbody⟩ | ⟨s, rfl, hassign⟩
  · rw [Row.phrase_composite]
    exact hbody
  · rw [Row.phrase_scalar, Phrase.group, decodeGroup_scalar_name, String.ofList_toList]
    exact hassign

theorem exists_split_of_applyBody {c : Composite} {body : List Char}
    (h : settled (u.applyBody c body) = .ok v) : ∃ os, Occurrence.split body = some os := by
  unfold applyBody at h
  split at h
  · cases h
  · exact ⟨_, by assumption⟩

end User

/-- **A body that is split into occurrences has matching braces**, and around every colon if it
has none without braces. -/
theorem Occurrence.balanced_of_split {body : List Char} {os : List (List Char)}
    (h : split body = some os) (hcolon : body.head? ≠ some '\x7b' → ':' ∉ body) :
    Balanced 0 body := by
  unfold split at h
  split at h
  · obtain ⟨rfl, hos⟩ := splitBraced_eq_some_iff.mp h
    exact Group.isBody_iff.mp (isBody_flatMap hos)
  · rename_i hb
    split at h
    · cases h
    · rename_i hbrace
      exact Balanced.of_noBrace (Bool.eq_false_iff.mpr hbrace) (hcolon hb)

/-- **The phrase of a cell that fits is one of the language**, if the cell is taken. -/
theorem Row.isValid_phrase {u v : User} {hasher : Hasher} {cell : String × String}
    (hs : isShown cell = true) (hf : Fits cell) (h : u.putCell hasher cell.1 cell.2 = .ok v) :
    (phrase cell).IsValid := by
  have hcell := User.exists_of_putCell hs h
  obtain ⟨canonical, cell⟩ := cell
  rcases hcell with ⟨c, rfl, hbody⟩ | ⟨s, rfl, -⟩
  · obtain ⟨os, hos⟩ := User.exists_split_of_applyBody hbody
    obtain ⟨hcolon, htilde⟩ := Phrase.any_endsName_iff.mp (Composite.key_table c c.mem_all)
    have hkey : Composite.ofKey? (String.ofList c.key.toList) = some c := by
      rw [String.ofList_toList, c.ofKey?_key]
    rw [phrase_composite]
    exact ⟨hcolon, htilde, hkey, Occurrence.balanced_of_split hos (hf.composite c c.ofField?_field)⟩
  · obtain ⟨-, hkey, hname⟩ := Slot.names_table s s.mem_all
    obtain ⟨hcolon, htilde⟩ := Phrase.any_endsName_iff.mp hname
    rw [phrase_scalar]
    rw [← String.ofList_toList (s := s.field.name)] at hkey
    exact ⟨hcolon, htilde, hkey, hf.scalar s s.ofName?_name⟩

/-! ## Rows -/

/-- **Putting the cells of a row into a user applies the groups of its phrases**, which are all of
the language. -/
theorem User.decodeGroups_phrases {u v : User} {hasher : Hasher} {cells : List (String × String)}
    (hf : ∀ cell ∈ cells, Row.Fits cell) {before key : Option String}
    (h : putCells ObjectType.user.key (User.putCell · hasher) before u cells = .ok (key, v)) :
    (∀ p ∈ Row.phrases cells, p.IsValid) ∧
      u.decodeGroups hasher ((Row.phrases cells).map Phrase.group) = .ok v := by
  -- the cells in front may have changed the user and the key
  induction cells generalizing u before with
  | nil =>
      cases h
      exact ⟨fun p hp => absurd hp List.not_mem_nil, rfl⟩
  | cons cell cells ih =>
      have hfits : ∀ c ∈ cells, Row.Fits c := fun c hc => hf c (List.mem_cons_of_mem _ hc)
      obtain ⟨canonical, text⟩ := cell
      simp only [putCells] at h
      split at h
      · -- the key column is no part of the text
        rename_i hk
        have hs : Row.isShown (canonical, text) = false := by simp [Row.isShown, hk]
        rw [Row.phrases_cons_of_not_isShown hs]
        exact ih hfits h
      · rename_i hk
        split at h
        · cases h
        · rename_i w hw
          obtain ⟨hvalid, hgroups⟩ := ih hfits h
          cases hs : Row.isShown (canonical, text) with
          | false =>
              obtain rfl := eq_of_putCell hk hs hw
              rw [Row.phrases_cons_of_not_isShown hs]
              exact ⟨hvalid, hgroups⟩
          | true =>
              have hp := Row.isValid_phrase hs (hf _ List.mem_cons_self) hw
              rw [Row.phrases_cons_of_isShown hs]
              refine ⟨List.forall_mem_cons.mpr ⟨hp, hvalid⟩, ?_⟩
              simp only [List.map_cons, decodeGroups, decodeGroup_phrase hs hw, hgroups]

theorem Row.phrases_eq_nil {cells : List (String × String)} (hp : ∀ p ∈ phrases cells, p.IsValid)
    (h : text cells = "") : phrases cells = [] := by
  by_contra hne
  have hjoined : Phrase.joined (phrases cells) = [] := by
    rw [← String.toList_ofList (l := Phrase.joined _)]
    exact congrArg String.toList h
  -- phrases make up a text that has groups, and the empty text has none
  cases Phrase.MakeUp.split ⟨hne, hp, hjoined⟩

theorem User.decode_text {u v : User} {hasher : Hasher} {cells : List (String × String)}
    (hp : ∀ p ∈ Row.phrases cells, p.IsValid)
    (h : u.decodeGroups hasher ((Row.phrases cells).map Phrase.group) = .ok v)
    (hne : Row.text cells ≠ "") : u.decode hasher (Row.text cells) = .ok v := by
  have hphrases : Row.phrases cells ≠ [] := by
    intro he
    rw [Row.text, he] at hne
    exact hne rfl
  refine decode_eq_ok_iff_groups.mpr ⟨_, ?_, h⟩
  rw [Row.text, String.toList_ofList]
  exact Phrase.MakeUp.split ⟨hphrases, hp, rfl⟩

/-- The payload of a row about a user comes from its cells. -/
theorem Builder.exists_putCells_of_build {mode : BuildMode} {hasher : Hasher} {header : Header}
    {row : List String} {built : BuiltRow}
    (h : (⟨.user, mode, hasher⟩ : Builder).build header row = .ok built) :
    ∃ u, built.payload = .user u ∧
      putCells ObjectType.user.key (User.putCell · hasher) none User.empty
        (Header.pair header.columns row) = .ok (built.key, u) := by
  unfold build at h
  split at h
  · cases h
  · split at h
    · cases h
    · rename_i key payload hcollect
      obtain ⟨⟨k, u⟩, hcells, he⟩ := map_eq_ok_iff.mp hcollect
      obtain ⟨rfl, rfl⟩ := Prod.mk.inj he
      split at h
      · cases h
      · cases h
        exact ⟨u, rfl, hcells⟩

/-- **Building a row about a user is decoding its text** into the empty user, under any header
and in both modes, if all cells fit. A row whose text is empty gives the empty user. -/
theorem Builder.decode_text_of_build {mode : BuildMode} {hasher : Hasher} {header : Header}
    {row : List String} {built : BuiltRow}
    (h : (⟨.user, mode, hasher⟩ : Builder).build header row = .ok built)
    (hf : ∀ cell ∈ Header.pair header.columns row, Row.Fits cell) :
    ∃ u, built.payload = .user u ∧
      (Row.text (Header.pair header.columns row) ≠ "" →
        User.empty.decode hasher (Row.text (Header.pair header.columns row)) = .ok u) ∧
      (Row.text (Header.pair header.columns row) = "" → u = User.empty) := by
  obtain ⟨u, hu, hcells⟩ := exists_putCells_of_build h
  obtain ⟨hvalid, hgroups⟩ := User.decodeGroups_phrases hf hcells
  refine ⟨u, hu, User.decode_text hvalid hgroups, fun htext => ?_⟩
  rw [Row.phrases_eq_nil hvalid htext] at hgroups
  exact (Except.ok.inj hgroups).symm

/-- A row with a colon in a cell of each kind, a cell that clears, and one that is missing. -/
theorem Builder.decode_text_of_build_sales :
    ∃ header row built u,
      Header.ofCells .user ["userkey", "OrgUnitPath", "recoveryEmail", "Email", "emails", "phone"]
        = .ok header ∧
      row = ["a@b.org", "/Sales:EMEA", "", "\x7bcustomtype~x:y\x7d\x7btype~work\x7d",
        "address~a"] ∧
      (⟨.user, .update, .sha512⟩ : Builder).build header row = .ok built ∧
      (∀ cell ∈ Header.pair header.columns row, Row.Fits cell) ∧
      built.payload = .user u ∧
      Row.text (Header.pair header.columns row)
        = "orgUnitPath~\x7b/Sales:EMEA\x7d:recoveryEmail~\x7b\x7d:"
          ++ "email~\x7bcustomtype~x:y\x7d\x7btype~work\x7d:email~address~a" ∧
      User.empty.decode .sha512 (Row.text (Header.pair header.columns row)) = .ok u := by
  let header : Header :=
    ⟨.user, ["userKey", "orgUnitPath", "recoveryEmail", "emails", "emails", "phones"]⟩
  let row : List String :=
    ["a@b.org", "/Sales:EMEA", "", "\x7bcustomtype~x:y\x7d\x7btype~work\x7d", "address~a"]
  have hheader : Header.ofCells .user
      ["userkey", "OrgUnitPath", "recoveryEmail", "Email", "emails", "phone"] = .ok header :=
    toOption_eq_some_iff.mp (by decide +kernel)
  have htaken :
      ((⟨.user, .update, .sha512⟩ : Builder).build header row).toOption.isSome = true := by
    decide +kernel
  obtain ⟨built, hbuilt⟩ := Option.isSome_iff_exists.mp htaken
  have hbuild := toOption_eq_some_iff.mp hbuilt
  have hfits : ∀ cell ∈ Header.pair header.columns row, Row.Fits cell := by decide +kernel
  obtain ⟨u, hu, hdecode, -⟩ := decode_text_of_build hbuild hfits
  exact ⟨header, row, built, u, hheader, rfl, hbuild, hfits, hu, by decide +kernel,
    hdecode (by decide +kernel)⟩

end Registrar
