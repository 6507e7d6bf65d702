import Registrar.Proofs.Freeform.Grammar
import Registrar.Proofs.Gathered

/-!
# Records and the occurrences that describe them

An occurrence is read by filling an empty record with the values of its fields, in order. The
text of a record (`Record.text`) is the occurrence that names each of its values once. Reading it
gives the record back, marked, if its values are canonical; it gives some record exactly if the
values are known.

* `Occurrence.splitBraced_eq_some_iff`, `Occurrence.split_spec` — the occurrences of a body.
* `Occurrence.read_spec` — what an occurrence is read as.
* `Record.read_text`, `Record.exists_read_text_iff` — reading the text of a record.
-/

set_option autoImplicit false

namespace Registrar

/-! ## Bodies -/

namespace Occurrence

/-- An occurrence in braces. -/
def braced (o : List Char) : List Char := '\x7b' :: (o ++ ['\x7d'])

theorem splitBraced_append {o : List Char} (ho : o.any isBrace = false) (cs : List Char) :
    splitBraced (braced o ++ cs) = (splitBraced cs).map (o :: ·) := by
  simp [braced, splitBraced, splitOpen_append ho]

/-- An occurrence that is open ends at the first closing brace. -/
theorem splitOpen_spec {cs : List Char} {os : List (List Char)} (h : splitOpen cs = some os) :
    ∃ o rest more, cs = o ++ '\x7d' :: rest ∧ o.any isBrace = false ∧
      splitBraced rest = some more ∧ os = o :: more := by
  induction cs generalizing os with
  | nil => simp [splitOpen] at h
  | cons c cs ih =>
      simp only [splitOpen] at h
      split at h
      · rename_i hc
        subst hc
        obtain ⟨more, hm, rfl⟩ := Option.map_eq_some_iff.mp h
        exact ⟨[], cs, more, rfl, rfl, hm, rfl⟩
      · rename_i hclose
        split at h
        · cases h
        · rename_i hopen
          obtain ⟨os', hos, rfl⟩ := Option.map_eq_some_iff.mp h
          obtain ⟨o, rest, more, rfl, ho, hm, rfl⟩ := ih hos
          -- the character belongs to the occurrence that is open
          refine ⟨c :: o, rest, more, rfl, ?_, hm, rfl⟩
          simp [isBrace, hopen, hclose] at ho ⊢
          exact ho

theorem splitBraced_of_flatMap {os : List (List Char)} (h : ∀ o ∈ os, o.any isBrace = false) :
    splitBraced (os.flatMap braced) = some os := by
  induction os with
  | nil => simp [splitBraced]
  | cons o os ih =>
      rw [List.flatMap_cons, splitBraced_append (h o List.mem_cons_self),
        ih fun p hp => h p (List.mem_cons_of_mem _ hp)]
      rfl

/-- **Occurrences in braces are told apart** exactly if the text is made of them. -/
theorem splitBraced_eq_some_iff {cs : List Char} {os : List (List Char)} :
    splitBraced cs = some os ↔ cs = os.flatMap braced ∧ ∀ o ∈ os, o.any isBrace = false := by
  constructor
  · -- the text behind an occurrence is shorter, so the induction is on the length of the text
    induction hn : cs.length using Nat.strongRecOn generalizing cs os with
    | ind n ih =>
        intro h
        cases cs with
        | nil =>
            simp only [splitBraced, Option.some.injEq] at h
            subst h
            simp
        | cons c cs =>
            simp only [splitBraced] at h
            split at h
            · rename_i hc
              subst hc
              obtain ⟨o, rest, more, rfl, ho, hm, rfl⟩ := splitOpen_spec h
              have hlt : rest.length < n := by
                subst hn
                simp only [List.length_cons, List.length_append]
                omega
              obtain ⟨rfl, hmore⟩ := ih rest.length hlt rfl hm
              refine ⟨by simp [braced], fun p hp => ?_⟩
              rcases List.mem_cons.mp hp with rfl | hp
              · exact ho
              · exact hmore p hp
            · cases h
  · rintro ⟨rfl, h⟩
    exact splitBraced_of_flatMap h

theorem split_flatMap {os : List (List Char)} (hne : os ≠ [])
    (h : ∀ o ∈ os, o.any isBrace = false) : split (os.flatMap braced) = some os := by
  obtain ⟨o, rest, rfl⟩ := List.exists_cons_of_ne_nil hne
  have hhead : ((o :: rest).flatMap braced).head? = some '\x7b' := rfl
  rw [split, if_pos hhead, splitBraced_of_flatMap h]

/-- **A body has at least one occurrence, and braces stand in none.** -/
theorem split_spec {body : List Char} {os : List (List Char)} (h : split body = some os) :
    os ≠ [] ∧ ∀ o ∈ os, o.any isBrace = false := by
  unfold split at h
  split at h
  · rename_i hb
    obtain ⟨rfl, hos⟩ := splitBraced_eq_some_iff.mp h
    refine ⟨fun e => ?_, hos⟩
    subst e
    cases hb
  · split at h
    · cases h
    · rename_i hb
      cases h
      simpa using hb

theorem takeBody_open {o : List Char} (ho : o.any isBrace = false) (cs : List Char) :
    Group.takeBody 1 (o ++ '\x7d' :: cs)
      = (Group.takeBody 0 cs).map fun (body, rest) => (o ++ '\x7d' :: body, rest) := by
  induction o with
  | nil => simp [Group.takeBody]
  | cons c o ih =>
      simp only [List.any_cons, Bool.or_eq_false_iff, isBrace, beq_eq_false_iff_ne] at ho
      obtain ⟨⟨h₁, h₂⟩, ho⟩ := ho
      have ih := ih (by simpa [isBrace] using ho)
      simp only [List.cons_append, Group.takeBody, h₁, h₂, ih, if_false]
      cases Group.takeBody 0 cs <;> simp

/-- **Occurrences in braces are the body of a group.** -/
theorem isBody_flatMap {os : List (List Char)} (h : ∀ o ∈ os, o.any isBrace = false) :
    Group.IsBody (os.flatMap braced) := by
  induction os with
  | nil => rfl
  | cons o os ih =>
      have ho := h o List.mem_cons_self
      have hos : Group.takeBody 0 (os.flatMap braced) = some (os.flatMap braced, []) :=
        ih fun p hp => h p (List.mem_cons_of_mem _ hp)
      simp [Group.IsBody, braced, Group.takeBody, takeBody_open ho, hos]

/-! ## Names and values -/

theorem pairs_flatMap (ps : List (List Char × List Char)) :
    pairs (ps.flatMap fun p => [p.1, p.2]) = some ps := by
  induction ps with
  | nil => rfl
  | cons p ps ih => simp [pairs, ih]

theorem pairs_spec : ∀ {tokens : List (List Char)} {ps : List (List Char × List Char)},
    pairs tokens = some ps → tokens = ps.flatMap fun p => [p.1, p.2]
  | [], ps, h => by
      cases h
      rfl
  | [_], ps, h => by cases h
  | name :: value :: rest, ps, h => by
      obtain ⟨more, hm, rfl⟩ := Option.map_eq_some_iff.mp h
      simp [← pairs_spec hm]

/-! ## Reading -/

/-- The field that a name stands for, with the value that a text stands for. -/
def resolve (c : Composite) (p : List Char × List Char) :
    Except Error (Record.Assignment c.shape) :=
  match c.subField? (String.ofList p.1) with
  | none => .error (.unknownAttribute (String.ofList p.1))
  | some f => (f.val.kind.convert f.val.name (String.ofList p.2)).map fun v => ⟨f, v⟩

/-- **Names and values are resolved one by one, and fill the record in order.** -/
theorem fill_eq (c : Composite) (r : Record c.shape) (ps : List (List Char × List Char)) :
    fill c r ps = (ps.mapM (resolve c)).map r.putAll := by
  induction ps generalizing r with
  | nil => rfl
  | cons p ps ih =>
      obtain ⟨name, value⟩ := p
      rw [mapM_cons_eq]
      simp only [fill, resolve]
      cases c.subField? (String.ofList name) with
      | none => rfl
      | some f =>
          cases hv : f.val.kind.convert f.val.name (String.ofList value) with
          | error e => simp [hv, Except.map]
          | ok v =>
              simp only [ih, hv, Except.map]
              cases ps.mapM (resolve c) <;> rfl

/-- Whether a value is one that an occurrence can give to a field. -/
def IsGiven {shape : Shape} (a : Record.Assignment shape) : Prop :=
  ∃ text : String, Text.isPlain text.toList = true ∧
    a.1.val.kind.convert a.1.val.name text = .ok a.2

/-- Between the tildes of an occurrence no reserved character is left. -/
theorem isPlain_of_mem_splitOn {o t : List Char} (ho : o.any isBrace = false)
    (h : t ∈ o.splitOn '~') : Text.isPlain t = true := by
  induction o generalizing t with
  | nil =>
      have ht : t = [] := by simpa [List.splitOn_nil] using h
      subst ht
      rfl
  | cons c cs ih =>
      simp only [List.any_cons, Bool.or_eq_false_iff] at ho
      obtain ⟨hc, hcs⟩ := ho
      rw [List.splitOn_cons_eq_if_modifyHead] at h
      split at h
      · rcases List.mem_cons.mp h with rfl | h
        · rfl
        · exact ih hcs h
      · -- a character that is no tilde goes in front of the first part
        rename_i htilde
        obtain ⟨r, rs, hr⟩ := List.exists_cons_of_ne_nil (List.splitOn_ne_nil '~' cs)
        rw [hr, List.modifyHead_cons] at h
        rcases List.mem_cons.mp h with rfl | h
        · have hplain := ih hcs (hr ▸ List.mem_cons_self)
          simp only [Text.isPlain, List.any_cons, User.isReserved, hc, htilde] at hplain ⊢
          simpa using hplain
        · exact ih hcs (hr ▸ List.mem_cons_of_mem _ h)

/-- **What an occurrence is read as**: an empty record filled with at least one value, each one
converted from a text without reserved characters. -/
theorem read_spec {c : Composite} {o : List Char} {r : Record c.shape} (h : read c o = .ok r)
    (ho : o.any isBrace = false) :
    ∃ as : List (Record.Assignment c.shape), as ≠ [] ∧ r = Record.empty.putAll as ∧
      ∀ a ∈ as, IsGiven a := by
  rw [read_eq] at h
  split at h
  · cases h
  · rename_i ps hp
    have htokens := pairs_spec hp
    -- even an empty text has one token between tildes
    have hps : ps ≠ [] := by
      rintro rfl
      exact List.splitOn_ne_nil '~' o htokens
    rw [fill_eq] at h
    obtain ⟨as, hm, rfl⟩ := map_eq_ok_iff.mp h
    refine ⟨as, ?_, rfl, fun a ha => ?_⟩
    · rintro rfl
      exact hps (List.length_eq_zero_iff.mp (Cardinality.length_of_mapM hm).symm)
    · obtain ⟨p, hp, hr⟩ := exists_of_mem_mapM hm ha
      refine ⟨String.ofList p.2, ?_, ?_⟩
      · rw [String.toList_ofList]
        refine isPlain_of_mem_splitOn ho ?_
        rw [htokens, List.mem_flatMap]
        exact ⟨p, hp, by simp⟩
      · unfold resolve at hr
        split at hr
        · cases hr
        · obtain ⟨v, hv, rfl⟩ := map_eq_ok_iff.mp hr
          exact hv

end Occurrence

/-! ## Values of records -/

namespace Record

variable {shape : Shape}

/-- Whether no value of a record holds a reserved character. -/
def IsPlain (r : Record shape) : Prop := r.Holds fun _ v => Text.isPlain v.asText.toList = true

/-- Whether every value of a record is one that conversion gives. -/
def IsCanonical (r : Record shape) : Prop :=
  ∀ f : shape.Member, ∀ v, r.get? f.val.name = some v → f.val.kind.IsCanonical v

/-- Whether conversion takes the text of every value of a record. -/
def IsKnown (r : Record shape) : Prop :=
  ∀ f : shape.Member, ∀ v, r.get? f.val.name = some v → f.val.kind.Knows v

/-- What asks something only of values of domains need be checked for those only. -/
theorem forall_kind_iff {c : Composite} {r : Record c.shape} {P : FieldKind → Scalar → Prop}
    (hP : ∀ k v, (∀ d, k ≠ .enum d) → k ≠ .booleanText → P k v) :
    (∀ f : c.shape.Member, ∀ v, r.get? f.val.name = some v → P f.val.kind v) ↔
      ∀ (f : c.shape.Member) (d : Domain), f.val.kind = .enum d →
        ∀ text, r.get? f.val.name = some (.text text) → P (.enum d) (.text text) := by
  constructor
  · intro h f d hd text hget
    exact hd ▸ h f _ hget
  · intro h f v hget
    by_cases hk : ∃ d, f.val.kind = .enum d
    · -- the value is one that the field admits, so it is a text
      obtain ⟨d, hd⟩ := hk
      obtain ⟨g, hg, hv⟩ := Shape.exists_member_of_admits (admits_of_get? hget)
      rw [Shape.member_ext hg, hd] at hv
      rw [hd]
      cases v with
      | text s => exact h f d hd s hget
      | flag b => cases hv
      | number n => cases hv
    · have hkind := Composite.kind_table c c.mem_all f.val (c.mem_fields f)
      exact hP _ v (fun d hd => hk ⟨d, hd⟩) hkind

theorem isCanonical_iff {c : Composite} {r : Record c.shape} :
    r.IsCanonical ↔ ∀ (f : c.shape.Member) (d : Domain), f.val.kind = .enum d →
      ∀ text, r.get? f.val.name = some (.text text) → text ∈ d.values := by
  refine forall_kind_iff fun k v hk hb => ?_
  cases k with
  | enum d => exact absurd rfl (hk d)
  | booleanText => exact absurd rfl hb
  | text => trivial
  | boolean => trivial
  | integer => trivial

theorem isKnown_iff {c : Composite} {r : Record c.shape} :
    r.IsKnown ↔ ∀ (f : c.shape.Member) (d : Domain), f.val.kind = .enum d →
      ∀ text, r.get? f.val.name = some (.text text) → (d.get? text).isSome = true := by
  refine forall_kind_iff fun k v hk hb => ?_
  cases k with
  | enum d => exact absurd rfl (hk d)
  | booleanText => exact absurd rfl hb
  | text => trivial
  | boolean => trivial
  | integer => trivial

/-- The names and values of a record, in order. -/
def tokens (r : Record shape) : List (List Char × List Char) :=
  r.values.entries.map fun e => (e.1.toList, e.2.asText.toList)

/-- **The occurrence that names each value of a record once.** -/
def text (r : Record shape) : List Char :=
  ['~'].intercalate (r.tokens.flatMap fun p => [p.1, p.2])

theorem tokens_ne_nil {r : Record shape} (h : r.isEmpty = false) : r.tokens ≠ [] := by
  intro e
  have : r.values.entries = [] := List.map_eq_nil_iff.mp e
  simp [isEmpty, NameMap.isEmpty, this] at h

end Record

/-! ## Reading the text of a record -/

namespace Record

variable {c : Composite} {r : Record c.shape}

theorem isPlain_of_mem_tokens (hp : r.IsPlain) {p : List Char × List Char} (h : p ∈ r.tokens) :
    Text.isPlain p.1 = true ∧ Text.isPlain p.2 = true := by
  obtain ⟨⟨name, v⟩, he, rfl⟩ := List.mem_map.mp h
  obtain ⟨f, rfl, -⟩ := Shape.exists_member_of_admits (r.conforms _ he)
  exact ⟨c.isPlain_name f, hp _ _ (NameMap.mem_entries_iff.mp he)⟩

theorem isPlain_of_mem_flatMap (hp : r.IsPlain) {t : List Char}
    (h : t ∈ r.tokens.flatMap fun p => [p.1, p.2]) : Text.isPlain t = true := by
  obtain ⟨p, hm, ht⟩ := List.mem_flatMap.mp h
  obtain ⟨h₁, h₂⟩ := isPlain_of_mem_tokens hp hm
  simp only [List.mem_cons, List.not_mem_nil, or_false] at ht
  rcases ht with rfl | rfl
  · exact h₁
  · exact h₂

/-- No brace stands in the text of a plain record. -/
theorem any_isBrace_text (hp : r.IsPlain) : r.text.any Occurrence.isBrace = false := by
  have join : ∀ ts : List (List Char), (∀ t ∈ ts, Text.isPlain t = true) →
      (['~'].intercalate ts).any Occurrence.isBrace = false := by
    intro ts h
    induction ts with
    | nil => rfl
    | cons t ts ih =>
        have ht : t.any Occurrence.isBrace = false := by
          have := h t List.mem_cons_self
          simp only [Text.isPlain, Bool.not_eq_true', List.any_eq_false, User.isReserved,
            Bool.or_eq_true, not_or] at this ⊢
          exact fun c hc => (this c hc).2
        have hts := ih fun u hu => h u (List.mem_cons_of_mem _ hu)
        cases ts with
        | nil => simpa using ht
        | cons u us =>
            rw [List.intercalate_cons_cons, List.any_append, List.any_append, ht, hts]
            rfl
  exact join _ fun t ht => isPlain_of_mem_flatMap hp ht

theorem pairs_text (hp : r.IsPlain) (hne : r.isEmpty = false) :
    Occurrence.pairs (r.text.splitOn '~') = some r.tokens := by
  have hsplit : r.text.splitOn '~' = r.tokens.flatMap fun p => [p.1, p.2] := by
    refine List.splitOn_intercalate '~' (fun t ht => ?_) fun e => ?_
    · exact (Text.isPlain_iff.mp (isPlain_of_mem_flatMap hp ht)).1
    · obtain ⟨p, ps, hps⟩ := List.exists_cons_of_ne_nil (tokens_ne_nil hne)
      simp [hps] at e
  rw [hsplit, Occurrence.pairs_flatMap]

/-- The assignment that the text of a value makes. -/
def Assignment.reread {shape : Shape} (a : Assignment shape) : Except Error (Assignment shape) :=
  (a.1.val.kind.convert a.1.val.name a.2.val.asText).map fun v => ⟨a.1, v⟩

theorem resolve_entry (a : Assignment c.shape) :
    Occurrence.resolve c (a.entry.1.toList, a.entry.2.asText.toList) = a.reread := by
  simp [Occurrence.resolve, Assignment.entry, Assignment.reread, c.subField?_name a.1]

theorem read_text_eq {as : List (Assignment c.shape)}
    (has : as.map Assignment.entry = r.values.entries) (hp : r.IsPlain) (hne : r.isEmpty = false) :
    Occurrence.read c r.text = (as.mapM Assignment.reread).map empty.putAll := by
  have htokens : r.tokens = as.map fun a => (a.entry.1.toList, a.entry.2.asText.toList) := by
    rw [tokens, ← has, List.map_map]
    rfl
  simp only [Occurrence.read_eq, pairs_text hp hne, Occurrence.fill_eq]
  rw [htokens, List.mapM_map]
  simp only [Function.comp_def, resolve_entry]

theorem get?_of_mem_assignments {as : List (Assignment c.shape)}
    (has : as.map Assignment.entry = r.values.entries) {a : Assignment c.shape} (ha : a ∈ as) :
    r.get? a.1.val.name = some a.2.val :=
  NameMap.mem_entries_iff.mp (has ▸ List.mem_map_of_mem ha)

/-- **The text of a record with canonical values is read as the record, marked.** -/
theorem read_text (hp : r.IsPlain) (hne : r.isEmpty = false) (hc : r.IsCanonical) :
    Occurrence.read c r.text = .ok r.marked := by
  obtain ⟨as, has⟩ := exists_assignments r.conforms
  rw [read_text_eq has hp hne, ← putAll_eq_marked has]
  -- each value is read as itself, so the assignments are made again
  have hreread : ∀ a ∈ as, ∀ b, a.reread = .ok b ↔ True ∧ b = id a := by
    intro a ha b
    have hconv := FieldKind.convert_asText (c.isListed_kind a.1) a.1.val.name a.2
      (hc a.1 _ (get?_of_mem_assignments has ha))
    have : a.reread = .ok a := by
      rw [Assignment.reread, hconv]
      rfl
    rw [this, Except.ok.injEq, true_and]
    exact eq_comm
  have hall := (mapM_eq_ok_iff hreread).mpr ⟨fun _ _ => trivial, rfl⟩
  rw [hall, List.map_id]
  rfl

/-- **The text of a record is read as some record exactly if its values are known.** -/
theorem exists_read_text_iff (hp : r.IsPlain) (hne : r.isEmpty = false) :
    (∃ s, Occurrence.read c r.text = .ok s) ↔ r.IsKnown := by
  obtain ⟨as, has⟩ := exists_assignments r.conforms
  rw [read_text_eq has hp hne, exists_map_eq_ok_iff, exists_mapM_eq_ok_iff]
  have hreread : ∀ a : Assignment c.shape,
      (∃ b, a.reread = .ok b) ↔ a.1.val.kind.Knows a.2.val := fun a =>
    exists_map_eq_ok_iff.trans (FieldKind.exists_convert_asText_iff _ _ a.2)
  simp only [hreread]
  constructor
  · intro h f v hget
    have hm : (f.val.name, v) ∈ as.map Assignment.entry := has ▸ NameMap.mem_entries_iff.mpr hget
    obtain ⟨a, ha, he⟩ := List.mem_map.mp hm
    obtain ⟨hn, rfl⟩ := Prod.mk.inj he
    have hf : a.1 = f := Shape.member_ext hn
    exact hf ▸ h a ha
  · intro h a ha
    exact h a.1 _ (get?_of_mem_assignments has ha)

end Record

end Registrar
