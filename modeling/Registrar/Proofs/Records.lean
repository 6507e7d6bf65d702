import Registrar.Record

/-!
# Records that are filled and emptied

Input fills a record one field after the other (`Record.putAll`), and every value that counts as
unset is forced to be sent on the way. `Record.marked` forgets that history: it forces exactly
the names whose values count as unset now. Filling an empty record with the values of a record
gives its marked form.

* `Record.isForced_putAll` — filling forces what counts as unset when it is put in.
* `Record.get?_putAll_eq_some_iff` — the values of a record that has been filled.
* `Record.putAll_eq_marked` — the values of a record, put into an empty one.
* `Record.get?_restrict`, `Record.get?_merge` — what restricting and merging keep.
* `Record.holds_putAll`, `Record.holds_merge` — properties of all values of a record.
* `Record.forcesZeros_putAll`, `Record.forcesZeros_merge` — no unset value is left unforced.
-/

set_option autoImplicit false

namespace Registrar

/-! ## Parts of maps -/

namespace NameMap

variable {α : Type}

/-- The map on the names that pass a test. -/
def filter (p : String → Bool) (m : NameMap α) : NameMap α :=
  ⟨m.entries.filter fun e => p e.1, m.sorted.filter _⟩

theorem get?_filter (p : String → Bool) (m : NameMap α) (name : String) :
    (m.filter p).get? name = if p name then m.get? name else none := by
  refine Option.ext fun v => ?_
  rw [← mem_entries_iff]
  simp only [filter, List.mem_filter, mem_entries_iff]
  by_cases h : p name = true <;> simp [h]

end NameMap

/-- The set of the names of a list. -/
def NameSet.ofList (names : List String) : NameSet := names.foldl .insert .empty

theorem NameSet.contains_ofList (names : List String) (name : String) :
    (ofList names).contains name = true ↔ name ∈ names := by
  have step : ∀ (names : List String) (s : NameSet),
      (names.foldl NameSet.insert s).contains name = true ↔
        name ∈ names ∨ s.contains name = true := by
    intro names
    induction names with
    | nil => simp
    | cons n names ih =>
        intro s
        rw [List.foldl_cons, ih, contains_insert]
        simp only [Bool.or_eq_true, decide_eq_true_eq, List.mem_cons]
        rw [or_left_comm, or_assoc]
  simp [ofList, step]

/-! ## Values that count as unset -/

/-- Whether a value of the field of a name counts as unset. -/
def Shape.isZero (s : Shape) (name : String) (v : Scalar) : Bool :=
  (s.find? name).any (·.isZero v)

theorem Shape.isZero_member {s : Shape} (f : s.Member) (v : Scalar) :
    s.isZero f.val.name v = f.val.isZero v := by
  rw [isZero, f.property]
  rfl

namespace Record

variable {shape : Shape}

/-- Whether the value of a field counts as unset. -/
def HasZero (r : Record shape) (name : String) : Prop :=
  ∃ v, r.get? name = some v ∧ shape.isZero name v = true

/-- Whether every value that counts as unset is forced to be sent. -/
def ForcesZeros (r : Record shape) : Prop := ∀ name, r.HasZero name → r.isForced name = true

/-- Whether nothing but values that count as unset is forced to be sent. -/
def ForcesOnlyZeros (r : Record shape) : Prop := ∀ name, r.isForced name = true → r.HasZero name

/-- **The record with exactly its unset values forced to be sent.** -/
def marked (r : Record shape) : Record shape :=
  { r with
    forced := .ofList
      ((r.values.entries.filter fun e => shape.isZero e.1 e.2).map (·.1)) }

@[simp] theorem get?_marked (r : Record shape) (name : String) :
    r.marked.get? name = r.get? name := rfl

theorem isForced_marked (r : Record shape) (name : String) :
    r.marked.isForced name = true ↔ r.HasZero name := by
  rw [isForced, marked, NameSet.contains_ofList]
  simp only [List.mem_map, List.mem_filter, HasZero]
  constructor
  · rintro ⟨⟨n, v⟩, ⟨hm, hz⟩, rfl⟩
    exact ⟨v, NameMap.mem_entries_iff.mp hm, hz⟩
  · rintro ⟨v, hv, hz⟩
    exact ⟨(name, v), ⟨NameMap.mem_entries_iff.mpr hv, hz⟩, rfl⟩

theorem marked_eq_iff {r : Record shape} (h : r.ForcesZeros) :
    r.marked = r ↔ r.ForcesOnlyZeros := by
  constructor
  · intro e name hf
    rw [← e] at hf
    exact (r.isForced_marked name).mp hf
  · intro ho
    refine ext (fun _ => rfl) fun name => ?_
    rw [Bool.eq_iff_iff, isForced_marked]
    exact ⟨h name, ho name⟩

/-! ## Filling -/

/-- A field together with a value for it. -/
abbrev Assignment (shape : Shape) : Type := (f : shape.Member) × f.val.kind.Value

/-- The entry that an assignment makes. -/
def Assignment.entry (a : Assignment shape) : String × Scalar := (a.1.val.name, a.2.val)

/-- **Puts values into a record one after the other.** -/
def putAll (r : Record shape) (as : List (Assignment shape)) : Record shape :=
  as.foldl (fun r a => r.put a.1 a.2) r

@[simp] theorem putAll_nil (r : Record shape) : r.putAll [] = r := rfl

@[simp] theorem putAll_cons (r : Record shape) (a : Assignment shape)
    (as : List (Assignment shape)) : r.putAll (a :: as) = (r.put a.1 a.2).putAll as := rfl

theorem values_put (r : Record shape) (f : shape.Member) (v : f.val.kind.Value) :
    (r.put f v).values = r.values.insert f.val.name v.val := by
  unfold put
  split <;> rfl

theorem values_putAll (r : Record shape) (as : List (Assignment shape)) :
    (r.putAll as).values
      = (as.map Assignment.entry).foldl (fun m e => m.insert e.1 e.2) r.values := by
  induction as generalizing r with
  | nil => rfl
  | cons a as ih => rw [putAll_cons, ih, values_put]; rfl

/-- **Filling forces the values that count as unset when they are put in.** -/
theorem isForced_putAll (r : Record shape) (as : List (Assignment shape)) (name : String) :
    (r.putAll as).isForced name = true ↔
      (∃ a ∈ as, a.1.val.name = name ∧ a.1.val.isZero a.2.val = true) ∨
        r.isForced name = true := by
  induction as generalizing r with
  | nil => simp
  | cons a as ih =>
      rw [putAll_cons, ih, isForced_put]
      simp only [Bool.or_eq_true, Bool.and_eq_true, decide_eq_true_eq, List.mem_cons,
        exists_eq_or_imp]
      constructor
      · rintro (h | ⟨hz, hn⟩ | h)
        · exact Or.inl (Or.inr h)
        · exact Or.inl (Or.inl ⟨hn.symm, hz⟩)
        · exact Or.inr h
      · rintro ((⟨hn, hz⟩ | h) | h)
        · exact Or.inr (Or.inl ⟨hz, hn.symm⟩)
        · exact Or.inl h
        · exact Or.inr (Or.inr h)

/-- **Filling with values that agree on each name** gives these values, and leaves the others. -/
theorem get?_putAll_eq_some_iff {r : Record shape} {as : List (Assignment shape)}
    (h : ∀ a ∈ as, ∀ b ∈ as, a.1.val.name = b.1.val.name → a.2.val = b.2.val) {name : String}
    {v : Scalar} :
    (r.putAll as).get? name = some v ↔
      (∃ a ∈ as, a.entry = (name, v)) ∨
        ((∀ a ∈ as, a.1.val.name ≠ name) ∧ r.get? name = some v) := by
  induction as generalizing r with
  | nil => simp
  | cons a as ih =>
      have hrest : ∀ b ∈ as, ∀ c ∈ as, b.1.val.name = c.1.val.name → b.2.val = c.2.val :=
        fun b hb c hc => h b (List.mem_cons_of_mem _ hb) c (List.mem_cons_of_mem _ hc)
      rw [putAll_cons, ih hrest, get?_put, List.forall_mem_cons]
      simp only [List.mem_cons, exists_eq_or_imp]
      by_cases hn : name = a.1.val.name
      · subst hn
        rw [if_pos rfl]
        constructor
        · rintro (hex | ⟨-, hv⟩)
          · exact Or.inl (Or.inr hex)
          · exact Or.inl (Or.inl (Prod.ext rfl (Option.some.inj hv)))
        · rintro ((he | hex) | ⟨⟨hne, -⟩, -⟩)
          · -- if the name is given again, the value is the same
            obtain rfl : a.2.val = v := congrArg Prod.snd he
            by_cases hagain : ∃ b ∈ as, b.1.val.name = a.1.val.name
            · obtain ⟨b, hb, hname⟩ := hagain
              have hval := h b (List.mem_cons_of_mem _ hb) a List.mem_cons_self hname
              exact Or.inl ⟨b, hb, Prod.ext hname hval⟩
            · exact Or.inr ⟨fun b hb hname => hagain ⟨b, hb, hname⟩, rfl⟩
          · exact Or.inl hex
          · exact absurd rfl hne
      · have hne : a.1.val.name ≠ name := fun e => hn e.symm
        have hentry : a.entry ≠ (name, v) := fun e => hne (congrArg Prod.fst e)
        simp [hn, hne, hentry]

theorem exists_assignments {es : List (String × Scalar)}
    (h : ∀ e ∈ es, shape.admits e.1 e.2 = true) :
    ∃ as : List (Assignment shape), as.map Assignment.entry = es := by
  induction es with
  | nil => exact ⟨[], rfl⟩
  | cons e es ih =>
      obtain ⟨f, hn, hv⟩ := Shape.exists_member_of_admits (h e List.mem_cons_self)
      obtain ⟨as, has⟩ := ih fun e' he' => h e' (List.mem_cons_of_mem _ he')
      refine ⟨⟨f, ⟨e.2, hv⟩⟩ :: as, ?_⟩
      rw [List.map_cons, has]
      exact congrArg (· :: es) (Prod.ext hn rfl)

/-- **An empty record filled with the values of a record is its marked form.** -/
theorem putAll_eq_marked {r : Record shape} {as : List (Assignment shape)}
    (h : as.map Assignment.entry = r.values.entries) : empty.putAll as = r.marked := by
  have hv : (empty.putAll as).values = r.values := by
    rw [values_putAll, h]
    exact foldl_insert_entries r.values
  refine ext (fun name => congrArg (·.get? name) hv) fun name => ?_
  rw [Bool.eq_iff_iff, isForced_putAll, isForced_marked]
  -- each name is put in once, so what was unset when it was put in is unset in the end
  have mem : ∀ a ∈ as, r.get? a.1.val.name = some a.2.val := fun a ha =>
    NameMap.mem_entries_iff.mp (h ▸ List.mem_map_of_mem ha)
  constructor
  · rintro (⟨a, ha, rfl, hz⟩ | hf)
    · exact ⟨a.2.val, mem a ha, (Shape.isZero_member a.1 _).trans hz⟩
    · cases hf
  · rintro ⟨v, hget, hz⟩
    have hm : (name, v) ∈ as.map Assignment.entry := h ▸ NameMap.mem_entries_iff.mpr hget
    obtain ⟨a, ha, he⟩ := List.mem_map.mp hm
    obtain ⟨rfl, rfl⟩ := Prod.mk.inj he
    exact Or.inl ⟨a, ha, rfl, (Shape.isZero_member a.1 _).symm.trans hz⟩

/-! ## Restricting and merging -/

/-- The record with the values of the names that pass a test. -/
def restrict (p : String → Bool) (r : Record shape) : Record shape where
  values := r.values.filter p
  forced := r.forced
  conforms e he := r.conforms e (List.mem_filter.mp he).1

theorem get?_restrict (p : String → Bool) (r : Record shape) (name : String) :
    (r.restrict p).get? name = if p name then r.get? name else none :=
  NameMap.get?_filter p r.values name

theorem get?_merge (r other : Record shape) (name : String) :
    (r.merge other).get? name = (other.get? name).or (r.get? name) :=
  NameMap.get?_merge r.values other.values name

theorem isForced_merge (r other : Record shape) (name : String) :
    (r.merge other).isForced name = (other.isForced name || r.isForced name) :=
  NameSet.contains_union r.forced other.forced name

theorem forcesZeros_empty : (empty : Record shape).ForcesZeros := by
  rintro name ⟨v, hv, -⟩
  cases hv

theorem ForcesZeros.put {r : Record shape} (h : r.ForcesZeros) (f : shape.Member)
    (v : f.val.kind.Value) : (r.put f v).ForcesZeros := by
  rintro name ⟨w, hw, hz⟩
  rw [get?_put] at hw
  rw [isForced_put]
  split at hw
  · rename_i hn
    subst hn
    cases hw
    rw [Shape.isZero_member] at hz
    simp [hz]
  · rw [h name ⟨w, hw, hz⟩, Bool.or_true]

theorem forcesZeros_putAll {r : Record shape} (h : r.ForcesZeros)
    (as : List (Assignment shape)) : (r.putAll as).ForcesZeros := by
  induction as generalizing r with
  | nil => exact h
  | cons a as ih => exact ih (h.put a.1 a.2)

theorem forcesZeros_merge {r other : Record shape} (h : r.ForcesZeros)
    (ho : other.ForcesZeros) : (r.merge other).ForcesZeros := by
  -- the value comes from one of the records, which forces it
  rintro name ⟨v, hv, hz⟩
  rw [get?_merge, Option.or_eq_some_iff] at hv
  rw [isForced_merge]
  rcases hv with hv | ⟨-, hv⟩
  · rw [ho name ⟨v, hv, hz⟩, Bool.true_or]
  · rw [h name ⟨v, hv, hz⟩, Bool.or_true]

/-! ## Properties of values -/

/-- Whether each value of a record has a property that may depend on its name. -/
def Holds (P : String → Scalar → Prop) (r : Record shape) : Prop :=
  ∀ name v, r.get? name = some v → P name v

section
variable {P : String → Scalar → Prop}

theorem holds_empty : (empty : Record shape).Holds P := by
  intro name v hv
  cases hv

theorem Holds.put {r : Record shape} (h : r.Holds P) {f : shape.Member} {v : f.val.kind.Value}
    (hv : P f.val.name v.val) : (r.put f v).Holds P := by
  intro name w hw
  rw [get?_put] at hw
  split at hw
  · rename_i hn
    subst hn
    cases hw
    exact hv
  · exact h name w hw

/-- **Filling keeps what holds of the old values and of those put in.** -/
theorem holds_putAll {r : Record shape} (h : r.Holds P) {as : List (Assignment shape)}
    (has : ∀ a ∈ as, P a.1.val.name a.2.val) : (r.putAll as).Holds P := by
  induction as generalizing r with
  | nil => exact h
  | cons a as ih =>
      exact ih (h.put (has a List.mem_cons_self)) fun b hb => has b (List.mem_cons_of_mem _ hb)

/-- **Merging keeps what holds of the values of both records.** -/
theorem holds_merge {r other : Record shape} (h : r.Holds P) (ho : other.Holds P) :
    (r.merge other).Holds P := by
  intro name v hv
  rw [get?_merge, Option.or_eq_some_iff] at hv
  rcases hv with hv | ⟨-, hv⟩
  · exact ho name v hv
  · exact h name v hv

end

/-! ## Empty records -/

theorem isEmpty_iff {r : Record shape} : r.isEmpty = true ↔ ∀ name, r.get? name = none := by
  constructor
  · intro h name
    have : r.values.entries = [] := List.isEmpty_iff.mp h
    simp [get?, NameMap.get?, this, findValue?]
  · intro h
    refine List.isEmpty_iff.mpr (List.eq_nil_iff_forall_not_mem.mpr fun e he => ?_)
    have := NameMap.mem_entries_iff.mp he
    rw [show r.values.get? e.1 = r.get? e.1 from rfl, h e.1] at this
    cases this

theorem isEmpty_eq_false_of_get? {r : Record shape} {name : String} {v : Scalar}
    (h : r.get? name = some v) : r.isEmpty = false := by
  rw [Bool.eq_false_iff]
  intro he
  rw [isEmpty_iff.mp he name] at h
  cases h

theorem isEmpty_put (r : Record shape) (f : shape.Member) (v : f.val.kind.Value) :
    (r.put f v).isEmpty = false := by
  have hget : (r.put f v).get? f.val.name = some v.val := by rw [get?_put, if_pos rfl]
  exact isEmpty_eq_false_of_get? hget

theorem isEmpty_putAll {r : Record shape} {as : List (Assignment shape)} (h : as ≠ []) :
    (r.putAll as).isEmpty = false := by
  induction as generalizing r with
  | nil => exact absurd rfl h
  | cons a as ih =>
      cases as with
      | nil => exact r.isEmpty_put a.1 a.2
      | cons b bs => exact ih (by simp)

theorem isEmpty_merge (r other : Record shape) :
    (r.merge other).isEmpty = (r.isEmpty && other.isEmpty) := by
  rw [Bool.eq_iff_iff, Bool.and_eq_true, isEmpty_iff, isEmpty_iff, isEmpty_iff]
  simp only [get?_merge, Option.or_eq_none_iff, forall_and]
  exact and_comm

theorem marked_of_isEmpty {r : Record shape} (h : r.isEmpty = true) : r.marked = empty := by
  refine ext (fun name => isEmpty_iff.mp h name) fun name => ?_
  rw [Bool.eq_iff_iff, isForced_marked]
  constructor
  · rintro ⟨v, hv, -⟩
    rw [isEmpty_iff.mp h name] at hv
    cases hv
  · intro hf
    cases hf

theorem empty_merge (r : Record shape) : empty.merge r = r := by
  refine ext (fun name => ?_) fun name => ?_
  · rw [get?_merge, get?_empty, Option.or_none]
  · rw [isForced_merge, isForced_empty, Bool.or_false]

end Record

end Registrar
