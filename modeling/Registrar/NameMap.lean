/-!
# Finite maps from names

A `NameMap α` is a list of named values in increasing order of the names, each name once, so
that two maps are equal exactly when they give every name the same value. A `NameSet` is a
list of names in the same order.

* `NameMap.get?_insert`, `NameMap.get?_merge` — an insertion changes one name, a merge those that
  it gives a value.
* `NameMap.ext` — the values decide the map.
* `NameMap.mem_entries_iff` — the entries are what look-up finds.
* `NameSet.contains_insert`, `NameSet.ext` — the same for sets.
-/

set_option autoImplicit false

namespace Registrar

/-! ## Sorted lists of entries -/

/-- The names of a list of entries increase. -/
def SortedNames {α : Type} (es : List (String × α)) : Prop :=
  es.Pairwise fun a b => a.1 < b.1

/-- Puts a value under a name into a sorted list of entries, in place of the old one. -/
def insertEntry {α : Type} (name : String) (value : α) :
    List (String × α) → List (String × α)
  | [] => [(name, value)]
  | (k, v) :: rest =>
      if name < k then (name, value) :: (k, v) :: rest
      else if name = k then (name, value) :: rest
      else (k, v) :: insertEntry name value rest

/-- The value under a name. -/
def findValue? {α : Type} (name : String) : List (String × α) → Option α
  | [] => none
  | (k, v) :: rest => if name = k then some v else findValue? name rest

theorem name_lt_of_not_lt_of_ne {a b : String} (h : ¬a < b) (h' : a ≠ b) : b < a := by
  rcases Std.lt_trichotomy a b with h1 | h1 | h1
  · exact absurd h1 h
  · exact absurd h1 h'
  · exact h1

section
variable {α : Type}

theorem mem_insertEntry {name : String} {value : α} {es : List (String × α)}
    {e : String × α} (h : e ∈ insertEntry name value es) : e = (name, value) ∨ e ∈ es := by
  induction es with
  | nil => simpa [insertEntry] using h
  | cons hd rest ih =>
      obtain ⟨k, v⟩ := hd
      simp only [insertEntry] at h
      split at h
      · simpa using h
      · split at h
        · rcases List.mem_cons.mp h with rfl | h
          · exact Or.inl rfl
          · exact Or.inr (List.mem_cons_of_mem _ h)
        · rcases List.mem_cons.mp h with rfl | h
          · exact Or.inr List.mem_cons_self
          · exact (ih h).imp_right (List.mem_cons_of_mem _)

theorem sortedNames_insertEntry (name : String) (value : α) {es : List (String × α)}
    (h : SortedNames es) : SortedNames (insertEntry name value es) := by
  induction es with
  | nil => simp [insertEntry, SortedNames]
  | cons hd rest ih =>
      obtain ⟨k, v⟩ := hd
      have hrest := List.pairwise_cons.mp h
      simp only [insertEntry]
      split
      · rename_i hlt
        refine List.pairwise_cons.mpr ⟨?_, h⟩
        intro e he
        rcases List.mem_cons.mp he with rfl | he
        · exact hlt
        · exact String.lt_trans hlt (hrest.1 e he)
      · split
        · rename_i heq
          subst heq
          exact List.pairwise_cons.mpr ⟨hrest.1, hrest.2⟩
        · rename_i hlt hne
          refine List.pairwise_cons.mpr ⟨?_, ih hrest.2⟩
          intro e he
          rcases mem_insertEntry he with rfl | he
          -- the new name belongs further back, behind the head
          · exact name_lt_of_not_lt_of_ne hlt hne
          · exact hrest.1 e he

theorem findValue?_insertEntry (name other : String) (value : α) (es : List (String × α)) :
    findValue? other (insertEntry name value es)
      = if other = name then some value else findValue? other es := by
  induction es with
  | nil => simp [insertEntry, findValue?]
  | cons hd rest ih =>
      obtain ⟨k, v⟩ := hd
      simp only [insertEntry]
      split
      · simp [findValue?]
      · split
        · rename_i heq
          subst heq
          simp only [findValue?]
          split <;> rfl
        · rename_i hne
          simp only [findValue?, ih]
          -- the new entry goes further back: its name is not that of the head
          by_cases hk : other = k
          · subst hk
            simp [Ne.symm hne]
          · simp [hk]

theorem findValue?_eq_none_of_lt {name : String} {es : List (String × α)}
    (h : ∀ e ∈ es, name < e.1) : findValue? name es = none := by
  induction es with
  | nil => rfl
  | cons hd rest ih =>
      obtain ⟨k, v⟩ := hd
      have hk : name < k := h (k, v) List.mem_cons_self
      have hne : name ≠ k := fun e => String.lt_irrefl k (e ▸ hk)
      simp [findValue?, hne, ih fun e he => h e (List.mem_cons_of_mem _ he)]

theorem findValue?_eq_some_iff {name : String} {value : α} {es : List (String × α)}
    (h : SortedNames es) : findValue? name es = some value ↔ (name, value) ∈ es := by
  induction es with
  | nil => simp [findValue?]
  | cons hd rest ih =>
      obtain ⟨k, v⟩ := hd
      have hrest := List.pairwise_cons.mp h
      by_cases hk : name = k
      · subst hk
        have hnot : (name, value) ∉ rest := fun hm =>
          String.lt_irrefl name (hrest.1 _ hm)
        simp [findValue?, hnot, eq_comm]
      · simp [findValue?, hk, ih hrest.2]

/-- **Sorted lists with the same look-ups are the same list.** -/
theorem eq_of_findValue?_eq {es fs : List (String × α)} (he : SortedNames es)
    (hf : SortedNames fs) (h : ∀ name, findValue? name es = findValue? name fs) : es = fs := by
  induction es generalizing fs with
  | nil =>
      cases fs with
      | nil => rfl
      | cons hd rest => simpa [findValue?] using h hd.1
  | cons hd rest ih =>
      obtain ⟨k, v⟩ := hd
      have her := List.pairwise_cons.mp he
      cases fs with
      | nil => simpa [findValue?] using h k
      | cons hd' rest' =>
          obtain ⟨k', v'⟩ := hd'
          have hfr := List.pairwise_cons.mp hf
          -- the smaller of two heads would be found in one list only
          have hkk : k = k' := by
            rcases Std.lt_trichotomy k k' with hlt | heq | hlt
            · have hnone : findValue? k ((k', v') :: rest') = none := by
                refine findValue?_eq_none_of_lt fun e hm => ?_
                rcases List.mem_cons.mp hm with rfl | hm
                · exact hlt
                · exact String.lt_trans hlt (hfr.1 e hm)
              have := h k
              rw [hnone] at this
              simp [findValue?] at this
            · exact heq
            · have hnone : findValue? k' ((k, v) :: rest) = none := by
                refine findValue?_eq_none_of_lt fun e hm => ?_
                rcases List.mem_cons.mp hm with rfl | hm
                · exact hlt
                · exact String.lt_trans hlt (her.1 e hm)
              have := h k'
              rw [hnone] at this
              simp [findValue?] at this
          subst hkk
          have hv : v = v' := by simpa [findValue?] using h k
          subst hv
          -- the tails agree on the name of the head, too: it is in neither
          have htail : rest = rest' := by
            refine ih her.2 hfr.2 fun name => ?_
            by_cases hn : name = k
            · subst hn
              rw [findValue?_eq_none_of_lt her.1, findValue?_eq_none_of_lt hfr.1]
            · simpa [findValue?, hn] using h name
          rw [htail]

end

/-! ## Maps -/

/-- **A finite map from names.** -/
structure NameMap (α : Type) where
  entries : List (String × α) := []
  sorted : SortedNames entries := by exact List.Pairwise.nil

namespace NameMap

variable {α : Type}

def empty : NameMap α := {}

def get? (m : NameMap α) (name : String) : Option α := findValue? name m.entries

def insert (m : NameMap α) (name : String) (value : α) : NameMap α :=
  ⟨insertEntry name value m.entries, sortedNames_insertEntry name value m.sorted⟩

/-- The map with the values of `other` put in, those of `other` winning. -/
def merge (m other : NameMap α) : NameMap α :=
  other.entries.foldl (fun acc e => acc.insert e.1 e.2) m

def isEmpty (m : NameMap α) : Bool := m.entries.isEmpty

instance [DecidableEq α] : DecidableEq (NameMap α) := fun a b =>
  if h : a.entries = b.entries then
    .isTrue (by cases a; cases b; cases h; rfl)
  else .isFalse fun e => h (e ▸ rfl)

@[simp] theorem get?_empty (name : String) : (empty : NameMap α).get? name = none := rfl

/-- **An insertion changes one name.** -/
theorem get?_insert (m : NameMap α) (name other : String) (value : α) :
    (m.insert name value).get? other = if other = name then some value else m.get? other :=
  findValue?_insertEntry name other value m.entries

theorem mem_entries_iff {m : NameMap α} {name : String} {value : α} :
    (name, value) ∈ m.entries ↔ m.get? name = some value :=
  (findValue?_eq_some_iff m.sorted).symm

/-- **The values decide the map.** -/
theorem ext {a b : NameMap α} (h : ∀ name, a.get? name = b.get? name) : a = b := by
  have he : a.entries = b.entries := eq_of_findValue?_eq a.sorted b.sorted h
  cases a; cases b; cases he; rfl

theorem get?_foldl_insert {es : List (String × α)} (h : SortedNames es) (m : NameMap α)
    (name : String) :
    (es.foldl (fun m e => m.insert e.1 e.2) m).get? name
      = (findValue? name es).or (m.get? name) := by
  induction es generalizing m with
  | nil => rfl
  | cons e es ih =>
      obtain ⟨hlt, htail⟩ := List.pairwise_cons.mp h
      obtain ⟨k, v⟩ := e
      rw [List.foldl_cons, ih htail, get?_insert]
      simp only [findValue?]
      by_cases hk : name = k
      · subst hk
        rw [findValue?_eq_none_of_lt fun e he => hlt e he]
        simp
      · simp [hk]

/-- **A value put in by a merge wins.** -/
theorem get?_merge (m other : NameMap α) (name : String) :
    (m.merge other).get? name = (other.get? name).or (m.get? name) :=
  get?_foldl_insert other.sorted m name

theorem mem_entries_insert {m : NameMap α} {name : String} {value : α} {e : String × α}
    (h : e ∈ (m.insert name value).entries) : e = (name, value) ∨ e ∈ m.entries :=
  mem_insertEntry h

end NameMap

/-! ## Sets -/

/-- **A finite set of names.** -/
structure NameSet where
  names : NameMap Unit := {}
deriving DecidableEq

namespace NameSet

def empty : NameSet := {}

def contains (s : NameSet) (name : String) : Bool := (s.names.get? name).isSome

def insert (s : NameSet) (name : String) : NameSet := ⟨s.names.insert name ()⟩

def union (s other : NameSet) : NameSet := ⟨s.names.merge other.names⟩

/-- The names in increasing order. -/
def toList (s : NameSet) : List String := s.names.entries.map (·.1)

@[simp] theorem contains_empty (name : String) : empty.contains name = false := rfl

/-- **An insertion adds one name.** -/
theorem contains_insert (s : NameSet) (name other : String) :
    (s.insert name).contains other = (decide (other = name) || s.contains other) := by
  simp only [contains, insert, NameMap.get?_insert]
  by_cases h : other = name <;> simp [h]

/-- **A union has the names of both sets.** -/
theorem contains_union (s other : NameSet) (name : String) :
    (s.union other).contains name = (other.contains name || s.contains name) := by
  simp only [contains, union, NameMap.get?_merge]
  cases other.names.get? name <;> rfl

/-- **The members decide the set.** -/
theorem ext {a b : NameSet} (h : ∀ name, a.contains name = b.contains name) : a = b := by
  have hm : a.names = b.names := by
    refine NameMap.ext fun name => ?_
    have := h name
    simp only [contains] at this
    cases ha : a.names.get? name <;> cases hb : b.names.get? name <;> simp_all
  cases a; cases b; cases hm; rfl

end NameSet

end Registrar
