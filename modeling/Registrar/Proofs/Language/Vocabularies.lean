import Registrar.Proofs.Language.Names
import Registrar.Schema.ObjectTables

/-!
# Vocabularies and their canonical names

The canonical names of a vocabulary are names of the vocabulary, too, and stand for themselves.
Two of them side by side are no name, whatever follows, and neither is the root of the custom
schemas with something behind it. A `Vocabulary.IsSelfContained` has these properties.

Whether a vocabulary has them is a matter of comparing each of its names with all others. For that
`SpellsOut` gives the names character by character, and `Text.number` as numbers.

* `Vocabulary.isSelfContained_of_spelling` — the properties from the comparisons.
* `ObjectType.isSelfContained_attributes` — the vocabularies of all types of objects have them.
-/

set_option autoImplicit false

namespace Registrar

/-! ## Texts as numbers -/

namespace Text

/-- The number of code points. -/
def radix : Nat := 0x110000

/-- The number whose digits are the characters of a text, the first one last. -/
def number (cs : List Char) : Nat := cs.foldr (fun c n => c.toNat + radix * n) 0

/-- What a digit behind a text counts. -/
def weight (cs : List Char) : Nat := cs.foldr (fun _ n => radix * n) 1

theorem number_append (a b : List Char) : number (a ++ b) = number a + weight a * number b := by
  induction a with
  | nil => simp [number, weight]
  | cons c a ih =>
      show c.toNat + radix * number (a ++ b)
        = c.toNat + radix * number a + radix * weight a * number b
      rw [ih, Nat.mul_add, Nat.mul_assoc, Nat.add_assoc]

theorem number_lt (a : List Char) : number a < weight a := by
  induction a with
  | nil => exact Nat.one_pos
  | cons c a ih =>
      have hc : c.toNat < radix := by
        rcases c.valid with h | h
        · exact Nat.lt_trans h (by decide)
        · exact h.2
      show c.toNat + radix * number a < radix * weight a
      calc c.toNat + radix * number a
          < radix + radix * number a := Nat.add_lt_add_right hc _
        _ = radix * (number a + 1) := by rw [Nat.mul_succ, Nat.add_comm]
        _ ≤ radix * weight a := Nat.mul_le_mul_left _ ih

/-- A text by which others may start: what a digit behind it counts, and its number. -/
def numbered (a : List Char) : Nat × Nat := (weight a, number a)

/-- Whether the text that a number is of may start with another text. -/
def mayStartWith (n : Nat) (start : Nat × Nat) : Bool := n % start.1 == start.2

theorem mayStartWith_append (a b : List Char) :
    mayStartWith (number (a ++ b)) (numbered a) = true := by
  rw [mayStartWith, numbered, number_append, Nat.add_mul_mod_self_left,
    Nat.mod_eq_of_lt (number_lt a), beq_self_eq_true]

theorem number_append_div (a b : List Char) : number (a ++ b) / (numbered a).1 = number b := by
  have hpos : 0 < weight a := Nat.lt_of_le_of_lt (Nat.zero_le _) (number_lt a)
  rw [numbered, number_append, Nat.add_mul_div_left _ _ hpos, Nat.div_eq_of_lt (number_lt a),
    Nat.zero_add]

end Text

/-! ## Self-contained vocabularies -/

namespace Vocabulary

/-- **Whether a vocabulary knows its canonical names** and no name that starts with two of them. -/
structure IsSelfContained (v : Vocabulary) : Prop where
  get?_canonical : ∀ {name canonical}, v.get? name = some canonical →
    v.get? canonical = some canonical
  isName : ∀ {name canonical}, v.get? name = some canonical → Projection.IsName canonical.toList
  get?_append : ∀ {name canonical name' canonical'}, v.get? name = some canonical →
    v.get? name' = some canonical' → ∀ rest, v.get? (canonical ++ canonical' ++ rest) = none
  get?_customSchemas_append : ∀ {rest}, rest ≠ "" → v.get? (customSchemas ++ rest) = none

/-! ### Names character by character -/

/-- Names in lower case, each with the name that it stands for, character by character. -/
abbrev Spelling : Type := List (List Char × List Char)

/-- Whether entries are spelled out by a list. -/
inductive SpellsOut : Spelling → List (String × String) → Prop
  | nil : SpellsOut [] []
  | cons {t : Spelling} {es : List (String × String)} (key canonical : List Char) :
      SpellsOut t es → SpellsOut ((key, canonical) :: t)
        ((String.ofList key, String.ofList canonical) :: es)

/-- The lower-case form of a text. -/
def fold (cs : List Char) : List Char := cs.flatMap Text.lower

theorem fold_append (a b : List Char) : fold (a ++ b) = fold a ++ fold b := List.flatMap_append

theorem fold_eq_nil_iff {cs : List Char} : fold cs = [] ↔ cs = [] := by
  have hlower : ∀ c, Text.lower c ≠ [] := by
    intro c
    unfold Text.lower
    split
    · exact List.cons_ne_nil _ _
    · split <;> exact List.cons_ne_nil _ _
  cases cs with
  | nil => simp [fold]
  | cons c cs => simp [fold, hlower c]

/-- What is spelled out under a name in lower case. The numbers only make the comparison fast. -/
def lookUp (name : List Char) : Spelling → Option (List Char)
  | [] => none
  | (key, canonical) :: t =>
      if Text.number key == Text.number name && key == name then some canonical
      else lookUp name t

theorem lookUp_cons (name key canonical : List Char) (t : Spelling) :
    lookUp name ((key, canonical) :: t)
      = if name = key then some canonical else lookUp name t := by
  by_cases h : name = key
  · subst h
    simp [lookUp]
  · simp [lookUp, h, Ne.symm h]

theorem mem_of_lookUp {name canonical : List Char} {t : Spelling}
    (h : lookUp name t = some canonical) : (name, canonical) ∈ t := by
  induction t with
  | nil => cases h
  | cons e t ih =>
      obtain ⟨key, c⟩ := e
      rw [lookUp_cons] at h
      split at h
      · rename_i hkey
        cases h
        exact hkey ▸ List.mem_cons_self
      · exact List.mem_cons_of_mem _ (ih h)

theorem SpellsOut.findValue? {t : Spelling} {es : List (String × String)} (h : SpellsOut t es)
    (name : List Char) :
    Registrar.findValue? (String.ofList name) es = (lookUp name t).map String.ofList := by
  induction h with
  | nil => rfl
  | cons key canonical _ ih =>
      rw [Registrar.findValue?, lookUp_cons, ih]
      simp only [String.ofList_inj]
      split <;> rfl

section
variable {v : Vocabulary} {t : Spelling}

/-- **Names are looked up in what spells them out.** -/
theorem SpellsOut.get?_eq (h : SpellsOut t v.entries) (name : String) :
    v.get? name = (lookUp (fold name.toList) t).map String.ofList :=
  h.findValue? _

theorem SpellsOut.get?_eq_some_iff (h : SpellsOut t v.entries) {name canonical : String} :
    v.get? name = some canonical ↔ lookUp (fold name.toList) t = some canonical.toList := by
  rw [h.get?_eq, Option.map_eq_some_iff]
  constructor
  · rintro ⟨c, hc, rfl⟩
    rw [hc, String.toList_ofList]
  · exact fun hc => ⟨_, hc, String.ofList_toList⟩

theorem SpellsOut.mem_of_get? (h : SpellsOut t v.entries) {name canonical : String}
    (hname : v.get? name = some canonical) : (fold name.toList, canonical.toList) ∈ t :=
  mem_of_lookUp (h.get?_eq_some_iff.mp hname)

end

/-! ### Comparing all names -/

/-- Whether what names stand for stands for itself. -/
def standsForItself (t : Spelling) : Bool := t.all fun e => lookUp (fold e.2) t == some e.2

/-- Whether what names stand for is cut off texts as a name. -/
def areNames (t : Spelling) : Bool := t.all fun e => decide (Projection.IsName e.2)

/-- Whether no text of some numbers may start with two of some texts. -/
def startWithOne (texts : List Nat) (starts : List (Nat × Nat)) : Bool :=
  texts.all fun n => starts.all fun c => !Text.mayStartWith n c ||
    starts.all fun d => !Text.mayStartWith (n / c.1) d

/-- Whether no name starts with what two names stand for. -/
def areSeparable (t : Spelling) : Bool :=
  startWithOne (t.map fun e => Text.number e.1) (t.map fun e => Text.numbered (fold e.2))

/-- Whether no name goes on behind the root of the custom schemas. -/
def endAtRoot (t : Spelling) : Bool :=
  t.all fun e =>
    !Text.mayStartWith (Text.number e.1) (Text.numbered (fold customSchemas.toList)) ||
      e.1.length == (fold customSchemas.toList).length

theorem ne_append_of_areSeparable {t : Spelling} (h : areSeparable t = true)
    {k c d : List Char × List Char} (hk : k ∈ t) (hc : c ∈ t) (hd : d ∈ t) (rest : List Char) :
    k.1 ≠ fold c.2 ++ (fold d.2 ++ rest) := by
  intro heq
  simp only [areSeparable, startWithOne, List.all_map, List.all_eq_true, Function.comp_apply,
    Bool.or_eq_true, Bool.not_eq_true'] at h
  rcases h k hk c hc with h | h
  · rw [heq, Text.mayStartWith_append] at h
    cases h
  · have hrest := h d hd
    rw [heq, Text.number_append_div, Text.mayStartWith_append] at hrest
    cases hrest

theorem eq_nil_of_endAtRoot {t : Spelling} (h : endAtRoot t = true) {k : List Char × List Char}
    (hk : k ∈ t) {rest : List Char} (heq : k.1 = fold customSchemas.toList ++ rest) :
    rest = [] := by
  simp only [endAtRoot, List.all_eq_true, Bool.or_eq_true, Bool.not_eq_true', beq_iff_eq] at h
  rcases h k hk with h | h
  · rw [heq, Text.mayStartWith_append] at h
    cases h
  · rw [heq, List.length_append] at h
    exact List.length_eq_zero_iff.mp (by omega)

/-- **The properties from the comparisons.** -/
theorem isSelfContained_of_spelling {v : Vocabulary} {t : Spelling} (h : SpellsOut t v.entries)
    (hself : standsForItself t = true) (hnames : areNames t = true)
    (hsep : areSeparable t = true) (hroot : endAtRoot t = true) : v.IsSelfContained where
  get?_canonical hname := by
    have := List.all_eq_true.mp hself _ (h.mem_of_get? hname)
    exact h.get?_eq_some_iff.mpr (by simpa using this)
  isName hname := by
    have := List.all_eq_true.mp hnames _ (h.mem_of_get? hname)
    simpa using this
  get?_append {name canonical name' canonical'} hname hname' rest := by
    cases hget : v.get? (canonical ++ canonical' ++ rest) with
    | none => rfl
    | some other =>
        have hmem := h.mem_of_get? hget
        refine absurd ?_ (ne_append_of_areSeparable hsep hmem (h.mem_of_get? hname)
          (h.mem_of_get? hname') (fold rest.toList))
        simp [fold_append]
  get?_customSchemas_append {rest} hrest := by
    cases hget : v.get? (customSchemas ++ rest) with
    | none => rfl
    | some other =>
        have hnil : fold rest.toList = [] :=
          eq_nil_of_endAtRoot hroot (h.mem_of_get? hget) (by simp [fold_append])
        exact absurd (by simpa [fold_eq_nil_iff] using hnil) hrest

end Vocabulary

/-! ## All types of objects -/

/-- **The vocabularies of all types of objects are self-contained.** -/
theorem ObjectType.isSelfContained_attributes (o : ObjectType) : o.attributes.IsSelfContained := by
  obtain ⟨t, ht, hself, hnames, hsep, hroot⟩ : ∃ t, Vocabulary.SpellsOut t o.attributes.entries ∧
      Vocabulary.standsForItself t = true ∧ Vocabulary.areNames t = true ∧
      Vocabulary.areSeparable t = true ∧ Vocabulary.endAtRoot t = true := by
    -- the list is found by spelling out the entries one by one
    rcases o with (_ | _ | _ | _ | _) | _
    all_goals
      exact ⟨_, by repeat first | apply Vocabulary.SpellsOut.nil | apply Vocabulary.SpellsOut.cons,
        by decide +kernel⟩
  exact Vocabulary.isSelfContained_of_spelling ht hself hnames hsep hroot

end Registrar
