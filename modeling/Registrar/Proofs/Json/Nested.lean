import Registrar.Proofs.Json.Rereading

/-!
# Nested values that are read back

A JSON value that has been written in one line is read back as it was, however its containers are
nested in one another: the names of each object have to increase, its numbers have to be integers
of 64 bits, and the containers must not be nested too deeply (`Readable`).

A number ends only at the character behind it. So a value is read here together with a character
that may stand behind it (`MayFollow`).

* `leads_natChars`, `isReadBackOn_int` — integers.
* `leads_arr`, `leads_compact_obj` — containers, from what they hold.
* `Readable.isReadBackOn`, `parse_compact` — all values, and the texts of objects.
-/

set_option autoImplicit false

namespace Registrar.Json

/-! ## Values that are read back inside containers -/

/-- Whether a character may stand behind a value inside a container. -/
def MayFollow (c : Char) : Prop := c = ',' ∨ c = ']' ∨ c = '\x7d'

/-- Whether a value is read back from its text, behind the containers that are open around it. -/
def IsReadBackOn (stack : List Frame) (j : Json) : Prop :=
  ∀ place c text m, MayFollow c → Machine.Leads (complete stack j) (c :: text) m →
    Machine.Leads ⟨stack, .value place⟩ (compactChars j ++ c :: text) m

theorem isReadBackOn_of_leads {stack : List Frame} {j : Json}
    (h : ∀ place, Machine.Leads ⟨stack, .value place⟩ (compactChars j) (complete stack j)) :
    IsReadBackOn stack j := fun place _ _ _ _ hbehind => (h place).append hbehind

theorem isReadBackIn_of_on {stack : List Frame} {j : Json}
    (h : ∀ entries name, IsReadBackOn (.obj entries name :: stack) j) : IsReadBackIn stack j := by
  intro entries name c text m hc hbehind
  exact h entries name .plain c text m (hc.imp_right Or.inr) hbehind

/-! ## Numbers -/

/-- What has been read of a number that has no more digits yet. -/
def Digits.ofNat (negative : Bool) (n : Nat) : Digits := ⟨negative, n, 0, false⟩

theorem digit?_digitChar : ∀ d < 10, digit? (Nat.digitChar d) = some d := by decide

/-- The digits that a number can start with are taken for nothing else. -/
theorem firstDigit_table : ∀ d < 10, 0 < d → isSpace (Nat.digitChar d) = false ∧
    Nat.digitChar d ∉ [']', 'n', 't', 'f', '-', '0'] ∧ (Nat.digitChar d).isDigit = true ∧
      (Nat.digitChar d).toNat - 48 = d := by decide

theorem step_firstDigit (stack : List Frame) (place : Place) {d : Nat} (hpos : 0 < d)
    (hlt : d < 10) (i : Nat) : step ⟨stack, .value place⟩ i (Nat.digitChar d)
      = .ok ⟨stack, .number (.integer (.ofNat false d))⟩ := by
  obtain ⟨hspace, hother, hdigit, hvalue⟩ := firstDigit_table d hlt hpos
  simp only [List.mem_cons, List.not_mem_nil, or_false, not_or] at hother
  obtain ⟨hclose, hn, ht, hf, hminus, hzero⟩ := hother
  simp [step, openValue, hspace, hclose, hn, ht, hf, hminus, hzero, hdigit, hvalue, Digits.ofNat]

theorem step_firstDigit_sign (stack : List Frame) {d : Nat} (hpos : 0 < d) (hlt : d < 10)
    (i : Nat) : step ⟨stack, .number .sign⟩ i (Nat.digitChar d)
      = .ok ⟨stack, .number (.integer (.ofNat true d))⟩ := by
  obtain ⟨-, hother, hdigit, hvalue⟩ := firstDigit_table d hlt hpos
  have hzero : Nat.digitChar d ≠ '0' := fun e => hother (by simp [e])
  simp [step, stepNumber, hzero, hdigit, hvalue, Digits.ofNat, bind, Except.bind, pure,
    Except.pure]

/-- **The digits of a number lead to the number**, if its first digit does, and it fits 64 bits. -/
theorem leads_natChars {m : Machine} {stack : List Frame} {negative : Bool}
    (hfirst : ∀ d, 0 < d → d < 10 → ∀ i, step m i (Nat.digitChar d)
      = .ok ⟨stack, .number (.integer (.ofNat negative d))⟩) {n : Nat} (hn : 0 < n)
    (hmax : n ≤ Digits.maxSignificand) :
    m.Leads (natChars n) ⟨stack, .number (.integer (.ofNat negative n))⟩ := by
  -- the induction takes off the last digit
  induction n using Nat.strongRecOn with
  | ind n ih =>
      by_cases hlt : n < 10
      · rw [natChars, Nat.toDigits_of_lt_base hlt]
        exact .cons (hfirst n hn hlt) (Machine.leads_nil _)
      · have hle : 10 ≤ n := Nat.le_of_not_lt hlt
        have hfront := ih (n / 10) (by omega) (by omega) (by omega)
        have hmod : n % 10 < 10 := Nat.mod_lt n (by decide)
        have hvalue : n / 10 * 10 + n % 10 = n := by omega
        have hlast : ∀ i, step ⟨stack, .number (.integer (.ofNat negative (n / 10)))⟩ i
            (Nat.digitChar (n % 10)) = .ok ⟨stack, .number (.integer (.ofNat negative n))⟩ := by
          intro i
          simp [step, stepNumber, digit?_digitChar _ hmod, Digits.ofNat, Digits.pushInteger, hvalue,
            hmax, bind, Except.bind, pure, Except.pure]
        rw [natChars, Nat.toDigits_of_base_le (by decide) hle]
        exact hfront.append (.cons hlast (Machine.leads_nil _))

theorem step_complete (stack : List Frame) (j : Json) (i : Nat) (c : Char) :
    step (complete stack j) i c = stepAfter (complete stack j) i c := by
  cases stack with
  | nil => rfl
  | cons frame stack => cases frame <;> rfl

theorem leads_of_number {stack : List Frame} {numeral : Numeral} {x : Number} {c : Char}
    {text : List Char} {m : Machine} (hends : ∀ i, stepNumber numeral i c = .ok none)
    (hx : numeral.finish? = some (some x))
    (h : Machine.Leads (complete stack (.num x)) (c :: text) m) :
    Machine.Leads ⟨stack, .number numeral⟩ (c :: text) m := by
  have hstep : ∀ i, step ⟨stack, .number numeral⟩ i c = step (complete stack (.num x)) i c := by
    intro i
    rw [step_complete]
    simp [step, hends, hx, endNumber, bind, Except.bind]
  -- the number is complete without having taken the character
  intro i
  rw [advance, hstep]
  exact h i

theorem stepNumber_of_mayFollow {c : Char} (hc : MayFollow c) (n : Digits) (i : Nat) :
    stepNumber (.zero n) i c = .ok none ∧ stepNumber (.integer n) i c = .ok none := by
  have hdigit : digit? ',' = none ∧ digit? ']' = none ∧ digit? '\x7d' = none := by decide
  rcases hc with rfl | rfl | rfl <;> simp [stepNumber, hdigit]

/-- **An integer of 64 bits is read back.** -/
theorem isReadBackOn_int (stack : List Frame) {n : Int} (hmin : -(Digits.maxNegative : Int) ≤ n)
    (hmax : n ≤ Digits.maxSignificand) : IsReadBackOn stack (.num (.int n)) := by
  intro place c text m hc h
  have htext : compactChars (.num (.int n)) = intChars n := by rw [compactChars, Number.chars]
  rw [htext, intChars]
  rcases Int.lt_trichotomy n 0 with hneg | rfl | hpos
  · -- a sign, and the digits of the magnitude
    obtain ⟨k, rfl⟩ : ∃ k : Nat, n = -(k : Int) := ⟨n.natAbs, by omega⟩
    have hk : 0 < k ∧ k ≤ Digits.maxNegative := by omega
    have hsign : ∀ i, step ⟨stack, .value place⟩ i '-' = .ok ⟨stack, .number .sign⟩ := by
      intro i
      simp [step, openValue, isSpace]
    have hfits : k ≤ Digits.maxSignificand := Nat.le_trans hk.2 (by decide)
    have hdigits := leads_natChars (fun d => step_firstDigit_sign stack) hk.1 hfits
    have hnumber : (Numeral.integer (.ofNat true k)).finish? = some (some (.int (-(k : Int)))) := by
      simp [Numeral.finish?, Digits.ofNat, Digits.toInteger?, hk]
    rw [if_pos hneg, Int.natAbs_neg, Int.natAbs_natCast, List.cons_append]
    exact .cons hsign (hdigits.append (leads_of_number
      (fun i => (stepNumber_of_mayFollow hc _ i).2) hnumber h))
  · -- a zero
    have hopen : ∀ i, step ⟨stack, .value place⟩ i '0'
        = .ok ⟨stack, .number (.zero (.ofNat false 0))⟩ := by
      intro i
      simp [step, openValue, isSpace, Digits.ofNat]
    exact .cons hopen (leads_of_number (fun i => (stepNumber_of_mayFollow hc _ i).1) rfl h)
  · obtain ⟨k, rfl⟩ : ∃ k : Nat, n = k := ⟨n.natAbs, by omega⟩
    have hk : 0 < k ∧ k ≤ Digits.maxSignificand := by omega
    have hdigits := leads_natChars (fun d => step_firstDigit stack place) hk.1 hk.2
    rw [if_neg (by omega), Int.natAbs_natCast]
    exact hdigits.append (leads_of_number (fun i => (stepNumber_of_mayFollow hc _ i).2) rfl h)

/-! ## Arrays -/

theorem compactItems_cons (first : Bool) (j : Json) (items : List Json) :
    compactItems first (j :: items)
      = (if first then [] else [',']) ++ compactChars j ++ compactItems false items := by
  rw [compactItems]

theorem exists_cons_compactItems (items : List Json) :
    ∃ c text, compactItems false items ++ [']'] = c :: text ∧ MayFollow c := by
  cases items with
  | nil => exact ⟨_, _, by rw [compactItems]; rfl, Or.inr (Or.inl rfl)⟩
  | cons j items => exact ⟨',', _, by rw [compactItems_cons]; rfl, Or.inl rfl⟩

/-- The items behind the first lead to the end of the array. -/
theorem leads_compactItems {stack : List Frame} {new : List Json}
    (hnew : ∀ j ∈ new, ∀ items, IsReadBackOn (.arr items :: stack) j) (items : List Json) :
    Machine.Leads ⟨.arr items :: stack, .more⟩ (compactItems false new ++ [']'])
      (complete stack (.arr (items.reverse ++ new))) := by
  induction new generalizing items with
  | nil =>
      rw [compactItems]
      refine .cons (fun i => ?_) (Machine.leads_nil _)
      simp [step, stepMore, isSpace, close]
  | cons j new ih =>
      obtain ⟨hj, hrest⟩ := List.forall_mem_cons.mp hnew
      have hbehind := ih hrest (j :: items)
      obtain ⟨c, text, htext, hc⟩ := exists_cons_compactItems new
      -- `c` is what stands behind the item: a comma or the closing bracket
      have hcut :
          compactItems false (j :: new) ++ [']'] = ',' :: (compactChars j ++ c :: text) := by
        rw [compactItems_cons, ← htext]
        simp
      have hcomma : ∀ i, step ⟨.arr items :: stack, .more⟩ i ','
          = .ok ⟨.arr items :: stack, .value .nextItem⟩ := by
        intro i
        simp [step, stepMore, isSpace]
      have hitems : items.reverse ++ j :: new = (j :: items).reverse ++ new := by simp
      rw [hcut, hitems]
      rw [htext] at hbehind
      exact .cons hcomma (hj items .nextItem c text _ hc hbehind)

/-- **The items of an array lead to its end**, behind the opening bracket. -/
theorem leads_arr {stack : List Frame} {new : List Json}
    (hnew : ∀ j ∈ new, ∀ items, IsReadBackOn (.arr items :: stack) j) :
    Machine.Leads ⟨.arr [] :: stack, .value .firstItem⟩ (compactItems true new ++ [']'])
      (complete stack (.arr new)) := by
  cases new with
  | nil =>
      rw [compactItems]
      exact .cons (fun _ => rfl) (Machine.leads_nil _)
  | cons j new =>
      obtain ⟨hj, hrest⟩ := List.forall_mem_cons.mp hnew
      have hbehind : Machine.Leads ⟨.arr [j] :: stack, .more⟩ (compactItems false new ++ [']'])
          (complete stack (.arr (j :: new))) := leads_compactItems hrest [j]
      obtain ⟨c, text, htext, hc⟩ := exists_cons_compactItems new
      have hcut : compactItems true (j :: new) ++ [']'] = compactChars j ++ c :: text := by
        rw [compactItems_cons, ← htext]
        simp
      rw [hcut]
      rw [htext] at hbehind
      exact hj [] .firstItem c text _ hc hbehind

/-! ## Objects -/

theorem insertEntry_of_lt {name : String} {value : Json} {entries : List (String × Json)}
    (h : ∀ e ∈ entries, e.1 < name) :
    insertEntry name value entries = entries ++ [(name, value)] := by
  induction entries with
  | nil => rfl
  | cons e entries ih =>
      obtain ⟨k, v⟩ := e
      obtain ⟨hk, hrest⟩ := List.forall_mem_cons.mp h
      have hnot : ¬name < k := fun hlt => String.lt_irrefl k (String.lt_trans hk hlt)
      have hne : ¬name = k := fun e => String.lt_irrefl k (e ▸ hk)
      rw [insertEntry, if_neg hnot, if_neg hne, ih hrest, List.cons_append]

/-- **Entries with increasing names are put one behind the other.** -/
theorem insertAll_of_sorted {entries new : List (String × Json)}
    (h : SortedNames (entries ++ new)) : insertAll entries new = entries ++ new := by
  induction new generalizing entries with
  | nil => exact (List.append_nil _).symm
  | cons e new ih =>
      have hlast : ∀ e' ∈ entries, e'.1 < e.1 := fun e' he' =>
        (List.pairwise_append.mp h).2.2 e' he' e List.mem_cons_self
      have happend : entries ++ e :: new = (entries ++ [e]) ++ new := by simp
      rw [happend] at h ⊢
      show insertAll (insertEntry e.1 e.2 entries) new = _
      rw [insertEntry_of_lt hlast]
      exact ih h

/-! ## Nested values -/

/-- **A value that is read back**: its numbers are integers of 64 bits, the names of its objects
increase, and at most `depth` containers stand around each other in it. -/
inductive Readable : Nat → Json → Prop where
  | str {depth : Nat} (s : String) : Readable depth (.str s)
  | bool {depth : Nat} (b : Bool) : Readable depth (.bool b)
  | int {depth : Nat} {n : Int} (hmin : -(Digits.maxNegative : Int) ≤ n)
      (hmax : n ≤ Digits.maxSignificand) : Readable depth (.num (.int n))
  | arr {depth : Nat} {items : List Json} (h : ∀ j ∈ items, Readable depth j) :
      Readable (depth + 1) (.arr items)
  | obj {depth : Nat} {entries : List (String × Json)} (hs : SortedNames entries)
      (h : ∀ e ∈ entries, Readable depth e.2) : Readable (depth + 1) (.obj entries)

theorem step_open {stack : List Frame} (h : stack.length + 1 ≠ maxDepth) (place : Place) (i : Nat) :
    step ⟨stack, .value place⟩ i '[' = .ok ⟨.arr [] :: stack, .value .firstItem⟩ ∧
      step ⟨stack, .value place⟩ i '\x7b' = .ok ⟨.obj [] "" :: stack, .name true⟩ := by
  constructor <;> simp [step, openValue, isSpace, h]

theorem leads_compact_arr {stack : List Frame} (hroom : stack.length + 1 ≠ maxDepth)
    {items : List Json} (h : ∀ j ∈ items, ∀ acc, IsReadBackOn (.arr acc :: stack) j)
    (place : Place) : Machine.Leads ⟨stack, .value place⟩ (compactChars (.arr items))
      (complete stack (.arr items)) := by
  rw [compactChars]
  exact .cons (fun i => (step_open hroom place i).1) (leads_arr h)

theorem leads_compact_obj {stack : List Frame} (hroom : stack.length + 1 ≠ maxDepth)
    {entries : List (String × Json)} (hs : SortedNames entries)
    (h : ∀ e ∈ entries, ∀ acc name, IsReadBackOn (.obj acc name :: stack) e.2) (place : Place) :
    Machine.Leads ⟨stack, .value place⟩ (compactChars (.obj entries))
      (complete stack (.obj entries)) := by
  have hentries : insertAll [] entries = entries := @insertAll_of_sorted [] entries hs
  have hobj := leads_obj fun e he => isReadBackIn_of_on (h e he)
  rw [hentries] at hobj
  rw [compactChars_obj]
  exact .cons (fun i => (step_open hroom place i).2) hobj

/-- **A readable value is read back** behind any containers that leave room for its own. -/
theorem Readable.isReadBackOn {depth : Nat} {j : Json} (h : Readable depth j)
    {stack : List Frame} (hroom : stack.length + depth < maxDepth) : IsReadBackOn stack j := by
  -- each container that is open leaves room for one less
  induction h generalizing stack with
  | str s =>
      refine isReadBackOn_of_leads fun place => ?_
      rw [compactChars_str]
      exact leads_str stack place s
  | bool b => exact isReadBackOn_of_leads fun place => leads_bool stack place b
  | int hmin hmax => exact isReadBackOn_int stack hmin hmax
  | arr _ ih =>
      refine isReadBackOn_of_leads (leads_compact_arr (by omega) fun j hj acc => ih j hj ?_)
      rw [List.length_cons]
      omega
  | obj hs _ ih =>
      refine isReadBackOn_of_leads (leads_compact_obj (by omega) hs fun e he acc name =>
        ih e he ?_)
      rw [List.length_cons]
      omega

/-- **A readable object is read back from its text.** -/
theorem parse_compact {depth : Nat} {entries : List (String × Json)}
    (h : Readable depth (.obj entries)) (hdepth : depth < maxDepth) :
    parse (compact (.obj entries)) = .ok (.obj entries) := by
  cases h with
  | @obj depth _ hs h =>
      have hread : ∀ e ∈ entries, ∀ acc name, IsReadBackOn [.obj acc name] e.2 := by
        intro e he acc name
        refine (h e he).isReadBackOn ?_
        rw [List.length_singleton]
        omega
      have hleads : start.Leads (compactChars (.obj entries)) (complete [] (.obj entries)) :=
        leads_compact_obj (by decide) hs hread .plain
      rw [parse, compact, String.toList_ofList, run, hleads 0]
      rfl

end Registrar.Json
