import Registrar.Proofs.Language.Scanning

/-!
# Clauses of a query

A clause is a text without tildes. It has six parts, and from the name on each of them may be
missing if nothing comes behind it:

```
( isadmin = True     lead "( ", name "isadmin", gap " ", operator "=", space " ", value "True"
[*                   lead "[*"
orgname!!5           name "orgname", operator "!", value "!5"
```

The name is the first one in the text, and each part goes on as far as it can. So a text is a
clause in one way only.

* `Query.Clause.exists_isWellFormed`, `Query.Clause.IsWellFormed.eq_of_text_eq` — each text is
  exactly one clause.
* `Text.isBlank_of_isLetter` — no letter is a blank.
-/

set_option autoImplicit false

namespace Registrar

open Text (isBlank isLetter)

/-! ## No letter is a blank -/

namespace Text

theorem exists_mem_of_inRanges {ranges : List (Nat × Nat)} {n : Nat}
    (h : inRanges ranges n = true) : ∃ r ∈ ranges, r.1 ≤ n ∧ n ≤ r.2 := by
  induction ranges with
  | nil => cases h
  | cons r rest ih =>
      rw [inRanges] at h
      split at h
      · cases h
      · rename_i hlo
        split at h
        · rename_i hhi
          exact ⟨r, List.mem_cons_self, Nat.le_of_not_lt hlo, hhi⟩
        · obtain ⟨s, hs, hbounds⟩ := ih h
          exact ⟨s, List.mem_cons_of_mem _ hs, hbounds⟩

theorem letterRanges_disjoint :
    ∀ r ∈ blankRanges, ∀ s ∈ letterRanges, r.2 < s.1 ∨ s.2 < r.1 := by
  decide +kernel

theorem isBlank_of_isLetter {c : Char} (h : isLetter c = true) : isBlank c = false := by
  refine Bool.eq_false_iff.mpr fun hblank => ?_
  obtain ⟨r, hr, hr₁, hr₂⟩ := exists_mem_of_inRanges hblank
  obtain ⟨s, hs, hs₁, hs₂⟩ := exists_mem_of_inRanges h
  have := letterRanges_disjoint r hr s hs
  omega

end Text

/-! ## Longest runs -/

/-- **Whether a run is as long as it can be** in front of a text. -/
def IsLongestRun (p : Char → Bool) (run rest : List Char) : Prop :=
  (∀ ch ∈ run, p ch = true) ∧ ∀ ch ∈ rest.head?, p ch = false

-- decided over the run and the head of the rest, and not over all characters
instance (p : Char → Bool) (run rest : List Char) : Decidable (IsLongestRun p run rest) :=
  decidable_of_iff (run.all p = true ∧ rest.head?.all (!p ·) = true) <| by
    simp [IsLongestRun, Option.all_eq_true]

namespace IsLongestRun

variable {p : Char → Bool} {run rest : List Char}

theorem exists_append (p : Char → Bool) (cs : List Char) :
    ∃ run rest, cs = run ++ rest ∧ IsLongestRun p run rest := by
  refine ⟨cs.takeWhile p, cs.dropWhile p, List.takeWhile_append_dropWhile.symm,
    fun ch => List.mem_takeWhile_imp, fun ch hch => ?_⟩
  have hhead := List.head?_dropWhile_not p cs
  rw [Option.mem_def.mp hch] at hhead
  exact hhead

theorem takeWhile_eq (h : IsLongestRun p run rest) : (run ++ rest).takeWhile p = run := by
  rw [List.takeWhile_append_of_pos h.1]
  cases rest with
  | nil => simp
  | cons ch rest => simp [h.2 ch rfl]

theorem append_inj {run' rest' : List Char} (h : IsLongestRun p run rest)
    (h' : IsLongestRun p run' rest') (e : run ++ rest = run' ++ rest') :
    run = run' ∧ rest = rest' := by
  have hrun : run = run' := by rw [← h.takeWhile_eq, e, h'.takeWhile_eq]
  subst hrun
  exact ⟨rfl, List.append_cancel_left e⟩

end IsLongestRun

namespace Query

/-! ## Clauses -/

/-- **Whether a name begins with a text**: it starts with a letter, or with an underscore behind
which a letter, a numeral or an underscore stands. -/
def beginsName : List Char → Bool
  | [] => false
  | ch :: rest => isLetter ch || (ch == '_' && rest.head?.any Token.continuesName)

theorem beginsName_cons_iff {ch : Char} {rest : List Char} : beginsName (ch :: rest) = true ↔
    Scan.loneUnderscore ch rest = false ∧ Token.startsName ch = true := by
  by_cases hch : ch = '_'
  · subst hch
    have hletter : isLetter '_' = false := by decide +kernel
    simp [beginsName, Scan.loneUnderscore, Token.startsName, hletter]
  · simp [beginsName, Scan.loneUnderscore, Token.startsName, hch]

theorem isBlank_of_startsName {ch : Char} (h : Token.startsName ch = true) :
    isBlank ch = false := by
  rcases Bool.or_eq_true_iff.mp h with hletter | hunderscore
  · exact Text.isBlank_of_isLetter hletter
  · rw [beq_iff_eq.mp hunderscore]
    decide

/-- **The parts of a clause.** -/
structure Clause where
  lead : List Char
  name : List Char
  gap : List Char
  operator : List Char
  space : List Char
  value : List Char
deriving DecidableEq, Repr

namespace Clause

/-- What stands behind the operator. -/
def behindOperator (c : Clause) : List Char := c.space ++ c.value

/-- What stands behind the name. -/
def behindName (c : Clause) : List Char := c.gap ++ (c.operator ++ c.behindOperator)

/-- **The text of a clause.** -/
def text (c : Clause) : List Char := c.lead ++ (c.name ++ c.behindName)

/-- **Whether each part is where it belongs.** The name is the first one in the text, and goes on
as far as a name with dots can. Behind it stand blanks; an operator, which is any character that is
no blank with all that an operator can go on with; blanks again; and a value, which starts with no
blank and is the rest. -/
structure IsWellFormed (c : Clause) : Prop where
  lead : ∀ i < c.lead.length, beginsName (c.text.drop i) = false
  begins : c.name ≠ [] → beginsName (c.name ++ c.behindName) = true
  name : IsLongestRun continuesDotted c.name c.behindName
  gap : IsLongestRun isBlank c.gap (c.operator ++ c.behindOperator)
  operator : IsLongestRun Token.isOperator c.operator.tail c.behindOperator
  space : IsLongestRun isBlank c.space c.value
  noName : c.name = [] → c.behindName = []
  noOperator : c.operator = [] → c.behindOperator = []

instance (c : Clause) : Decidable c.IsWellFormed :=
  decidable_of_iff
    ((∀ i < c.lead.length, beginsName (c.text.drop i) = false) ∧
      (c.name ≠ [] → beginsName (c.name ++ c.behindName) = true) ∧
      IsLongestRun continuesDotted c.name c.behindName ∧
      IsLongestRun isBlank c.gap (c.operator ++ c.behindOperator) ∧
      IsLongestRun Token.isOperator c.operator.tail c.behindOperator ∧
      IsLongestRun isBlank c.space c.value ∧ (c.name = [] → c.behindName = []) ∧
      (c.operator = [] → c.behindOperator = []))
    ⟨fun ⟨h₁, h₂, h₃, h₄, h₅, h₆, h₇, h₈⟩ => ⟨h₁, h₂, h₃, h₄, h₅, h₆, h₇, h₈⟩,
      fun ⟨h₁, h₂, h₃, h₄, h₅, h₆, h₇, h₈⟩ => ⟨h₁, h₂, h₃, h₄, h₅, h₆, h₇, h₈⟩⟩

/-! ### Each text is one clause -/

theorem exists_lead (cs : List Char) :
    ∃ lead rest, cs = lead ++ rest ∧ (∀ i < lead.length, beginsName (cs.drop i) = false) ∧
      (rest ≠ [] → beginsName rest = true) := by
  induction cs with
  | nil => exact ⟨[], [], rfl, by simp, by simp⟩
  | cons ch cs ih =>
      cases hb : beginsName (ch :: cs) with
      | true => exact ⟨[], ch :: cs, rfl, by simp, fun _ => hb⟩
      | false =>
          obtain ⟨lead, rest, rfl, hlead, hrest⟩ := ih
          refine ⟨ch :: lead, rest, rfl, fun i hi => ?_, hrest⟩
          cases i with
          | zero => exact hb
          | succ i => exact hlead i (Nat.lt_of_succ_lt_succ hi)

theorem exists_operator (cs : List Char) :
    ∃ operator space value, cs = operator ++ (space ++ value) ∧
      IsLongestRun Token.isOperator operator.tail (space ++ value) ∧
      IsLongestRun isBlank space value ∧ (operator = [] → space ++ value = []) := by
  cases cs with
  | nil => exact ⟨[], [], [], rfl, by simp [IsLongestRun], by simp [IsLongestRun], by simp⟩
  | cons ch cs =>
      obtain ⟨run, rest, rfl, hrun⟩ := IsLongestRun.exists_append Token.isOperator cs
      obtain ⟨space, value, rfl, hspace⟩ := IsLongestRun.exists_append isBlank rest
      exact ⟨ch :: run, space, value, rfl, hrun, hspace, by simp⟩

/-- **Each text is a clause.** -/
theorem exists_isWellFormed (cs : List Char) : ∃ c : Clause, c.IsWellFormed ∧ c.text = cs := by
  obtain ⟨lead, rest, rfl, hlead, hbegins⟩ := exists_lead cs
  obtain ⟨name, behind, rfl, hname⟩ := IsLongestRun.exists_append continuesDotted rest
  obtain ⟨gap, behind, rfl, hgap⟩ := IsLongestRun.exists_append isBlank behind
  obtain ⟨operator, space, value, rfl, hoperator, hspace, hno⟩ := exists_operator behind
  refine ⟨⟨lead, name, gap, operator, space, value⟩, ⟨hlead, fun hne => ?_, hname, hgap, hoperator,
    hspace, fun hnil => ?_, hno⟩, rfl⟩
  · exact hbegins (List.append_ne_nil_of_left_ne_nil hne _)
  · -- a name that begins goes on with its first character
    obtain rfl : name = [] := hnil
    refine by_contra fun hne => ?_
    obtain ⟨ch, tail, hcons⟩ := List.exists_cons_of_ne_nil hne
    have hcons : gap ++ (operator ++ (space ++ value)) = ch :: tail := hcons
    rw [hcons] at hbegins hname
    obtain ⟨-, hstarts⟩ := beginsName_cons_iff.mp (hbegins (List.cons_ne_nil _ _))
    have hgoeson := continuesDotted_of_startsName hstarts
    rw [hname.2 ch rfl] at hgoeson
    cases hgoeson

theorem IsWellFormed.length_lead_le {c d : Clause} (hc : c.IsWellFormed) (hd : d.IsWellFormed)
    (h : c.text = d.text) : d.lead.length ≤ c.lead.length := by
  refine Nat.le_of_not_lt fun hlt => ?_
  have hdrop : c.text.drop c.lead.length = c.name ++ c.behindName := List.drop_left
  have hbegins := hd.lead c.lead.length hlt
  rw [← h, hdrop] at hbegins
  by_cases hname : c.name = []
  · -- nothing is left of the text for the other lead
    have hlength := congrArg List.length h
    simp [text, hname, hc.noName hname] at hlength
    omega
  · rw [hc.begins hname] at hbegins
    cases hbegins

/-- An operator and what stands behind it are told apart in one way. -/
theorem IsWellFormed.operator_append_inj {c d : Clause} (hc : c.IsWellFormed) (hd : d.IsWellFormed)
    (h : c.operator ++ c.behindOperator = d.operator ++ d.behindOperator) :
    c.operator = d.operator ∧ c.behindOperator = d.behindOperator := by
  have hcrun := hc.operator
  have hdrun := hd.operator
  cases hco : c.operator with
  | nil =>
      have hnil := hc.noOperator hco
      rw [hco, hnil] at h
      obtain ⟨hoperator, hbehind⟩ := List.append_eq_nil_iff.mp h.symm
      exact ⟨hoperator.symm, hnil.trans hbehind.symm⟩
  | cons ch run =>
      -- without an operator there is no value either
      cases hdo : d.operator with
      | nil =>
          rw [hco, hdo, hd.noOperator hdo] at h
          cases h
      | cons ch' run' =>
          rw [hco] at hcrun h
          rw [hdo] at hdrun h
          obtain ⟨rfl, htail⟩ := List.cons.inj h
          obtain ⟨hrun, hbehind⟩ := hcrun.append_inj hdrun htail
          exact ⟨congrArg (ch :: ·) hrun, hbehind⟩

/-- **No text is two clauses.** -/
theorem IsWellFormed.eq_of_text_eq {c d : Clause} (hc : c.IsWellFormed) (hd : d.IsWellFormed)
    (h : c.text = d.text) : c = d := by
  have hlength : c.lead.length = d.lead.length :=
    Nat.le_antisymm (hd.length_lead_le hc h.symm) (hc.length_lead_le hd h)
  obtain ⟨hlead, h⟩ := List.append_inj h hlength
  obtain ⟨hname, h⟩ := hc.name.append_inj hd.name h
  obtain ⟨hgap, h⟩ := hc.gap.append_inj hd.gap h
  obtain ⟨hoperator, h⟩ := hc.operator_append_inj hd h
  obtain ⟨hspace, hvalue⟩ := hc.space.append_inj hd.space h
  cases c
  cases d
  simp only [mk.injEq]
  exact ⟨hlead, hname, hgap, hoperator, hspace, hvalue⟩

end Clause

end Query

end Registrar
