import Registrar.Text.Ranges

/-!
# White space

`isBlank` is the Unicode property *White_Space*; `trim` takes blanks off both ends of a text.

* `trim_eq_nil_iff` — a text trims to nothing exactly when all of it is blank.
* `trim_of_not_blank_ends` — a text that starts and ends with non-blanks is left as it is.
-/

set_option autoImplicit false

namespace Registrar.Text

/-- The characters with the property *White_Space*. -/
def blankRanges : List (Nat × Nat) :=
  [ (0x0009, 0x000D), (0x0020, 0x0020), (0x0085, 0x0085), (0x00A0, 0x00A0), (0x1680, 0x1680),
    (0x2000, 0x200A), (0x2028, 0x2029), (0x202F, 0x202F), (0x205F, 0x205F), (0x3000, 0x3000) ]

/-- **A blank**: any white space character. -/
def isBlank (c : Char) : Bool := inRanges blankRanges c.toNat

def trimStart (cs : List Char) : List Char := cs.dropWhile isBlank

def trimEnd (cs : List Char) : List Char := (cs.reverse.dropWhile isBlank).reverse

/-- The text without the blanks at both ends. -/
def trim (cs : List Char) : List Char := trimEnd (trimStart cs)

def trimString (s : String) : String := String.ofList (trim s.toList)

theorem trimStart_eq_nil_iff {cs : List Char} :
    trimStart cs = [] ↔ ∀ c ∈ cs, isBlank c = true := by
  induction cs with
  | nil => exact iff_of_true rfl fun c hc => absurd hc List.not_mem_nil
  | cons c cs ih =>
      rw [List.forall_mem_cons, ← ih, trimStart, List.dropWhile_cons]
      by_cases h : isBlank c = true
      · rw [if_pos h, and_iff_right h]
        rfl
      · rw [if_neg h]
        exact iff_of_false (List.cons_ne_nil c cs) fun hc => h hc.1

theorem trimEnd_eq_nil_iff {cs : List Char} :
    trimEnd cs = [] ↔ ∀ c ∈ cs, isBlank c = true := by
  rw [trimEnd, List.reverse_eq_nil_iff]
  exact trimStart_eq_nil_iff.trans (forall_congr' fun c => imp_congr_left List.mem_reverse)

/-- **A text trims to nothing exactly when all of it is blank.** -/
theorem trim_eq_nil_iff {cs : List Char} : trim cs = [] ↔ ∀ c ∈ cs, isBlank c = true := by
  rw [trim, trimEnd_eq_nil_iff]
  constructor
  · intro h
    cases hs : trimStart cs with
    | nil => exact trimStart_eq_nil_iff.mp hs
    | cons c rest =>
        have hne : trimStart cs ≠ [] := by simp [hs]
        have hb := List.head_dropWhile_not isBlank (l := cs) hne
        have hm := h _ (List.head_mem hne)
        simp only [trimStart] at hm
        rw [hb] at hm
        exact absurd hm (by simp)
  · intro h c hc
    exact h c ((List.dropWhile_sublist _).subset hc)

theorem trim_of_not_blank_ends {a b : Char} {mid : List Char} (ha : isBlank a = false)
    (hb : isBlank b = false) : trim (a :: (mid ++ [b])) = a :: (mid ++ [b]) := by
  simp [trim, trimStart, trimEnd, ha, hb]

end Registrar.Text
