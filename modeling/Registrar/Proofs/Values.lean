import Registrar.Freeform.Encoding
import Registrar.Proofs.Bytes
import Registrar.Proofs.Traversal

/-!
# Values and their text

A value of a field is written as its text (`Scalar.asText`) and read from a text by
`FieldKind.convert`. What has been read is *canonical*: a value of a domain in the spelling that
the domain has for it. A canonical value reads back from its text as itself, and any value reads
back as some value exactly if its kind *knows* it, which asks for a spelling up to case only.

* `FieldKind.convert_asText` — a canonical value reads back.
* `FieldKind.exists_convert_asText_iff` — which values read back at all.
* `FieldKind.isCanonical_of_convert` — what has been read is canonical.
* `FieldKind.isPlain_asText_of_convert` — what has been read holds no reserved character.
-/

set_option autoImplicit false

namespace Registrar

/-! ## Integers -/

namespace Text

theorem readDigits_eq_ofDigitChars {cs : List Char} (h : ∀ c ∈ cs, c.isDigit = true)
    (value : Nat) : readDigits value cs = some (Nat.ofDigitChars 10 cs value) := by
  induction cs generalizing value with
  | nil => simp [readDigits, Nat.ofDigitChars]
  | cons c cs ih =>
      have hc := h c List.mem_cons_self
      have hcs := fun d hd => h d (List.mem_cons_of_mem _ hd)
      simp only [readDigits, hc, if_true]
      rw [ih hcs, Nat.ofDigitChars_cons, Nat.mul_comm value 10]
      rfl

theorem isDigit_of_mem_natChars {n : Nat} {c : Char} (h : c ∈ Json.natChars n) :
    c.isDigit = true :=
  Nat.isDigit_of_mem_toDigits (by decide) (by decide) h

theorem readNat?_natChars (n : Nat) : readNat? (Json.natChars n) = some n := by
  have hne : Json.natChars n ≠ [] := Nat.toDigits_ne_nil
  have hd : ∀ c ∈ Json.natChars n, c.isDigit = true := fun c => isDigit_of_mem_natChars
  cases hn : Json.natChars n with
  | nil => exact absurd hn hne
  | cons c cs =>
      rw [hn] at hd
      rw [readNat?, readDigits_eq_ofDigitChars hd, ← hn, Json.natChars,
        Nat.ofDigitChars_ten_toDigits]

/-- **An integer reads back** from its decimal text. -/
theorem readInt?_intChars (n : Int) : readInt? (Json.intChars n) = some n := by
  unfold Json.intChars
  split
  · rename_i hn
    simp only [readInt?, readNat?_natChars]
    show some (-(n.natAbs : Int)) = some n
    rw [Option.some.injEq]
    omega
  · rename_i hn
    have hne : Json.natChars n.natAbs ≠ [] := Nat.toDigits_ne_nil
    cases hc : Json.natChars n.natAbs with
    | nil => exact absurd hc hne
    | cons c cs =>
        have hd : c.isDigit = true := isDigit_of_mem_natChars (hc ▸ List.mem_cons_self)
        rw [readInt?_digits hd, ← hc, readNat?_natChars, Option.map_some, Option.some.injEq]
        show (n.natAbs : Int) = n
        omega

theorem trim_eq_self {cs : List Char} (h : ∀ c ∈ cs, isBlank c = false) : trim cs = cs := by
  have hstart : trimStart cs = cs := by
    cases cs with
    | nil => rfl
    | cons c cs => simp [trimStart, h c List.mem_cons_self]
  rw [trim, hstart, trimEnd]
  cases hr : cs.reverse with
  | nil => simpa using hr.symm
  | cons c rest =>
      have hc : c ∈ cs := by
        rw [← List.mem_reverse, hr]
        exact List.mem_cons_self
      rw [List.dropWhile_cons_of_neg (by simp [h c hc]), ← hr, List.reverse_reverse]

/-- A digit or a sign is an ASCII character from the hyphen to the nine. -/
theorem bounds_of_mem_intChars {n : Int} {c : Char} (h : c ∈ Json.intChars n) :
    45 ≤ c.toNat ∧ c.toNat ≤ 57 := by
  have digit : ∀ m : Nat, c ∈ Json.natChars m → 45 ≤ c.toNat ∧ c.toNat ≤ 57 := by
    intro m hm
    have hd := isDigit_of_mem_natChars hm
    simp only [Char.isDigit, Bool.and_eq_true, decide_eq_true_eq] at hd
    have h₁ : (48 : UInt32).toNat ≤ c.val.toNat := UInt32.le_iff_toNat_le.mp hd.1
    have h₂ : c.val.toNat ≤ (57 : UInt32).toNat := UInt32.le_iff_toNat_le.mp hd.2
    have : c.toNat = c.val.toNat := rfl
    simp at h₁ h₂
    omega
  unfold Json.intChars at h
  split at h
  · rcases List.mem_cons.mp h with rfl | h
    · decide
    · exact digit _ h
  · exact digit _ h

theorem isBlank_of_mem_intChars {n : Int} {c : Char} (h : c ∈ Json.intChars n) :
    isBlank c = false := by
  have hb := bounds_of_mem_intChars h
  -- no blank lies between the hyphen and the nine
  have table : ∀ m < 58, 45 ≤ m → inRanges blankRanges m = false := by decide
  exact table c.toNat (by omega) hb.1

end Text

/-! ## Reserved characters -/

/-- Whether a text holds no character that is reserved in occurrences. -/
def Text.isPlain (cs : List Char) : Bool := !cs.any User.isReserved

theorem Text.isPlain_iff {cs : List Char} :
    isPlain cs = true ↔ '~' ∉ cs ∧ '\x7b' ∉ cs ∧ '\x7d' ∉ cs := by
  simp only [isPlain, Bool.not_eq_true', List.any_eq_false, User.isReserved, Occurrence.isBrace,
    Bool.or_eq_true, beq_iff_eq, not_or]
  constructor
  · intro h
    exact ⟨fun hm => (h _ hm).1 rfl, fun hm => (h _ hm).2.1 rfl, fun hm => (h _ hm).2.2 rfl⟩
  · rintro ⟨h₁, h₂, h₃⟩ c hc
    exact ⟨fun e => h₁ (e ▸ hc), fun e => h₂ (e ▸ hc), fun e => h₃ (e ▸ hc)⟩

theorem User.closesEarly_of_noColon {cs : List Char} (h : ':' ∉ cs) : closesEarly cs = false := by
  induction cs with
  | nil => rfl
  | cons c cs ih =>
      simp only [List.mem_cons, not_or] at h
      have hhead : cs.head? ≠ some ':' := fun e => h.2 (List.mem_of_mem_head? (by simp [e]))
      simp [closesEarly, ih h.2, hhead]

theorem Scalar.asText_chars {v : Scalar} (h : ∀ s, v ≠ .text s) :
    Text.isPlain v.asText.toList = true ∧ ':' ∉ v.asText.toList := by
  cases v with
  | text s => exact absurd rfl (h s)
  | flag b => cases b <;> decide
  | number n =>
      have hb := fun c hc => Text.bounds_of_mem_intChars (n := n.toInt) (c := c) hc
      simp only [asText, String.toList_ofList, Text.isPlain_iff]
      refine ⟨⟨fun hm => ?_, fun hm => ?_, fun hm => ?_⟩, fun hm => ?_⟩
      all_goals
        have := hb _ hm
        simp at this

/-! ## Names up to case -/

/-- The lower-case form of a text, as characters. -/
def Text.lowerChars (s : String) : List Char := s.toList.flatMap lower

theorem Text.sameName_iff {s t : String} : sameName s t = true ↔ lowerChars s = lowerChars t := by
  rw [sameName, beq_iff_eq, ← String.toList_inj, toList_lowercase, toList_lowercase]
  rfl

theorem Text.find?_sameName {α : Type} (name : α → String) {xs : List α}
    (h : (xs.map fun x => lowerChars (name x)).Nodup) {x : α} (hx : x ∈ xs) :
    xs.find? (fun y => sameName (name y) (name x)) = some x := by
  induction xs with
  | nil => cases hx
  | cons y ys ih =>
      rw [List.map_cons, List.nodup_cons] at h
      rcases List.mem_cons.mp hx with rfl | hx
      · simp [sameName_iff]
      · have hne : ¬sameName (name y) (name x) = true := fun e =>
          h.1 (List.mem_map.mpr ⟨x, hx, (sameName_iff.mp e).symm⟩)
        simp only [List.find?_cons, hne, ih h.2 hx]

/-! ## Domains -/

namespace Domain

/-- All values of domains are ASCII. No two of a domain differ in case only, and none holds a
reserved character. -/
theorem ascii_table : ∀ d ∈ all, (∀ v ∈ d.values, Text.isAscii v = true) ∧
    (d.values.map fun v => (Text.asciiChars v).flatMap Text.lower).Nodup ∧
      ∀ v ∈ d.values, Text.isPlain (Text.asciiChars v) = true := by
  decide

/-- No two values of a domain differ in case only, and none holds a reserved character. -/
theorem values_table : ∀ d ∈ all,
    (d.values.map Text.lowerChars).Nodup ∧ ∀ v ∈ d.values, Text.isPlain v.toList = true := by
  intro d hd
  obtain ⟨hascii, hnodup, hplain⟩ := ascii_table d hd
  have hlower : d.values.map Text.lowerChars
      = d.values.map fun v => (Text.asciiChars v).flatMap Text.lower := by
    apply List.map_congr_left
    intro v hv
    rw [Text.lowerChars, Text.toList_eq_asciiChars (hascii v hv)]
  refine ⟨hlower ▸ hnodup, fun v hv => ?_⟩
  rw [Text.toList_eq_asciiChars (hascii v hv)]
  exact hplain v hv

/-- No value of a domain is empty. -/
theorem ne_empty_table : ∀ d ∈ all, "" ∉ d.values := by
  decide

/-- **A value of a domain is its own canonical spelling.** -/
theorem get?_of_mem {d : Domain} (hd : d ∈ all) {v : String} (hv : v ∈ d.values) :
    d.get? v = some v :=
  Text.find?_sameName id (values_table d hd).1 hv

theorem isPlain_of_mem {d : Domain} (hd : d ∈ all) {v : String} (hv : v ∈ d.values) :
    Text.isPlain v.toList = true :=
  (values_table d hd).2 v hv

end Domain

/-! ## Conversion -/

namespace FieldKind

theorem eq_boolean_of_admits {k : FieldKind} {b : Bool} (h : k.admits (.flag b) = true) :
    k = .boolean := by
  cases k <;> first | rfl | cases h

/-- Whether the domain of a kind, if it has one, is one of the schema. -/
def isListed : FieldKind → Bool
  | .enum d => d ∈ Domain.all
  | _ => true

theorem mem_all_of_isListed {d : Domain} (h : (enum d).isListed = true) : d ∈ Domain.all :=
  of_decide_eq_true h

/-- Whether a value is one that conversion gives: of a domain, in the spelling of the domain. -/
def IsCanonical : FieldKind → Scalar → Prop
  | .enum d, .text s => s ∈ d.values
  | .booleanText, .text s => s = Scalar.truth true ∨ s = Scalar.truth false
  | _, _ => True

/-- Whether conversion takes the text of a value: one of a domain has to be spelled like a value
of the domain, up to case. -/
def Knows : FieldKind → Scalar → Prop
  | .enum d, .text s => (d.get? s).isSome = true
  | .booleanText, .text s => Text.lowercase s = "true" ∨ Text.lowercase s = "false"
  | _, _ => True

theorem parseBoolean_truth (field : String) (b : Bool) :
    parseBoolean field (Scalar.truth b) = .ok b := by
  have ht : Text.lowercase "true" = "true" := by decide
  have hf : Text.lowercase "false" = "false" := by decide
  cases b with
  | true => simp [parseBoolean, Scalar.truth, ht]
  | false => simp [parseBoolean, Scalar.truth, hf]

theorem parseBoolean_eq_false_iff {field value : String} :
    parseBoolean field value = .ok false ↔ Text.lowercase value = "false" := by
  unfold parseBoolean
  by_cases htrue : Text.lowercase value = "true"
  · rw [if_pos htrue, htrue]
    exact iff_of_false (by simp) (by decide)
  · rw [if_neg htrue]
    by_cases hfalse : Text.lowercase value = "false" <;> simp [hfalse]

theorem convert_integer (field : String) (n : Int64) :
    convert .integer field (Scalar.number n).asText = .ok ⟨.number n, admits_integer n⟩ := by
  have hb : ∀ c ∈ Json.intChars n.toInt, Text.isBlank c = false := fun c =>
    Text.isBlank_of_mem_intChars
  simp only [convert, Scalar.asText, String.toList_ofList, Text.trim_eq_self hb,
    Text.readInt?_intChars, Option.bind_some, Text.int64?_toInt]

/-- **A canonical value reads back from its text.** -/
theorem convert_asText {k : FieldKind} (hk : k.isListed = true) (field : String) (v : k.Value)
    (h : k.IsCanonical v.val) : k.convert field v.val.asText = .ok v := by
  obtain ⟨v, hv⟩ := v
  cases k with
  | text => cases v <;> first | rfl | cases hv
  | boolean =>
      cases v with
      | flag b => simp [convert, Scalar.asText, parseBoolean_truth, Except.map]
      | text s => cases hv
      | number n => cases hv
  | booleanText =>
      cases v with
      | text s =>
          rcases h with rfl | rfl <;>
            simp [convert, Scalar.asText, parseBoolean_truth, Except.map]
      | flag b => cases hv
      | number n => cases hv
  | integer =>
      cases v with
      | number n => exact convert_integer field n
      | text s => cases hv
      | flag b => cases hv
  | enum d =>
      cases v with
      | text s =>
          -- a value of a domain is found under its own spelling
          have hs : d.check s = .ok s :=
            Domain.check_eq_ok_iff.mpr (Domain.get?_of_mem (mem_all_of_isListed hk) h)
          simp [convert, Scalar.asText, hs, Except.map]
      | flag b => cases hv
      | number n => cases hv

/-- **What conversion gives is canonical.** -/
theorem isCanonical_of_convert {k : FieldKind} {field text : String} {v : k.Value}
    (h : k.convert field text = .ok v) : k.IsCanonical v.val := by
  cases k with
  | text => cases h; trivial
  | boolean =>
      obtain ⟨b, -, rfl⟩ := map_eq_ok_iff.mp h
      trivial
  | booleanText =>
      obtain ⟨b, -, rfl⟩ := map_eq_ok_iff.mp h
      cases b with
      | true => exact Or.inl rfl
      | false => exact Or.inr rfl
  | integer =>
      simp only [convert] at h
      split at h
      · cases h; trivial
      · cases h
  | enum d =>
      obtain ⟨s, hs, rfl⟩ := map_eq_ok_iff.mp h
      exact Domain.mem_of_get? (Domain.check_eq_ok_iff.mp hs)

theorem convert_of_text {k : FieldKind} (hk : k = .text) (field value : String) :
    k.convert field value = .ok ⟨.text value, hk ▸ admits_text value⟩ := by
  subst hk
  rfl

theorem convert_of_boolean {k : FieldKind} (hk : k = .boolean) (field value : String) :
    k.convert field value
      = (parseBoolean field value).map fun b => ⟨.flag b, hk ▸ admits_boolean b⟩ := by
  subst hk
  rfl

theorem convert_eq_false_iff {k : FieldKind} {field text : String} {v : k.Value}
    (h : k.convert field text = .ok v) :
    v.val = .flag false ↔ k = .boolean ∧ Text.lowercase text = "false" := by
  constructor
  · intro hflag
    obtain rfl : k = .boolean := eq_boolean_of_admits (hflag ▸ v.property)
    obtain ⟨b, hb, rfl⟩ := map_eq_ok_iff.mp h
    obtain rfl : b = false := Scalar.flag.inj hflag
    exact ⟨rfl, parseBoolean_eq_false_iff.mp hb⟩
  · rintro ⟨rfl, hfalse⟩
    obtain ⟨b, hb, rfl⟩ := map_eq_ok_iff.mp h
    rw [parseBoolean_eq_false_iff.mpr hfalse] at hb
    cases hb
    rfl

/-- **A value reads back from its text as some value exactly if its kind knows it.** -/
theorem exists_convert_asText_iff (k : FieldKind) (field : String) (v : k.Value) :
    (∃ w, k.convert field v.val.asText = .ok w) ↔ k.Knows v.val := by
  -- kinds without a domain know each of their values, which are canonical
  have listed : k.isListed = true → k.IsCanonical v.val →
      ∃ w, k.convert field v.val.asText = .ok w :=
    fun hk h => ⟨v, convert_asText hk field v h⟩
  obtain ⟨v, hv⟩ := v
  cases k with
  | text => exact iff_of_true (listed rfl trivial) trivial
  | boolean => exact iff_of_true (listed rfl trivial) trivial
  | integer => exact iff_of_true (listed rfl trivial) trivial
  | booleanText =>
      cases v with
      | text s =>
          refine exists_map_eq_ok_iff.trans ?_
          simp only [Scalar.asText, parseBoolean, Knows]
          by_cases ht : Text.lowercase s = "true"
          · simp [ht]
          · by_cases hf : Text.lowercase s = "false" <;> simp [ht, hf]
      | flag b => cases hv
      | number n => cases hv
  | enum d =>
      cases v with
      | text s =>
          refine exists_map_eq_ok_iff.trans ?_
          simp only [Scalar.asText, Domain.check, Knows]
          cases d.get? s <;> simp
      | flag b => cases hv
      | number n => cases hv

/-- **What conversion gives for a text without reserved characters holds none.** -/
theorem isPlain_asText_of_convert {k : FieldKind} (hk : k.isListed = true) {field text : String}
    {v : k.Value} (h : k.convert field text = .ok v) (ht : Text.isPlain text.toList = true) :
    Text.isPlain v.val.asText.toList = true := by
  cases k with
  | text => cases h; exact ht
  | boolean =>
      have hv := v.property
      exact (Scalar.asText_chars fun s e => by rw [e] at hv; cases hv).1
  | integer =>
      have hv := v.property
      exact (Scalar.asText_chars fun s e => by rw [e] at hv; cases hv).1
  | booleanText =>
      obtain ⟨v, hv⟩ := v
      cases v with
      | text s =>
          -- `true` and `false` are the only texts of this kind
          have plain : ∀ b, Text.isPlain (Scalar.truth b).toList = true := by decide
          rcases isCanonical_of_convert h with rfl | rfl
          · exact plain true
          · exact plain false
      | flag b => cases hv
      | number n => cases hv
  | enum d =>
      obtain ⟨v, hv⟩ := v
      cases v with
      | text s => exact Domain.isPlain_of_mem (mem_all_of_isListed hk) (isCanonical_of_convert h)
      | flag b => cases hv
      | number n => cases hv

end FieldKind

theorem Field.isZero_convert {f : Field} {column text : String} {v : f.kind.Value}
    (htext : text ≠ "") (h : f.kind.convert column text = .ok v) :
    f.isZero v.val = true ↔ v.val = .flag false := by
  rw [Field.isZero_eq_true_iff]
  refine ⟨?_, Or.inl⟩
  rintro (hflag | ⟨hclear, hempty⟩)
  · exact hflag
  · -- a text that can be cleared is kept as it is
    have hkind := f.text_of_clearable hclear
    obtain ⟨name, kind, clearable, hclearable⟩ := f
    obtain rfl : kind = .text := hkind
    cases h
    exact absurd (Scalar.text.inj hempty) htext

end Registrar
