import Mathlib.Data.List.Find
import Registrar.Proofs.Batches.Restated
import Registrar.Proofs.Bytes
import Registrar.Proofs.Freeform.Reread

/-!
# Values converted again

What a cell or token has been converted to can be printed, a text as it is and anything else as in
JSON. Converting what has been printed gives the same value, whatever has been converted at first:

```
" +007 "    7          7           an integer
"FALSE"     false      false       a truth value
"oWnEr"     "OWNER"    OWNER       a value of a domain
```

Values of a domain are looked up by their lower-case forms. There a capital sigma is a letter of its
own kind, since Unicode writes it in another way at the end of a word than elsewhere. Where words
end is left open here: no value of a domain has a sigma, so it makes no difference.

* `Text.sameName_iff_lowercaseIn` — which form a sigma takes makes no difference to an ASCII name.
* `FieldKind.occursInSchema_iff` — the kinds of fields that the schema has.
* `FieldKind.convert_printed` — what has been printed converts to the same value.
-/

set_option autoImplicit false

namespace Registrar

/-! ## Lower-case forms in their context -/

namespace Text

/-- The lower-case form of the characters behind `front`. From what stands before and behind a
capital sigma, `isFinal` says whether it takes the form that ends a word. -/
def lowerBehind (isFinal : List Char → List Char → Bool) (front : List Char) :
    List Char → List Char
  | [] => []
  | c :: cs =>
      (if c = 'Σ' then [if isFinal front cs then 'ς' else 'σ'] else lower c)
        ++ lowerBehind isFinal (front ++ [c]) cs

/-- **The lower-case form of a text** where that of a capital sigma depends on the context. -/
def lowercaseIn (isFinal : List Char → List Char → Bool) (s : String) : String :=
  String.ofList (lowerBehind isFinal [] s.toList)

variable {isFinal : List Char → List Char → Bool}

theorem lower_sigma : lower 'Σ' = ['σ'] := by decide

theorem lowerBehind_of_not_mem {cs : List Char} (h : 'Σ' ∉ cs) (front : List Char) :
    lowerBehind isFinal front cs = cs.flatMap lower := by
  induction cs generalizing front with
  | nil => rfl
  | cons c cs ih =>
      rw [List.mem_cons, not_or] at h
      rw [lowerBehind, if_neg (Ne.symm h.1), ih h.2, List.flatMap_cons]

theorem exists_mem_lowerBehind {cs : List Char} (h : 'Σ' ∈ cs) (front : List Char) :
    ∃ c ∈ lowerBehind isFinal front cs, 128 ≤ c.toNat := by
  induction cs generalizing front with
  | nil => cases h
  | cons c cs ih =>
      unfold lowerBehind
      rcases List.mem_cons.mp h with rfl | h
      · rw [if_pos rfl]
        cases isFinal front cs with
        | true => exact ⟨'ς', by simp, by decide⟩
        | false => exact ⟨'σ', by simp, by decide⟩
      · obtain ⟨d, hd, hge⟩ := ih h (front ++ [c])
        exact ⟨d, List.mem_append_right _ hd, hge⟩

theorem sigma_mem_lowerChars {s : String} (h : 'Σ' ∈ s.toList) : 'σ' ∈ lowerChars s :=
  List.mem_flatMap.mpr ⟨'Σ', h, by rw [lower_sigma]; exact List.mem_singleton_self _⟩

theorem lt_of_mem_lower {c : Char} (h : c.toNat < 128) : ∀ d ∈ lower c, d.toNat < 128 := by
  have hletters : ∀ n ≤ 90, (Char.ofNat (n + 32)).toNat < 128 := by decide
  rw [lower_of_ascii h, List.forall_mem_singleton]
  unfold lowerAscii
  by_cases hletter : 65 ≤ c.toNat ∧ c.toNat ≤ 90
  · rw [if_pos hletter]
    exact hletters c.toNat hletter.2
  · rw [if_neg hletter]
    exact h

theorem lt_of_mem_lowerChars {s : String} (h : isAscii s = true) :
    ∀ d ∈ lowerChars s, d.toNat < 128 := by
  intro d hd
  obtain ⟨c, hc, hd⟩ := List.mem_flatMap.mp hd
  exact lt_of_mem_lower (lt_of_isAscii h hc) d hd

/-- **Which form a sigma takes makes no difference** to what is a spelling of an ASCII name. -/
theorem sameName_iff_lowercaseIn {name : String} (h : isAscii name = true)
    (isFinal : List Char → List Char → Bool) (s : String) :
    sameName name s = true ↔ lowercaseIn isFinal name = lowercaseIn isFinal s := by
  have hascii : ∀ c ∈ lowerChars name, c.toNat < 128 := lt_of_mem_lowerChars h
  have hname : 'Σ' ∉ name.toList := by
    intro hmem
    have := lt_of_isAscii h hmem
    simp at this
  have hlower : lowerBehind isFinal [] name.toList = lowerChars name :=
    lowerBehind_of_not_mem hname []
  rw [sameName_iff, lowercaseIn, lowercaseIn, String.ofList_inj, hlower]
  by_cases hs : 'Σ' ∈ s.toList
  · -- neither form of the sigma is ASCII, so the text is no spelling of the name
    refine iff_of_false (fun heq => ?_) fun heq => ?_
    · have := hascii _ (heq ▸ sigma_mem_lowerChars hs)
      simp at this
    · obtain ⟨c, hc, hge⟩ := exists_mem_lowerBehind hs []
      have := hascii c (heq ▸ hc)
      omega
  · rw [lowerBehind_of_not_mem hs]
    rfl

end Text

namespace Domain

/-- **A value is found by its lower-case form**, whichever form a sigma takes. -/
theorem get?_eq_find? {d : Domain} (hd : d ∈ all) (isFinal : List Char → List Char → Bool)
    (value : String) :
    d.get? value = d.values.find? fun v =>
      Text.lowercaseIn isFinal v == Text.lowercaseIn isFinal value := by
  unfold get?
  apply List.find?_congr
  intro v hv
  rw [Bool.eq_iff_iff, beq_iff_eq]
  exact Text.sameName_iff_lowercaseIn ((ascii_table d hd).1 v hv) isFinal value

/-- Each domain is that of a field. -/
theorem exists_field_table : ∀ d ∈ all,
    (∃ type ∈ [FlatType.groupSettings, FlatType.member], ∃ f ∈ type.shape.fields,
      f.kind = .enum d) ∨ ∃ c ∈ Composite.all, ∃ f ∈ c.shape.fields, f.kind = .enum d := by
  decide

end Domain

namespace FieldKind

/-! ## The kinds of the schema -/

/-- **Whether a field of the schema has a kind**: a field of an object, or one of an occurrence. -/
inductive OccursInSchema : FieldKind → Prop
  | field {o : ObjectType} {f : Field} (h : f ∈ o.fields) : OccursInSchema f.kind
  | subField {c : Composite} {f : Field} (h : f ∈ c.shape.fields) : OccursInSchema f.kind

theorem isListed_of_mem_fields (o : ObjectType) {f : Field} (h : f ∈ o.fields) :
    f.kind.isListed = true := by
  cases o with
  | flat type => exact (type.kinds_table f h).1
  | user =>
      obtain ⟨s, -, rfl⟩ := List.mem_map.mp h
      exact s.isListed_kind

theorem isListed_of_mem_shape (c : Composite) {f : Field} (h : f ∈ c.shape.fields) :
    f.kind.isListed = true :=
  ((Composite.fields_table c c.mem_all).2 f h).2.2

/-- **The kinds of the schema** are the four without a domain, and those of all domains. -/
theorem occursInSchema_iff {k : FieldKind} : k.OccursInSchema ↔ k.isListed = true := by
  constructor
  · rintro (⟨h⟩ | ⟨h⟩)
    · exact isListed_of_mem_fields _ h
    · exact isListed_of_mem_shape _ h
  · intro h
    -- each of the four kinds without a domain has a field to show for it
    have occurs (type : FlatType) {f : Field} (hf : f ∈ type.shape.fields) :
        OccursInSchema f.kind :=
      .field (show f ∈ (ObjectType.flat type).fields from hf)
    cases k with
    | text =>
        have hf : Field.text "alias" ∈ FlatType.alias.shape.fields := List.mem_cons_self
        exact occurs _ hf
    | boolean =>
        have hf : Field.boolean "blockInheritance" ∈ FlatType.orgUnit.shape.fields :=
          List.mem_cons_self
        exact occurs _ hf
    | booleanText =>
        have hf : Field.booleanText "allowExternalMembers" ∈ FlatType.groupSettings.shape.fields :=
          List.mem_cons_self
        exact occurs _ hf
    | integer =>
        have hf : Field.integer "expirationTimeUsec" ∈ Composite.sshPublicKey.shape.fields :=
          List.mem_cons_self
        exact .subField hf
    | enum d =>
        rcases Domain.exists_field_table d (mem_all_of_isListed h) with
          ⟨type, -, f, hf, hkind⟩ | ⟨c, -, f, hf, hkind⟩
        · exact hkind ▸ occurs type hf
        · exact hkind ▸ .subField hf

/-! ## Conversion -/

theorem convert_enum_of_lowercaseIn {d : Domain} (hd : d ∈ Domain.all)
    {isFinal : List Char → List Char → Bool} {a b : String}
    (h : Text.lowercaseIn isFinal a = Text.lowercaseIn isFinal b) {field : String}
    {v : (enum d).Value} (hb : convert (.enum d) field b = .ok v) :
    convert (.enum d) field a = .ok v := by
  have hget : d.get? a = d.get? b := by
    rw [Domain.get?_eq_find? hd isFinal a, h, ← Domain.get?_eq_find? hd isFinal b]
  obtain ⟨s, hs, rfl⟩ := map_eq_ok_iff.mp hb
  have ha : d.check a = .ok s := by
    rw [Domain.check_eq_ok_iff, hget]
    exact Domain.check_eq_ok_iff.mp hs
  exact map_eq_ok_iff.mpr ⟨s, ha, rfl⟩

/-- **What has been converted and printed converts to the same value**, for every kind of field in
the schema: printed as a cell of a JSON row as well as in an attribute string. Texts that have one
lower-case form are one value of a domain, whatever form is given to a capital sigma. -/
theorem convert_printed {k : FieldKind} (hk : k.OccursInSchema) {field value : String}
    {v : k.Value} (h : k.convert field value = .ok v) :
    k.convert field (Batch.cellText v.val.toJson) = .ok v ∧
      k.convert field v.val.asText = .ok v ∧
      ∀ d, k = .enum d → ∀ isFinal other,
        Text.lowercaseIn isFinal other = Text.lowercaseIn isFinal value →
          k.convert field other = .ok v := by
  have hlisted : k.isListed = true := occursInSchema_iff.mp hk
  have htext : k.convert field v.val.asText = .ok v :=
    convert_asText hlisted field v (isCanonical_of_convert h)
  refine ⟨?_, htext, ?_⟩
  · rw [Batch.cellText_toJson]
    exact htext
  · rintro d rfl isFinal other hother
    exact convert_enum_of_lowercaseIn (mem_all_of_isListed hlisted) hother h

/-- A language code spelled with the Kelvin sign, as it is printed and with a plain letter. -/
theorem convert_printed_kelvin :
    let uk : (enum .languageCode).Value := ⟨.text "uk", rfl⟩
    let isFinal : List Char → List Char → Bool := fun _ behind => behind.isEmpty
    (enum .languageCode).OccursInSchema ∧
      convert (.enum .languageCode) "primaryLanguage" "U\u212A" = .ok uk ∧
      convert (.enum .languageCode) "primaryLanguage" (Batch.cellText uk.val.toJson) = .ok uk ∧
      convert (.enum .languageCode) "primaryLanguage" uk.val.asText = .ok uk ∧
      Text.lowercaseIn isFinal "uK" = Text.lowercaseIn isFinal "U\u212A" ∧
      convert (.enum .languageCode) "primaryLanguage" "uK" = .ok uk := by
  intro uk isFinal
  have hoccurs : (enum .languageCode).OccursInSchema := occursInSchema_iff.mpr (by decide)
  have hcheck : Domain.languageCode.check "U\u212A" = .ok "uk" :=
    Domain.check_eq_ok_iff.mpr (by decide)
  have hconvert : convert (.enum .languageCode) "primaryLanguage" "U\u212A" = .ok uk := by
    rw [convert_enum, hcheck]
    rfl
  have hlower : Text.lowercaseIn isFinal "uK" = Text.lowercaseIn isFinal "U\u212A" := by
    decide
  obtain ⟨hcell, htext, hspelled⟩ := convert_printed hoccurs hconvert
  exact ⟨hoccurs, hconvert, hcell, htext, hlower, hspelled _ rfl isFinal "uK" hlower⟩

end FieldKind

end Registrar
