import Registrar.Text.Utf8

/-!
# The bytes of a text

A character of ASCII is one byte, and that byte is part of no other character. What is ASCII can be
looked for in the bytes of a text, therefore, without regard to where characters start.

* `Text.encode_ofList` — the bytes of a text are those of its characters.
* `Text.eq_of_mem_utf8EncodeChar` — the character that a byte of ASCII belongs to.
* `Text.mem_of_mem_encodeChars` — a byte of ASCII in a text is a character of the text.
* `Text.toList_eq_asciiChars` — where all bytes are ASCII, they are the characters.
-/

set_option autoImplicit false

namespace Registrar.Text

/-- The bytes of characters. -/
def encodeChars (cs : List Char) : List UInt8 := cs.flatMap String.utf8EncodeChar

@[simp] theorem encodeChars_nil : encodeChars [] = [] := rfl

@[simp] theorem encodeChars_cons (c : Char) (cs : List Char) :
    encodeChars (c :: cs) = String.utf8EncodeChar c ++ encodeChars cs := List.flatMap_cons

@[simp] theorem encodeChars_append (cs ds : List Char) :
    encodeChars (cs ++ ds) = encodeChars cs ++ encodeChars ds := List.flatMap_append

/-- **The bytes of a text are those of its characters.** -/
theorem encode_ofList (cs : List Char) : encode (String.ofList cs) = encodeChars cs :=
  List.toList_data_toByteArray

theorem encode_eq (s : String) : encode s = encodeChars s.toList := by
  rw [← encode_ofList, String.ofList_toList]

theorem utf8EncodeChar_of_lt {c : Char} (h : c.toNat < 128) :
    String.utf8EncodeChar c = [UInt8.ofNat c.toNat] := by
  have hle : c.val.toNat ≤ 127 := Nat.le_of_lt_succ h
  rw [String.utf8EncodeChar, if_pos hle]
  rfl

theorem toNat_ofNat_of_lt {c : Char} (h : c.toNat < 128) :
    (UInt8.ofNat c.toNat).toNat = c.toNat := by
  have hlt : c.toNat < UInt8.size := by
    show c.toNat < 256
    omega
  exact UInt8.toNat_ofNat_of_lt' hlt

/-- A character beyond ASCII has no byte of ASCII. -/
theorem le_of_mem_utf8EncodeChar {c : Char} (h : 128 ≤ c.toNat) {b : UInt8}
    (hb : b ∈ String.utf8EncodeChar c) : 128 ≤ b.toNat := by
  have hnot : ¬c.val.toNat ≤ 127 := Nat.not_le.mpr h
  -- the upper bits of the first byte are set, and so is the topmost bit of each other one
  have hbyte : ∃ n, b = UInt8.ofNat n ∧ 128 ≤ n ∧ n < 256 := by
    rw [String.utf8EncodeChar, if_neg hnot] at hb
    split at hb
    · simp only [List.mem_cons, List.not_mem_nil, or_false] at hb
      rcases hb with hb | hb
      · exact ⟨_, hb, by omega, by omega⟩
      · exact ⟨_, hb, by omega, by omega⟩
    · split at hb
      · simp only [List.mem_cons, List.not_mem_nil, or_false] at hb
        rcases hb with hb | hb | hb
        · exact ⟨_, hb, by omega, by omega⟩
        · exact ⟨_, hb, by omega, by omega⟩
        · exact ⟨_, hb, by omega, by omega⟩
      · simp only [List.mem_cons, List.not_mem_nil, or_false] at hb
        rcases hb with hb | hb | hb | hb
        · exact ⟨_, hb, by omega, by omega⟩
        · exact ⟨_, hb, by omega, by omega⟩
        · exact ⟨_, hb, by omega, by omega⟩
        · exact ⟨_, hb, by omega, by omega⟩
  obtain ⟨n, rfl, hle, hlt⟩ := hbyte
  have hn : (UInt8.ofNat n).toNat = n := UInt8.toNat_ofNat_of_lt' hlt
  rw [hn]
  exact hle

/-- **The character that a byte of ASCII belongs to.** -/
theorem eq_of_mem_utf8EncodeChar {c a : Char} (ha : a.toNat < 128)
    (h : UInt8.ofNat a.toNat ∈ String.utf8EncodeChar c) : c = a := by
  by_cases hc : c.toNat < 128
  · rw [utf8EncodeChar_of_lt hc, List.mem_singleton] at h
    have hsame := congrArg UInt8.toNat h
    rw [toNat_ofNat_of_lt ha, toNat_ofNat_of_lt hc] at hsame
    exact Char.toNat_inj.mp hsame.symm
  · have hle := le_of_mem_utf8EncodeChar (Nat.le_of_not_lt hc) h
    rw [toNat_ofNat_of_lt ha] at hle
    omega

/-- **A byte of ASCII in a text is a character of the text.** -/
theorem mem_of_mem_encodeChars {cs : List Char} {a : Char} (ha : a.toNat < 128)
    (h : UInt8.ofNat a.toNat ∈ encodeChars cs) : a ∈ cs := by
  obtain ⟨c, hc, hb⟩ := List.mem_flatMap.mp h
  rw [← eq_of_mem_utf8EncodeChar ha hb]
  exact hc

/-! ## Texts of ASCII -/

def isAscii (s : String) : Bool := (encode s).all (· < 128)

/-- The characters of a text whose bytes are ASCII. The kernel has them at hand, where those of
`String.toList` have to be decoded. -/
def asciiChars (s : String) : List Char := (encode s).map fun b => Char.ofNat b.toNat

theorem lt_of_isAscii {s : String} (h : isAscii s = true) {c : Char} (hc : c ∈ s.toList) :
    c.toNat < 128 := by
  by_cases hlt : c.toNat < 128
  · exact hlt
  · obtain ⟨b, hb⟩ : ∃ b, b ∈ String.utf8EncodeChar c := by
      have hpos : 0 < (String.utf8EncodeChar c).length := by
        rw [String.length_utf8EncodeChar]
        exact c.utf8Size_pos
      exact List.exists_mem_of_length_pos hpos
    have hle : 128 ≤ b.toNat := le_of_mem_utf8EncodeChar (Nat.le_of_not_lt hlt) hb
    have hmem : b ∈ encode s := by
      rw [encode_eq]
      exact List.mem_flatMap.mpr ⟨c, hc, hb⟩
    have hbyte : b < 128 := of_decide_eq_true (List.all_eq_true.mp h b hmem)
    exact absurd (UInt8.lt_iff_toNat_lt.mp hbyte) (Nat.not_lt.mpr hle)

theorem map_encodeChars {cs : List Char} (h : ∀ c ∈ cs, c.toNat < 128) :
    (encodeChars cs).map (fun b => Char.ofNat b.toNat) = cs := by
  induction cs with
  | nil => rfl
  | cons c cs ih =>
      have hc : c.toNat < 128 := h c List.mem_cons_self
      rw [encodeChars_cons, utf8EncodeChar_of_lt hc, List.map_append, List.map_singleton,
        toNat_ofNat_of_lt hc, Char.ofNat_toNat, ih fun d hd => h d (List.mem_cons_of_mem c hd)]
      rfl

/-- **Where all bytes are ASCII, they are the characters.** -/
theorem toList_eq_asciiChars {s : String} (h : isAscii s = true) : s.toList = asciiChars s := by
  rw [asciiChars, encode_eq, map_encodeChars fun _ hc => lt_of_isAscii h hc]

end Registrar.Text
