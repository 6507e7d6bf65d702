import Registrar.Json.Printer
import Registrar.Json.Reader

/-!
# Objects that are read back

A JSON object that has been written in one line is read back as its entries, each put where its name
belongs. The reader is a machine on characters; `Machine.Leads` says where a text leads it to,
whatever stands in front of the text.

* `stringChar_cases` — how a character is written.
* `leads_stringBody` — characters that are escaped stand for themselves.
* `IsReadBack` — a value in an object that is read back. `isReadBack_str`, `isReadBack_bool` are the
  cases of texts and of truth values.
* `parse_compact_obj` — an object of such values.
* `isOneLine_obj` — the text of an object has no line break.
* `insertAll_perm` — the entries read, if each name is given once.
-/

set_option autoImplicit false

namespace Registrar.Json

/-! ## Where a text leads -/

/-- **Whether a text leads a machine to another**, wherever it starts. -/
def Machine.Leads (m : Machine) (text : List Char) (m' : Machine) : Prop :=
  ∀ i, advance m i text = .ok m'

namespace Machine

theorem leads_nil (m : Machine) : m.Leads [] m := fun _ => rfl

theorem Leads.append {m m' m'' : Machine} {s t : List Char} (hs : m.Leads s m')
    (ht : m'.Leads t m'') : m.Leads (s ++ t) m'' := by
  intro i
  rw [advance_append, hs i]
  exact ht _

theorem Leads.cons {m m' m'' : Machine} {c : Char} {text : List Char}
    (hstep : ∀ i, step m i c = .ok m') (h : m'.Leads text m'') : m.Leads (c :: text) m'' := by
  intro i
  show (step m i c >>= fun m => advance m (i + c.utf8Size) text) = _
  rw [hstep]
  exact h _

end Machine

/-! ## The forms of a character -/

/-- The characters that are written as a letter behind a backslash. -/
def lettered : List Char := ['"', '\\', '\x08', '\x0c', '\n', '\r', '\t']

theorem stringChar_of_mem {c : Char} (h : c ∈ lettered) :
    ∃ letter, letter ≠ 'u' ∧ 32 ≤ letter.toNat ∧ escaped? letter = some c ∧
      stringChar c = ['\\', letter] := by
  simp only [lettered, List.mem_cons, List.not_mem_nil, or_false] at h
  rcases h with rfl | rfl | rfl | rfl | rfl | rfl | rfl
  · exact ⟨'"', by decide⟩
  · exact ⟨'\\', by decide⟩
  · exact ⟨'b', by decide⟩
  · exact ⟨'f', by decide⟩
  · exact ⟨'n', by decide⟩
  · exact ⟨'r', by decide⟩
  · exact ⟨'t', by decide⟩

/-- **The forms of a character in a string**: a letter or four digits behind a backslash, or the
character itself. -/
theorem stringChar_cases (c : Char) :
    (∃ letter, letter ≠ 'u' ∧ 32 ≤ letter.toNat ∧ escaped? letter = some c ∧
        stringChar c = ['\\', letter]) ∨
      (c.toNat < 32 ∧ stringChar c
        = ['\\', 'u', '0', '0', Nat.digitChar (c.toNat / 16), Nat.digitChar (c.toNat % 16)]) ∨
      (c ≠ '"' ∧ c ≠ '\\' ∧ 32 ≤ c.toNat ∧ stringChar c = [c]) := by
  by_cases hmem : c ∈ lettered
  · exact Or.inl (stringChar_of_mem hmem)
  · simp only [lettered, List.mem_cons, List.not_mem_nil, or_false, not_or] at hmem
    obtain ⟨hquote, hbackslash, hback, hpage, hline, hreturn, htab⟩ := hmem
    rw [stringChar, if_neg hquote, if_neg hbackslash, if_neg hback, if_neg hpage, if_neg hline,
      if_neg hreturn, if_neg htab]
    by_cases hcontrol : c.toNat < 32
    · rw [if_pos hcontrol]
      exact Or.inr (Or.inl ⟨hcontrol, rfl⟩)
    · rw [if_neg hcontrol]
      exact Or.inr (Or.inr ⟨hquote, hbackslash, Nat.le_of_not_lt hcontrol, rfl⟩)

/-! ## Strings -/

section Strings

variable (stack : List Frame) (isName : Bool) (chars : List Char)

theorem leads_escape {letter c : Char} (hu : letter ≠ 'u') (h : escaped? letter = some c) :
    Machine.Leads ⟨stack, .string isName chars .none⟩ ['\\', letter]
      ⟨stack, .string isName (c :: chars) .none⟩ := by
  have hbackslash : ∀ i, step ⟨stack, .string isName chars .none⟩ i '\\'
      = .ok ⟨stack, .string isName chars .backslash⟩ := fun _ => rfl
  have hletter : ∀ i, step ⟨stack, .string isName chars .backslash⟩ i letter
      = .ok ⟨stack, .string isName (c :: chars) .none⟩ := by
    intro i
    simp [step, stepString, hu, h, bind, Except.bind, pure, Except.pure]
  exact .cons hbackslash (.cons hletter (Machine.leads_nil _))

theorem hexDigit?_digitChar : ∀ d < 16, hexDigit? (Nat.digitChar d) = some d := by decide

theorem utf8Size_digitChar : ∀ d < 16, (Nat.digitChar d).utf8Size = 1 := by decide

theorem digitChar_ne_quote : ∀ d < 16, Nat.digitChar d ≠ '"' := by decide

/-- The escape of a control character in four digits. -/
theorem leads_hexEscape {c : Char} (h : c.toNat < 32) :
    Machine.Leads ⟨stack, .string isName chars .none⟩
      ['\\', 'u', '0', '0', Nat.digitChar (c.toNat / 16), Nat.digitChar (c.toNat % 16)]
      ⟨stack, .string isName (c :: chars) .none⟩ := by
  have hdigit : ∀ {taken n d : Nat} {digit : Char}, hexDigit? digit = some d →
      digit.utf8Size = 1 → digit ≠ '"' → taken + 1 < 4 → ∀ i,
      step ⟨stack, .string isName chars (.hex taken (some n) none)⟩ i digit
        = .ok ⟨stack, .string isName chars (.hex (taken + 1) (some (n * 16 + d)) none)⟩ := by
    intro taken n d digit hd hsize hquote hlt i
    simp [step, stepString, hd, hsize, hquote, hlt, bind, Except.bind, pure, Except.pure]
  have hfirst : c.toNat / 16 < 16 := by omega
  have hlast : c.toNat % 16 < 16 := by omega
  have hvalue : c.toNat / 16 * 16 + c.toNat % 16 = c.toNat := by omega
  -- a control character is no half of a surrogate pair, so the fourth digit ends the escape
  have hend : ∀ i, step ⟨stack, .string isName chars (.hex 3 (some (c.toNat / 16)) none)⟩ i
      (Nat.digitChar (c.toNat % 16)) = .ok ⟨stack, .string isName (c :: chars) .none⟩ := by
    intro i
    have hlow : ¬(0xDC00 ≤ c.toNat ∧ c.toNat ≤ 0xDFFF) := by omega
    have hhigh : ¬(0xD800 ≤ c.toNat ∧ c.toNat ≤ 0xDBFF) := by omega
    simp [step, stepString, hexDigit?_digitChar _ hlast, utf8Size_digitChar _ hlast,
      digitChar_ne_quote _ hlast, endHex, hvalue, hlow, hhigh, bind, Except.bind, pure,
      Except.pure]
  have hzero : hexDigit? '0' = some 0 := by decide
  refine .cons (fun _ => rfl) (.cons (fun _ => rfl) ?_)
  refine .cons (hdigit hzero (by decide) (by decide) (by decide)) ?_
  refine .cons (hdigit hzero (by decide) (by decide) (by decide)) ?_
  refine .cons (hdigit (hexDigit?_digitChar _ hfirst) (utf8Size_digitChar _ hfirst)
    (digitChar_ne_quote _ hfirst) (by decide)) ?_
  have hthird : ((0 * 16 + 0) * 16 + 0) * 16 + c.toNat / 16 = c.toNat / 16 := by omega
  rw [hthird]
  exact .cons hend (Machine.leads_nil _)

theorem leads_stringChar (c : Char) :
    Machine.Leads ⟨stack, .string isName chars .none⟩ (stringChar c)
      ⟨stack, .string isName (c :: chars) .none⟩ := by
  rcases stringChar_cases c with ⟨letter, hne, -, hescaped, htext⟩ | ⟨hcontrol, htext⟩ |
    ⟨hquote, hbackslash, hle, htext⟩
  · rw [htext]
    exact leads_escape stack isName chars hne hescaped
  · rw [htext]
    exact leads_hexEscape stack isName chars hcontrol
  · have hcontrol : ¬c.toNat < 32 := Nat.not_lt.mpr hle
    rw [htext]
    refine .cons (fun i => ?_) (Machine.leads_nil _)
    simp [step, stepString, hquote, hbackslash, hcontrol, bind, Except.bind, pure, Except.pure]

/-- **The text of a string leads to its characters.** -/
theorem leads_stringBody (cs : List Char) :
    Machine.Leads ⟨stack, .string isName chars .none⟩ (stringBody cs)
      ⟨stack, .string isName (cs.reverse ++ chars) .none⟩ := by
  induction cs generalizing chars with
  | nil => exact Machine.leads_nil _
  | cons c cs ih =>
      have hbody : stringBody (c :: cs) = stringChar c ++ stringBody cs := List.flatMap_cons
      rw [hbody, List.reverse_cons, List.append_assoc]
      exact (leads_stringChar stack isName chars c).append (ih (c :: chars))

end Strings

theorem leads_str (stack : List Frame) (place : Place) (s : String) :
    Machine.Leads ⟨stack, .value place⟩ (stringChars s) (complete stack (.str s)) := by
  have hopen : ∀ i, step ⟨stack, .value place⟩ i '"'
      = .ok ⟨stack, .string false [] .none⟩ := by
    intro i
    simp [step, openValue, isSpace]
  have hclose : ∀ i, step ⟨stack, .string false s.toList.reverse .none⟩ i '"'
      = .ok (complete stack (.str s)) := by
    intro i
    simp [step, endString]
  have hbody := leads_stringBody stack false [] s.toList
  rw [List.append_nil] at hbody
  exact .cons hopen (hbody.append (.cons hclose (Machine.leads_nil _)))

theorem leads_word (stack : List Frame) (c : Char) (rest : List Char) (j : Json) :
    Machine.Leads ⟨stack, .word (c :: rest) j⟩ (c :: rest) (complete stack j) := by
  induction rest generalizing c with
  | nil =>
      have hlast : ∀ i, step ⟨stack, .word [c] j⟩ i c = .ok (complete stack j) := by
        intro i
        simp [step]
      exact .cons hlast (Machine.leads_nil _)
  | cons d rest ih =>
      have hnext : ∀ i, step ⟨stack, .word (c :: d :: rest) j⟩ i c
          = .ok ⟨stack, .word (d :: rest) j⟩ := by
        intro i
        simp [step]
      exact .cons hnext (ih d)

/-- A truth value is complete behind its last character. -/
theorem leads_bool (stack : List Frame) (place : Place) (b : Bool) :
    Machine.Leads ⟨stack, .value place⟩ (compactChars (.bool b)) (complete stack (.bool b)) := by
  cases b with
  | true =>
      have hopen : ∀ i, step ⟨stack, .value place⟩ i 't'
          = .ok ⟨stack, .word ['r', 'u', 'e'] (.bool true)⟩ := by
        intro i
        simp [step, openValue, isSpace]
      rw [compactChars]
      exact .cons hopen (leads_word stack 'r' ['u', 'e'] _)
  | false =>
      have hopen : ∀ i, step ⟨stack, .value place⟩ i 'f'
          = .ok ⟨stack, .word ['a', 'l', 's', 'e'] (.bool false)⟩ := by
        intro i
        simp [step, openValue, isSpace]
      rw [compactChars]
      exact .cons hopen (leads_word stack 'a' ['l', 's', 'e'] _)

theorem leads_name (stack : List Frame) (entries : List (String × Json)) (name : String)
    (first : Bool) (s : String) :
    Machine.Leads ⟨.obj entries name :: stack, .name first⟩ (stringChars s)
      ⟨.obj entries s :: stack, .colon⟩ := by
  have hopen : ∀ i, step ⟨.obj entries name :: stack, .name first⟩ i '"'
      = .ok ⟨.obj entries name :: stack, .string true [] .none⟩ := by
    intro i
    simp [step, isSpace]
  have hclose : ∀ i, step ⟨.obj entries name :: stack, .string true s.toList.reverse .none⟩ i '"'
      = .ok ⟨.obj entries s :: stack, .colon⟩ := by
    intro i
    simp [step, endString]
  have hbody := leads_stringBody (.obj entries name :: stack) true [] s.toList
  rw [List.append_nil] at hbody
  exact .cons hopen (hbody.append (.cons hclose (Machine.leads_nil _)))

/-! ## Objects -/

/-- Whether a value is read back from its text inside an object, behind the containers that are
open around it. -/
def IsReadBackIn (stack : List Frame) (j : Json) : Prop :=
  ∀ entries name c text m, (c = ',' ∨ c = '\x7d') →
    Machine.Leads ⟨.obj (insertEntry name j entries) name :: stack, .more⟩ (c :: text) m →
    Machine.Leads ⟨.obj entries name :: stack, .value .plain⟩ (compactChars j ++ c :: text) m

/-- **Whether a value in an object is read back** from its text. What stands behind it may have to
be seen first. -/
def IsReadBack (j : Json) : Prop :=
  ∀ stack entries name c text m, (c = ',' ∨ c = '\x7d') →
    Machine.Leads ⟨.obj (insertEntry name j entries) name :: stack, .more⟩ (c :: text) m →
    Machine.Leads ⟨.obj entries name :: stack, .value .plain⟩ (compactChars j ++ c :: text) m

theorem isReadBack_str (s : String) : IsReadBack (.str s) := by
  intro stack entries name c text m _ h
  rw [compactChars_str]
  exact (leads_str _ .plain s).append h

theorem isReadBack_bool (b : Bool) : IsReadBack (.bool b) := by
  intro stack entries name c text m _ h
  exact (leads_bool _ .plain b).append h

/-- Entries put into an object one after the other. -/
def insertAll (entries : List (String × Json)) (new : List (String × Json)) :
    List (String × Json) := new.foldl (fun acc e => insertEntry e.1 e.2 acc) entries

theorem leads_entry {stack : List Frame} {entries : List (String × Json)} {name : String}
    {first : Bool} {k : String} {j : Json} (hj : IsReadBackIn stack j) {c : Char}
    {text : List Char} {m : Machine} (hc : c = ',' ∨ c = '\x7d')
    (h : Machine.Leads ⟨.obj (insertEntry k j entries) k :: stack, .more⟩ (c :: text) m) :
    Machine.Leads ⟨.obj entries name :: stack, .name first⟩
      (stringChars k ++ ':' :: (compactChars j ++ c :: text)) m := by
  refine (leads_name stack entries name first k).append (.cons ?_ (hj _ _ _ _ _ hc h))
  intro i
  simp [step, isSpace]

theorem compactEntries_cons (first : Bool) (k : String) (j : Json)
    (entries : List (String × Json)) :
    compactEntries first ((k, j) :: entries)
      = (if first then [] else [',']) ++ stringChars k ++ ':' :: compactChars j
          ++ compactEntries false entries := by
  rw [compactEntries]

theorem exists_cons_compactEntries (entries : List (String × Json)) :
    ∃ c text, compactEntries false entries ++ ['\x7d'] = c :: text ∧ (c = ',' ∨ c = '\x7d') := by
  cases entries with
  | nil => exact ⟨_, _, by rw [compactEntries]; rfl, Or.inr rfl⟩
  | cons e entries =>
      obtain ⟨k, j⟩ := e
      exact ⟨',', _, by rw [compactEntries_cons]; rfl, Or.inl rfl⟩

/-- The entries behind the first lead to the end of the object. -/
theorem leads_compactEntries {stack : List Frame} {new : List (String × Json)}
    (hnew : ∀ e ∈ new, IsReadBackIn stack e.2) (entries : List (String × Json)) (name : String) :
    Machine.Leads ⟨.obj entries name :: stack, .more⟩ (compactEntries false new ++ ['\x7d'])
      (complete stack (.obj (insertAll entries new))) := by
  induction new generalizing entries name with
  | nil =>
      rw [compactEntries]
      refine .cons (fun i => ?_) (Machine.leads_nil _)
      simp [step, stepMore, isSpace, close, insertAll]
  | cons e new ih =>
      obtain ⟨k, j⟩ := e
      obtain ⟨hj, hrest⟩ := List.forall_mem_cons.mp hnew
      have hbehind := ih hrest (insertEntry k j entries) k
      obtain ⟨c, text, htext, hc⟩ := exists_cons_compactEntries new
      rw [htext] at hbehind
      have hcut : compactEntries false ((k, j) :: new) ++ ['\x7d']
          = ',' :: (stringChars k ++ ':' :: (compactChars j ++ c :: text)) := by
        rw [compactEntries_cons, ← htext]
        simp
      have hcomma : ∀ i, step ⟨.obj entries name :: stack, .more⟩ i ','
          = .ok ⟨.obj entries name :: stack, .name false⟩ := by
        intro i
        simp [step, stepMore, isSpace]
      rw [hcut]
      exact .cons hcomma (leads_entry hj hc hbehind)

/-- **The entries of an object lead to its end**, behind the opening brace. -/
theorem leads_obj {stack : List Frame} {entries : List (String × Json)}
    (h : ∀ e ∈ entries, IsReadBackIn stack e.2) :
    Machine.Leads ⟨.obj [] "" :: stack, .name true⟩ (compactEntries true entries ++ ['\x7d'])
      (complete stack (.obj (insertAll [] entries))) := by
  cases entries with
  | nil =>
      rw [compactEntries]
      exact .cons (fun _ => rfl) (Machine.leads_nil _)
  | cons e entries =>
      obtain ⟨k, j⟩ := e
      obtain ⟨hj, hrest⟩ := List.forall_mem_cons.mp h
      have hbehind : Machine.Leads ⟨.obj (insertEntry k j []) k :: stack, .more⟩
          (compactEntries false entries ++ ['\x7d'])
          (complete stack (.obj (insertAll (insertEntry k j []) entries))) :=
        leads_compactEntries hrest _ k
      obtain ⟨c, text, htext, hc⟩ := exists_cons_compactEntries entries
      rw [htext] at hbehind
      have hcut : compactEntries true ((k, j) :: entries) ++ ['\x7d']
          = stringChars k ++ ':' :: (compactChars j ++ c :: text) := by
        rw [compactEntries_cons, ← htext]
        simp
      rw [hcut]
      exact leads_entry hj hc hbehind

/-- **An object whose values are read back is read back**, each entry where its name belongs. -/
theorem parse_compact_obj {entries : List (String × Json)}
    (h : ∀ e ∈ entries, IsReadBack e.2) :
    parse (compact (.obj entries)) = .ok (.obj (insertAll [] entries)) := by
  have hopen : ∀ i, step start i '\x7b' = .ok ⟨[.obj [] ""], .name true⟩ := fun _ => rfl
  have hleads : start.Leads (compactChars (.obj entries))
      (complete [] (.obj (insertAll [] entries))) := by
    rw [compactChars_obj]
    exact .cons hopen (leads_obj fun e he => h e he [])
  rw [parse, compact, String.toList_ofList, run, hleads 0]
  rfl

/-! ## One line -/

/-- **Whether the text of a value has no control character**, line breaks among them. -/
def IsOneLine (j : Json) : Prop := ∀ c ∈ compactChars j, 32 ≤ c.toNat

theorem le_toNat_digitChar : ∀ d < 16, 32 ≤ (Nat.digitChar d).toNat := by decide

theorem le_of_mem_stringChar {c x : Char} (hx : x ∈ stringChar c) : 32 ≤ x.toNat := by
  -- a backslash and a letter, an escape in hexadecimal digits, or the character itself
  rcases stringChar_cases c with ⟨letter, -, hletter, -, htext⟩ | ⟨hcontrol, htext⟩ |
    ⟨-, -, hle, htext⟩
  · rw [htext] at hx
    rcases List.mem_cons.mp hx with rfl | hx
    · decide
    · rw [List.mem_singleton.mp hx]
      exact hletter
  · have hfirst := le_toNat_digitChar (c.toNat / 16) (by omega)
    have hlast := le_toNat_digitChar (c.toNat % 16) (by omega)
    rw [htext] at hx
    simp only [List.mem_cons, List.not_mem_nil, or_false] at hx
    rcases hx with rfl | rfl | rfl | rfl | rfl | rfl
    · decide
    · decide
    · decide
    · decide
    · exact hfirst
    · exact hlast
  · rw [htext] at hx
    rwa [List.mem_singleton.mp hx]

theorem le_of_mem_stringChars {s : String} {x : Char} (hx : x ∈ stringChars s) :
    32 ≤ x.toNat := by
  rcases List.mem_cons.mp hx with rfl | hx
  · decide
  · rcases List.mem_append.mp hx with hx | hx
    · obtain ⟨c, -, hmem⟩ := List.mem_flatMap.mp hx
      exact le_of_mem_stringChar hmem
    · rw [List.mem_singleton.mp hx]
      decide

theorem isOneLine_str (s : String) : IsOneLine (.str s) := by
  intro x hx
  rw [compactChars_str] at hx
  exact le_of_mem_stringChars hx

theorem isOneLine_bool (b : Bool) : IsOneLine (.bool b) := by
  have hall : (compactChars (.bool b)).all (fun x => decide (32 ≤ x.toNat)) = true := by
    cases b <;> rw [compactChars] <;> decide
  intro x hx
  exact of_decide_eq_true (List.all_eq_true.mp hall x hx)

theorem le_of_mem_compactEntries {entries : List (String × Json)}
    (h : ∀ e ∈ entries, IsOneLine e.2) {first : Bool} {x : Char}
    (hx : x ∈ compactEntries first entries) : 32 ≤ x.toNat := by
  induction entries generalizing first with
  | nil =>
      rw [compactEntries] at hx
      cases hx
  | cons e entries ih =>
      obtain ⟨k, j⟩ := e
      obtain ⟨hj, hrest⟩ := List.forall_mem_cons.mp h
      rw [compactEntries_cons, List.append_assoc, List.append_assoc, List.mem_append,
        List.mem_append, List.mem_append, List.mem_cons] at hx
      rcases hx with hcomma | hname | (rfl | hvalue) | hbehind
      · cases first with
        | true => cases hcomma
        | false =>
            rw [List.mem_singleton.mp hcomma]
            decide
      · exact le_of_mem_stringChars hname
      · decide
      · exact hj x hvalue
      · exact ih hrest hbehind

theorem isOneLine_obj {entries : List (String × Json)} (h : ∀ e ∈ entries, IsOneLine e.2) :
    IsOneLine (.obj entries) := by
  intro x hx
  rw [compactChars_obj] at hx
  rcases List.mem_cons.mp hx with rfl | hx
  · decide
  · rcases List.mem_append.mp hx with hx | hx
    · exact le_of_mem_compactEntries h hx
    · rw [List.mem_singleton.mp hx]
      decide

/-! ## The entries of an object -/

theorem insertEntry_perm {name : String} {value : Json} {entries : List (String × Json)}
    (h : name ∉ entries.map Prod.fst) :
    (insertEntry name value entries).Perm ((name, value) :: entries) := by
  induction entries with
  | nil => exact .refl _
  | cons e entries ih =>
      obtain ⟨k, v⟩ := e
      rw [List.map_cons, List.mem_cons, not_or] at h
      obtain ⟨hne, hrest⟩ := h
      have hne' : name ≠ k := hne
      rw [insertEntry, if_neg hne']
      split
      · exact .refl _
      · exact ((ih hrest).cons (k, v)).trans (.swap _ _ _)

/-- **Entries with different names are all there**, in some order. -/
theorem insertAll_perm {entries new : List (String × Json)}
    (h : ((entries ++ new).map Prod.fst).Nodup) :
    (insertAll entries new).Perm (entries ++ new) := by
  induction new generalizing entries with
  | nil =>
      rw [List.append_nil]
      exact .refl _
  | cons e new ih =>
      have hmiddle : (e :: entries ++ new).Perm (entries ++ e :: new) := List.perm_middle.symm
      have hnodup := (hmiddle.map Prod.fst).nodup_iff.mpr h
      have hfresh : e.1 ∉ entries.map Prod.fst := by
        have hnotMem : e.1 ∉ (entries ++ new).map Prod.fst := (List.nodup_cons.mp hnodup).1
        rw [List.map_append, List.mem_append, not_or] at hnotMem
        exact hnotMem.1
      have hinsert : (insertEntry e.1 e.2 entries ++ new).Perm (e :: entries ++ new) :=
        (insertEntry_perm hfresh).append_right new
      have hnodup' := (hinsert.map Prod.fst).nodup_iff.mpr hnodup
      exact (ih hnodup').trans (hinsert.trans hmiddle)

end Registrar.Json
