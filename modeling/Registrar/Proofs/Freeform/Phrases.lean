import Registrar.Proofs.Freeform.Grammar

/-!
# Phrases

A `Phrase` is the text of one group, taken apart: a name, a value or body, and the form in which
they are put together.

    colon     name:value
    tilde     name~value
    braced    name~{value}
    body      name~body

`Phrase.IsValid` says what each form asks of its parts, by counting braces and looking for
characters, without reading the text. The groups of an attribute string are those of the valid
phrases that it is joined from, and there is never a second way to take it apart.

* `Group.takeBody_eq_self_iff` — bodies are the texts with matching braces.
* `Phrase.IsValid.spells`, `Phrase.exists_of_spells` — valid phrases spell groups, and every
  spelling is one.
* `Phrase.eq_of_joined_eq` — a text is joined from valid phrases in one way.
* `Phrase.split_eq_ok_iff_existsUnique` — the attribute strings that have groups, and which ones.
-/

set_option autoImplicit false

namespace Registrar

/-! ## Matching braces -/

/-- **A text with matching braces** around every colon, if `depth` braces are open in front of
it: no beginning of it closes more braces than have been opened, all of it closes as many, and a
colon stands where some are open. -/
structure Balanced (depth : Nat) (text : List Char) : Prop where
  nested : ∀ front, front <+: text → front.count '\x7d' ≤ depth + front.count '\x7b'
  closed : text.count '\x7d' = depth + text.count '\x7b'
  guarded : ∀ front, front ++ [':'] <+: text → front.count '\x7d' < depth + front.count '\x7b'

namespace Balanced

variable {depth : Nat} {text : List Char}

theorem nil_iff : Balanced depth [] ↔ depth = 0 := by
  constructor
  · intro h
    simpa using h.closed.symm
  · rintro rfl
    exact ⟨by simp, rfl, by simp⟩

theorem forall_prefix_cons {c : Char} {P : List Char → Prop} :
    (∀ front, front <+: c :: text → P front) ↔ P [] ∧ ∀ front, front <+: text → P (c :: front) := by
  constructor
  · intro h
    exact ⟨h [] List.nil_prefix, fun front hf => h _ (List.cons_prefix_cons.mpr ⟨rfl, hf⟩)⟩
  · rintro ⟨hnil, hcons⟩ front hf
    rcases List.prefix_cons_iff.mp hf with rfl | ⟨tail, rfl, ht⟩
    · exact hnil
    · exact hcons tail ht

theorem forall_colon_cons {c : Char} {P : List Char → Prop} :
    (∀ front, front ++ [':'] <+: c :: text → P front) ↔
      (c = ':' → P []) ∧ ∀ front, front ++ [':'] <+: text → P (c :: front) := by
  constructor
  · intro h
    refine ⟨fun hc => h [] ?_, fun front hf => h (c :: front) ?_⟩
    · exact List.cons_prefix_cons.mpr ⟨hc.symm, List.nil_prefix⟩
    · exact List.cons_prefix_cons.mpr ⟨rfl, hf⟩
  · rintro ⟨hnil, hcons⟩ front hf
    cases front with
    | nil => exact hnil (List.cons_prefix_cons.mp hf).1.symm
    | cons d tail =>
        obtain ⟨rfl, ht⟩ := List.cons_prefix_cons.mp hf
        exact hcons tail ht

theorem cons_iff {c : Char} :
    Balanced depth (c :: text) ↔
      (∀ front, front <+: text → (c :: front).count '\x7d' ≤ depth + (c :: front).count '\x7b') ∧
        (c :: text).count '\x7d' = depth + (c :: text).count '\x7b' ∧
        (c = ':' → 0 < depth) ∧
          ∀ front, front ++ [':'] <+: text →
            (c :: front).count '\x7d' < depth + (c :: front).count '\x7b' := by
  constructor
  · rintro ⟨hn, hc, hg⟩
    exact ⟨(forall_prefix_cons.mp hn).2, hc, by simpa using forall_colon_cons.mp hg⟩
  · rintro ⟨hn, hc, hg⟩
    exact ⟨forall_prefix_cons.mpr ⟨by simp, hn⟩, hc, forall_colon_cons.mpr (by simpa using hg)⟩

theorem open_iff : Balanced depth ('\x7b' :: text) ↔ Balanced (depth + 1) text := by
  have hcount : ∀ cs : List Char, ('\x7b' :: cs).count '\x7d' = cs.count '\x7d' ∧
      depth + ('\x7b' :: cs).count '\x7b' = depth + 1 + cs.count '\x7b' := by
    intro cs
    refine ⟨List.count_cons_of_ne (by decide), ?_⟩
    rw [List.count_cons_self]
    omega
  simp only [cons_iff, hcount]
  constructor
  · rintro ⟨hn, hc, -, hg⟩
    exact ⟨hn, hc, hg⟩
  · rintro ⟨hn, hc, hg⟩
    exact ⟨hn, hc, fun h => absurd h (by decide), hg⟩

theorem not_close : ¬Balanced 0 ('\x7d' :: text) := by
  intro h
  have hfirst := h.nested ['\x7d'] (List.cons_prefix_cons.mpr ⟨rfl, List.nil_prefix⟩)
  exact absurd hfirst (by decide)

theorem close_iff : Balanced (depth + 1) ('\x7d' :: text) ↔ Balanced depth text := by
  have hcount : ∀ cs : List Char, ('\x7d' :: cs).count '\x7d' = cs.count '\x7d' + 1 ∧
      ('\x7d' :: cs).count '\x7b' = cs.count '\x7b' := fun cs =>
    ⟨List.count_cons_self, List.count_cons_of_ne (by decide)⟩
  simp only [cons_iff, hcount]
  -- one brace more on both sides of each condition
  have hle : ∀ m n, m + 1 ≤ depth + 1 + n ↔ m ≤ depth + n := by omega
  have heq : ∀ m n, m + 1 = depth + 1 + n ↔ m = depth + n := by omega
  have hlt : ∀ m n, m + 1 < depth + 1 + n ↔ m < depth + n := by omega
  simp only [hle, heq, hlt]
  constructor
  · rintro ⟨hn, hc, -, hg⟩
    exact ⟨hn, hc, hg⟩
  · rintro ⟨hn, hc, hg⟩
    exact ⟨hn, hc, fun h => absurd h (by decide), hg⟩

theorem other_iff {c : Char} (ho : c ≠ '\x7b') (hc : c ≠ '\x7d') :
    Balanced depth (c :: text) ↔ (c = ':' → 0 < depth) ∧ Balanced depth text := by
  have hcount : ∀ cs : List Char, (c :: cs).count '\x7d' = cs.count '\x7d' ∧
      (c :: cs).count '\x7b' = cs.count '\x7b' := fun cs =>
    ⟨List.count_cons_of_ne hc, List.count_cons_of_ne ho⟩
  simp only [cons_iff, hcount]
  constructor
  · rintro ⟨hn, hc, hcolon, hg⟩
    exact ⟨hcolon, hn, hc, hg⟩
  · rintro ⟨hcolon, hn, hc, hg⟩
    exact ⟨hn, hc, hcolon, hg⟩

/-- **The first character of a text with matching braces** is no colon outside of them and closes
no brace that is not open. -/
theorem cons_iff_depthBehind {c : Char} :
    Balanced depth (c :: text) ↔
      ¬(c = ':' ∧ depth = 0) ∧ ∃ d, Group.depthBehind? depth c = some d ∧ Balanced d text := by
  by_cases ho : c = '\x7b'
  · subst ho
    simp [Group.depthBehind?, open_iff]
  · by_cases hc : c = '\x7d'
    · subst hc
      cases depth with
      | zero => simp [Group.depthBehind?, not_close]
      | succ depth => simp [Group.depthBehind?, close_iff]
    · rw [other_iff ho hc]
      simp [Group.depthBehind?, ho, hc, Nat.pos_iff_ne_zero]

theorem of_noBrace (hb : text.any Occurrence.isBrace = false) (hc : ':' ∉ text) :
    Balanced 0 text := by
  induction text with
  | nil => exact nil_iff.mpr rfl
  | cons c cs ih =>
      simp only [List.any_cons, Bool.or_eq_false_iff, Occurrence.isBrace,
        beq_eq_false_iff_ne] at hb
      obtain ⟨⟨ho, hcl⟩, hbs⟩ := hb
      refine (other_iff ho hcl).mpr ⟨fun e => absurd (e ▸ List.mem_cons_self) hc, ?_⟩
      exact ih (by simpa [Occurrence.isBrace] using hbs) fun hm => hc (List.mem_cons_of_mem _ hm)

end Balanced

namespace Group

/-- **Taking a body off leaves nothing exactly if its braces match** around every colon. -/
theorem takeBody_eq_self_iff {depth : Nat} {body : List Char} :
    takeBody depth body = some (body, []) ↔ Balanced depth body := by
  induction body generalizing depth with
  | nil =>
      rw [Balanced.nil_iff, takeBody]
      split <;> simp_all
  | cons c cs ih =>
      -- the rest is a body at the depth behind the first character
      have hrest : ∀ d, (∃ b, takeBody d cs = some (b, []) ∧ c :: cs = c :: b) ↔ Balanced d cs := by
        intro d
        rw [← ih]
        constructor
        · rintro ⟨b, hb, he⟩
          cases he
          exact hb
        · exact fun hb => ⟨cs, hb, rfl⟩
      rw [takeBody_cons_eq_some_iff, Balanced.cons_iff_depthBehind]
      simp only [hrest, reduceCtorEq, and_false, false_or]

theorem isBody_iff {body : List Char} : IsBody body ↔ Balanced 0 body := takeBody_eq_self_iff

end Group

theorem User.closesEarly_iff {cs : List Char} :
    closesEarly cs = true ↔ ['\x7d', ':'] <:+: cs := by
  induction cs with
  | nil => simp [closesEarly]
  | cons c cs ih =>
      have hhead : [':'] <+: cs ↔ cs.head? = some ':' := by
        cases cs <;> simp [List.cons_prefix_cons, eq_comm]
      rw [closesEarly, Bool.or_eq_true, ih, List.infix_cons_iff, List.cons_prefix_cons, hhead,
        Bool.and_eq_true, beq_iff_eq, beq_iff_eq]
      exact or_congr_left (and_congr_left fun _ => eq_comm)

/-! ## Phrases -/

/-- **The text of a group, taken apart.** -/
inductive Phrase where
  | colon (name value : List Char)
  | tilde (name value : List Char)
  | braced (name value : List Char)
  | body (c : Composite) (name body : List Char)

namespace Phrase

def name : Phrase → List Char
  | .colon name _ | .tilde name _ | .braced name _ | .body _ name _ => name

/-- **The text that a phrase stands for.** -/
def text : Phrase → List Char
  | .colon name value => name ++ ':' :: value
  | .tilde name value => name ++ '~' :: value
  | .braced name value => name ++ '~' :: '\x7b' :: (value ++ ['\x7d'])
  | .body _ name content => name ++ '~' :: content

def group : Phrase → Group
  | .colon name value | .tilde name value | .braced name value => .scalar name value
  | .body c name content => .composite c name content

/-- **Whether a phrase is one of the language.** The name holds no separator. Behind a colon
stands no other colon. Behind a tilde it depends on the name: if it introduces a composite
attribute, the braces match and no colon is outside of them; if not, a value in braces holds no
closing brace in front of a colon, and a value without braces starts with no opening brace and
holds no colon. -/
def IsValid (p : Phrase) : Prop :=
  ':' ∉ p.name ∧ '~' ∉ p.name ∧
    match p with
    | .colon _ value => ':' ∉ value
    | .tilde name value =>
        Composite.ofKey? (String.ofList name) = none ∧ value.head? ≠ some '\x7b' ∧ ':' ∉ value
    | .braced name value =>
        Composite.ofKey? (String.ofList name) = none ∧ ¬['\x7d', ':'] <:+: value
    | .body c name content => Composite.ofKey? (String.ofList name) = some c ∧ Balanced 0 content

/-! ### Phrases and the texts that spell groups -/

theorem any_endsName_iff {name : List Char} :
    name.any Group.endsName = false ↔ ':' ∉ name ∧ '~' ∉ name := by
  simp only [List.any_eq_false, Group.endsName, Bool.or_eq_true, beq_iff_eq, not_or]
  constructor
  · intro h
    exact ⟨fun hm => (h _ hm).1 rfl, fun hm => (h _ hm).2 rfl⟩
  · rintro ⟨h₁, h₂⟩ c hc
    exact ⟨fun e => h₁ (e ▸ hc), fun e => h₂ (e ▸ hc)⟩

/-- **A valid phrase spells its group.** -/
theorem IsValid.spells {p : Phrase} (h : p.IsValid) : p.group.Spells p.text := by
  obtain ⟨hcolon, htilde, h⟩ := h
  have hn := any_endsName_iff.mpr ⟨hcolon, htilde⟩
  cases p with
  | colon name value => exact .colon hn h
  | tilde name value => exact .plain hn h.1 h.2.1 h.2.2
  | braced name value =>
      exact .braced hn h.1 (Bool.eq_false_iff.mpr fun he => h.2 (User.closesEarly_iff.mp he))
  | body c name content => exact .body hn h.1 (Group.isBody_iff.mpr h.2)

/-- **Every text that spells a group is a valid phrase.** -/
theorem exists_of_spells {g : Group} {text : List Char} (h : g.Spells text) :
    ∃ p : Phrase, p.IsValid ∧ p.group = g ∧ p.text = text := by
  cases h with
  | @colon name value hn hv =>
      obtain ⟨hcolon, htilde⟩ := any_endsName_iff.mp hn
      exact ⟨.colon name value, ⟨hcolon, htilde, hv⟩, rfl, rfl⟩
  | @plain name value hn hk hb hv =>
      obtain ⟨hcolon, htilde⟩ := any_endsName_iff.mp hn
      exact ⟨.tilde name value, ⟨hcolon, htilde, hk, hb, hv⟩, rfl, rfl⟩
  | @braced name value hn hk hv =>
      obtain ⟨hcolon, htilde⟩ := any_endsName_iff.mp hn
      have hvalue : ¬['\x7d', ':'] <:+: value := fun hi =>
        Bool.eq_false_iff.mp hv (User.closesEarly_iff.mpr hi)
      exact ⟨.braced name value, ⟨hcolon, htilde, hk, hvalue⟩, rfl, rfl⟩
  | @body c name content hn hk hb =>
      obtain ⟨hcolon, htilde⟩ := any_endsName_iff.mp hn
      exact ⟨.body c name content, ⟨hcolon, htilde, hk, Group.isBody_iff.mp hb⟩, rfl, rfl⟩

theorem exists_of_spellings {ps : List (Group × List Char)} (h : ∀ p ∈ ps, p.1.Spells p.2) :
    ∃ qs : List Phrase, (∀ q ∈ qs, q.IsValid) ∧ qs.map group = ps.map Prod.fst ∧
      qs.map text = ps.map Prod.snd := by
  induction ps with
  | nil => exact ⟨[], by simp, rfl, rfl⟩
  | cons p ps ih =>
      obtain ⟨q, hq, hg, ht⟩ := exists_of_spells (h p List.mem_cons_self)
      obtain ⟨qs, hqs, hgs, hts⟩ := ih fun r hr => h r (List.mem_cons_of_mem _ hr)
      refine ⟨q :: qs, fun r hr => ?_, by simp [hg, hgs], by simp [ht, hts]⟩
      rcases List.mem_cons.mp hr with rfl | hr
      · exact hq
      · exact hqs r hr

/-! ### Texts that are joined from phrases -/

def joined (ps : List Phrase) : List Char := [':'].intercalate (ps.map text)

/-- **Whether phrases make up a text**: there is at least one, each is of the language, and the
text is what they are joined to. -/
structure MakeUp (ps : List Phrase) (cs : List Char) : Prop where
  ne_nil : ps ≠ []
  valid : ∀ p ∈ ps, p.IsValid
  joined_eq : joined ps = cs

theorem joined_cons_cons (p q : Phrase) (ps : List Phrase) :
    joined (p :: q :: ps) = p.text ++ ':' :: joined (q :: ps) := by
  simp [joined, List.intercalate_cons_cons]

theorem ext {p q : Phrase} (hg : p.group = q.group) (ht : p.text = q.text) : p = q := by
  cases p <;> cases q <;> simp only [group, Group.scalar.injEq, Group.composite.injEq,
    reduceCtorEq] at hg
  case body.body =>
    obtain ⟨rfl, rfl, rfl⟩ := hg
    rfl
  -- scalars of one name and value differ in the separator or in length
  all_goals obtain ⟨rfl, rfl⟩ := hg
  case tilde.braced | braced.tilde =>
    have hlen := congrArg List.length ht
    simp only [text, List.length_append, List.length_cons, List.length_nil] at hlen
    omega
  all_goals simp [text] at ht ⊢

theorem take_joined {p : Phrase} (hp : p.IsValid) (ps : List Phrase) :
    Group.take (joined (p :: ps))
      = .ok (p.group, if ps.isEmpty then [] else ':' :: joined ps) := by
  cases ps with
  | nil =>
      have ht : Group.take (p.text ++ []) = .ok (p.group, []) :=
        Group.take_of_spells hp.spells rfl
      rw [List.append_nil] at ht
      simpa [joined] using ht
  | cons q qs =>
      rw [joined_cons_cons]
      exact Group.take_of_spells hp.spells rfl

/-- **A text is joined from valid phrases in one way.** -/
theorem eq_of_joined_eq {ps qs : List Phrase} {cs : List Char} (hp : MakeUp ps cs)
    (hq : MakeUp qs cs) : ps = qs := by
  obtain ⟨hpne, hps, rfl⟩ := hp
  obtain ⟨hqne, hqs, he⟩ := hq
  -- the first group and the rest behind it are the same for both, and the group with its text
  -- gives the phrase
  induction ps generalizing qs with
  | nil => exact absurd rfl hpne
  | cons p ps ih =>
      obtain ⟨q, qs, rfl⟩ := List.exists_cons_of_ne_nil hqne
      have htake := take_joined (hqs q List.mem_cons_self) qs
      rw [he, take_joined (hps p List.mem_cons_self) ps] at htake
      obtain ⟨hg, hrest⟩ := Prod.mk.inj (Except.ok.inj htake)
      cases ps with
      | nil =>
          cases qs with
          | nil =>
              have ht : q.text = p.text := by simpa [joined] using he
              rw [ext hg ht.symm]
          | cons r rs => simp at hrest
      | cons r rs =>
          cases qs with
          | nil => simp at hrest
          | cons t ts =>
              have hjoined : joined (r :: rs) = joined (t :: ts) := by simpa using hrest
              have ht : q.text = p.text := by
                rw [joined_cons_cons, joined_cons_cons, hjoined] at he
                exact List.append_cancel_right he
              have htail : r :: rs = t :: ts :=
                ih (by simp) (fun x hx => hps x (List.mem_cons_of_mem _ hx)) (by simp)
                  (fun x hx => hqs x (List.mem_cons_of_mem _ hx)) hjoined.symm
              rw [ext hg ht.symm, htail]

theorem MakeUp.split {ps : List Phrase} {cs : List Char} (h : MakeUp ps cs) :
    Group.split cs = .ok (ps.map group) := by
  obtain ⟨hne, hps, rfl⟩ := h
  have hspells : ∀ p ∈ ps.map (fun p => (p.group, p.text)), p.1.Spells p.2 := by
    intro p hp
    obtain ⟨q, hq, rfl⟩ := List.mem_map.mp hp
    exact (hps q hq).spells
  have hsplit := Group.split_intercalate hspells (by simpa using hne)
  simpa [joined, Function.comp_def] using hsplit

theorem exists_makeUp {cs : List Char} {gs : List Group} (h : Group.split cs = .ok gs) :
    ∃ ps, MakeUp ps cs ∧ gs = ps.map group := by
  obtain ⟨spellings, hne, hspells, rfl, rfl⟩ := Group.spellings_of_split h
  obtain ⟨ps, hvalid, hgroups, htexts⟩ := exists_of_spellings hspells
  refine ⟨ps, ⟨?_, hvalid, by rw [joined, htexts]⟩, hgroups.symm⟩
  rintro rfl
  exact hne (List.map_eq_nil_iff.mp htexts.symm)

/-- **A text has groups exactly if valid phrases make it up.** The phrases are the only ones that
do, and the groups are theirs, in order. -/
theorem split_eq_ok_iff_existsUnique {cs : List Char} {gs : List Group} :
    Group.split cs = .ok gs ↔
      ∃ ps, MakeUp ps cs ∧ gs = ps.map group ∧ ∀ qs, MakeUp qs cs → qs = ps := by
  constructor
  · intro h
    obtain ⟨ps, hps, hgs⟩ := exists_makeUp h
    exact ⟨ps, hps, hgs, fun qs hqs => eq_of_joined_eq hqs hps⟩
  · rintro ⟨ps, hps, rfl, -⟩
    exact hps.split

end Phrase

end Registrar
