import Mathlib.Data.List.TakeDrop
import Mathlib.Data.List.TakeWhile
import Registrar.Freeform.Group
import Registrar.Proofs.Values

/-!
# The groups that an attribute string spells

`Group.Spells g text` says that `text` is one way to write the group `g`:

    name:value        no colon in the value
    name~value        no colon in the value, and no opening brace in front of it
    name~{value}      no closing brace in front of a colon in the value
    name~body         the braces of the body match, and no colon is outside of them

The name decides between the last three: only in the last one it introduces a composite
attribute. A group ends at the same place whatever follows behind the next colon, so the groups
of texts that are joined by colons are the groups that the texts spell.

* `Group.takeBody_cons_eq_some_iff` — bodies, character by character.
* `Group.take_of_spells` — the first group of a text.
* `Group.spells_of_take` — what has been taken off spells the group.
* `Group.split_intercalate`, `Group.spellings_of_split` — the groups of an attribute string.
* `Group.split_append` — groups are split off one text after the other.
-/

set_option autoImplicit false

namespace Registrar.Group

/-! ## Places where a group ends -/

theorem endsBefore_iff {rest : List Char} :
    endsBefore rest = true ↔ rest = [] ∨ ∃ tail, rest = ':' :: tail := by
  cases rest with
  | nil => simp [endsBefore]
  | cons c cs => simp [endsBefore]

theorem span_append {p : Char → Bool} {front rest : List Char} (hf : ∀ c ∈ front, p c = true)
    (hr : ∀ c, rest.head? = some c → p c = false) : (front ++ rest).span p = (front, rest) := by
  rw [List.span_eq_takeWhile_dropWhile, List.takeWhile_append_of_pos hf,
    List.dropWhile_append_of_pos hf]
  cases rest with
  | nil => simp
  | cons c cs => simp [hr c rfl]

theorem takePlain_append {value rest : List Char} (hv : ':' ∉ value)
    (hr : endsBefore rest = true) : takePlain (value ++ rest) = (value, rest) := by
  refine span_append (fun c hc => ?_) fun c hc => ?_
  · have : c ≠ ':' := fun e => hv (e ▸ hc)
    simpa using this
  · rcases endsBefore_iff.mp hr with rfl | ⟨tail, rfl⟩
    · cases hc
    · cases hc
      rfl

theorem takePlain_spec (cs : List Char) :
    cs = (takePlain cs).1 ++ (takePlain cs).2 ∧ ':' ∉ (takePlain cs).1 ∧
      endsBefore (takePlain cs).2 = true := by
  rw [takePlain, List.span_eq_takeWhile_dropWhile]
  refine ⟨List.takeWhile_append_dropWhile.symm, fun hm => ?_, ?_⟩
  · have := List.mem_takeWhile_imp hm
    simp at this
  · cases hd : cs.dropWhile (· != ':') with
    | nil => rfl
    | cons c rest =>
        have hne : cs.dropWhile (· != ':') ≠ [] := by simp [hd]
        have hhead := List.head_dropWhile_not (· != ':') hne
        simp only [hd, List.head_cons] at hhead
        simpa [endsBefore] using hhead

/-! ## Values in braces -/

theorem takeBraced_of_not_closesEarly {value rest : List Char}
    (hv : User.closesEarly value = false) (hr : endsBefore rest = true) :
    takeBraced (value ++ '\x7d' :: rest) = some (value, rest) := by
  induction value with
  | nil => simp [takeBraced, hr]
  | cons c cs ih =>
      simp only [User.closesEarly, Bool.or_eq_false_iff, Bool.and_eq_false_iff, beq_eq_false_iff_ne]
        at hv
      -- a closing brace in the value stands in front of no colon, so it does not end the value
      have hopen : ¬(c = '\x7d' ∧ endsBefore (cs ++ '\x7d' :: rest) = true) := by
        rintro ⟨rfl, he⟩
        cases cs with
        | nil => simp [endsBefore] at he
        | cons d ds => simp_all [endsBefore]
      simp only [List.cons_append, takeBraced, hopen, if_false, ih hv.2, Option.map_some]

theorem closesEarly_of_takeBraced {cs value rest : List Char}
    (h : takeBraced cs = some (value, rest)) :
    User.closesEarly value = false ∧ endsBefore rest = true := by
  induction cs generalizing value rest with
  | nil => cases h
  | cons c cs ih =>
      simp only [takeBraced] at h
      split at h
      · rename_i hc
        cases h
        exact ⟨rfl, hc.2⟩
      · rename_i hc
        simp only [Option.map_eq_some_iff, Prod.mk.injEq] at h
        obtain ⟨⟨b, r⟩, hb, rfl, rfl⟩ := h
        obtain ⟨hearly, hr⟩ := ih hb
        refine ⟨?_, hr⟩
        simp only [User.closesEarly, hearly, Bool.or_false, Bool.and_eq_false_iff,
          beq_eq_false_iff_ne]
        -- a brace that did not end the value stands in front of neither a colon nor the end
        refine Decidable.or_iff_not_imp_left.mpr fun hbrace hcolon => ?_
        have hcs := takeBraced_append hb
        cases b with
        | nil => cases hcolon
        | cons d ds =>
            cases hcolon
            exact hc ⟨not_not.mp hbrace, by rw [hcs]; rfl⟩

/-! ## Bodies -/

/-- The body of a composite attribute: matching braces around every colon. -/
def IsBody (body : List Char) : Prop := takeBody 0 body = some (body, [])

/-- How many braces are open behind a character; none if it closes a brace and none is open. -/
def depthBehind? (depth : Nat) (c : Char) : Option Nat :=
  if c = '\x7b' then some (depth + 1)
  else if c = '\x7d' then (if depth = 0 then none else some (depth - 1))
  else some depth

theorem takeBody_cons (depth : Nat) (c : Char) (cs : List Char) :
    takeBody depth (c :: cs) =
      if c = ':' ∧ depth = 0 then some ([], c :: cs)
      else (depthBehind? depth c).bind fun d => (takeBody d cs).map fun p => (c :: p.1, p.2) := by
  simp only [takeBody, depthBehind?]
  by_cases ho : c = '\x7b'
  · subst ho
    rfl
  · by_cases hc : c = '\x7d'
    · subst hc
      cases depth <;> rfl
    · simp only [ho, hc, if_false, Option.bind_some]

/-- **The first character of a body**: a colon outside braces ends the body, and any other
character is part of it if it closes no brace that is not open. -/
theorem takeBody_cons_eq_some_iff {depth : Nat} {c : Char} {cs body rest : List Char} :
    takeBody depth (c :: cs) = some (body, rest) ↔
      (c = ':' ∧ depth = 0) ∧ body = [] ∧ rest = c :: cs ∨
        ¬(c = ':' ∧ depth = 0) ∧ ∃ d, depthBehind? depth c = some d ∧
          ∃ b, takeBody d cs = some (b, rest) ∧ body = c :: b := by
  rw [takeBody_cons]
  split
  · rename_i h
    simp [h, eq_comm]
  · rename_i h
    simp only [h, not_false_eq_true, true_and, false_and, false_or, Option.bind_eq_some_iff,
      Option.map_eq_some_iff, Prod.exists, Prod.mk.injEq]
    refine exists_congr fun d => and_congr_right fun _ => ?_
    constructor
    · rintro ⟨b, r, hb, rfl, rfl⟩
      exact ⟨b, hb, rfl⟩
    · rintro ⟨b, hb, rfl⟩
      exact ⟨b, rest, hb, rfl, rfl⟩

/-- A body that is complete ends where the group ends. -/
theorem takeBody_complete {depth : Nat} {body rest : List Char}
    (h : takeBody depth body = some (body, [])) (hr : endsBefore rest = true) :
    takeBody depth (body ++ rest) = some (body, rest) := by
  induction body generalizing depth with
  | nil =>
      simp only [takeBody] at h
      split at h
      · rename_i hd
        subst hd
        rcases endsBefore_iff.mp hr with rfl | ⟨tail, rfl⟩
        · rfl
        · simp [takeBody]
      · cases h
  | cons c cs ih =>
      rcases takeBody_cons_eq_some_iff.mp h with ⟨-, hnil, -⟩ | ⟨hc, d, hd, b, hb, he⟩
      · cases hnil
      · cases he
        exact takeBody_cons_eq_some_iff.mpr (Or.inr ⟨hc, d, hd, cs, ih hb, rfl⟩)

theorem takeBody_spec {depth : Nat} {cs body rest : List Char}
    (h : takeBody depth cs = some (body, rest)) :
    takeBody depth body = some (body, []) ∧ endsBefore rest = true := by
  induction cs generalizing depth body rest with
  | nil =>
      simp only [takeBody] at h
      split at h
      · cases h
        exact ⟨by simp [takeBody, *], rfl⟩
      · cases h
  | cons c cs ih =>
      rcases takeBody_cons_eq_some_iff.mp h with ⟨⟨rfl, rfl⟩, rfl, rfl⟩ | ⟨hc, d, hd, b, hb, rfl⟩
      · exact ⟨rfl, rfl⟩
      · obtain ⟨hbody, hr⟩ := ih hb
        exact ⟨takeBody_cons_eq_some_iff.mpr (Or.inr ⟨hc, d, hd, b, hbody, rfl⟩), hr⟩

/-! ## Spelling -/

/-- **The texts that spell a group.** -/
inductive Spells : Group → List Char → Prop where
  | colon {name value : List Char} (hn : name.any endsName = false) (hv : ':' ∉ value) :
      Spells (.scalar name value) (name ++ ':' :: value)
  | plain {name value : List Char} (hn : name.any endsName = false)
      (hk : Composite.ofKey? (String.ofList name) = none) (hb : value.head? ≠ some '\x7b')
      (hv : ':' ∉ value) : Spells (.scalar name value) (name ++ '~' :: value)
  | braced {name value : List Char} (hn : name.any endsName = false)
      (hk : Composite.ofKey? (String.ofList name) = none)
      (hv : User.closesEarly value = false) :
      Spells (.scalar name value) (name ++ '~' :: '\x7b' :: (value ++ ['\x7d']))
  | body {c : Composite} {name body : List Char} (hn : name.any endsName = false)
      (hk : Composite.ofKey? (String.ofList name) = some c) (hb : IsBody body) :
      Spells (.composite c name body) (name ++ '~' :: body)

theorem Spells.ne_nil {g : Group} {text : List Char} (h : g.Spells text) : text ≠ [] := by
  cases h <;> simp

theorem Spells.exists_separator {g : Group} {text : List Char} (h : g.Spells text) :
    ':' ∈ text ∨ '~' ∈ text := by
  cases h <;> simp

theorem trim_ne_nil {cs : List Char} (h : ':' ∈ cs ∨ '~' ∈ cs) : Text.trim cs ≠ [] := by
  intro hnil
  have hblank := Text.trim_eq_nil_iff.mp hnil
  rcases h with h | h
  · exact absurd (hblank _ h) (by decide)
  · exact absurd (hblank _ h) (by decide)

theorem Spells.closesEarly {name value text : List Char}
    (h : (Group.scalar name value).Spells text) : User.closesEarly value = false := by
  cases h with
  | colon hn hv => exact User.closesEarly_of_noColon hv
  | plain hn hk hb hv => exact User.closesEarly_of_noColon hv
  | braced hn hk hv => exact hv

theorem span_name {name rest : List Char} {c : Char} (hn : name.any endsName = false)
    (hc : endsName c = true) :
    (name ++ c :: rest).span (!endsName ·) = (name, c :: rest) := by
  refine span_append (fun d hd => ?_) fun d hd => ?_
  · have := List.any_eq_false.mp hn d hd
    simpa using this
  · cases hd
    simp [hc]

theorem take_colon {name after : List Char} (hn : name.any endsName = false) :
    take (name ++ ':' :: after)
      = .ok (.scalar name (takePlain after).1, (takePlain after).2) := by
  rw [take, span_name hn rfl]
  rfl

theorem take_tilde {name after : List Char} (hn : name.any endsName = false) :
    take (name ++ '~' :: after) = takeAfterTilde name after := by
  rw [take, span_name hn rfl]
  rfl

/-- **The first group of a text is the one that its beginning spells.** -/
theorem take_of_spells {g : Group} {text rest : List Char} (h : g.Spells text)
    (hr : endsBefore rest = true) : take (text ++ rest) = .ok (g, rest) := by
  cases h with
  | colon hn hv =>
      rw [List.append_assoc, List.cons_append, take_colon hn, takePlain_append hv hr]
  | @plain name value hn hk hb hv =>
      rw [List.append_assoc, List.cons_append, take_tilde hn]
      simp only [takeAfterTilde, hk]
      -- if the value is empty, what stands behind the tilde is a colon or nothing
      have hopen : ∀ inner, value ++ rest ≠ '\x7b' :: inner := by
        intro inner e
        cases value with
        | nil =>
            rcases endsBefore_iff.mp hr with rfl | ⟨tail, rfl⟩
            · cases e
            · cases e
        | cons d ds =>
            cases e
            exact hb rfl
      split
      · rename_i inner e
        exact absurd e (hopen inner)
      · rw [takePlain_append hv hr]
  | braced hn hk hv =>
      simp only [List.append_assoc, List.cons_append, List.nil_append]
      rw [take_tilde hn]
      simp only [takeAfterTilde, hk, takeBraced_of_not_closesEarly hv hr]
  | body hn hk hb =>
      rw [List.append_assoc, List.cons_append, take_tilde hn]
      simp only [takeAfterTilde, hk, takeBody_complete hb hr]

/-- A text is a name and, unless it ends there, a colon or a tilde with what follows. -/
theorem span_spec (cs : List Char) :
    ∃ name rest, cs.span (!endsName ·) = (name, rest) ∧ cs = name ++ rest ∧
      name.any endsName = false ∧ ∀ d, rest.head? = some d → d = ':' ∨ d = '~' := by
  refine ⟨cs.takeWhile (!endsName ·), cs.dropWhile (!endsName ·),
    List.span_eq_takeWhile_dropWhile _ cs, List.takeWhile_append_dropWhile.symm, ?_, ?_⟩
  · refine List.any_eq_false.mpr fun c hc => ?_
    simpa using List.mem_takeWhile_imp hc
  · intro d hd
    have hne : cs.dropWhile (!endsName ·) ≠ [] := by
      intro e
      rw [e] at hd
      cases hd
    rw [List.head?_eq_some_head hne] at hd
    have hhead : (!endsName d) = false :=
      Option.some.inj hd ▸ List.head_dropWhile_not (!endsName ·) hne
    have hends : endsName d = true := by rwa [Bool.not_eq_false'] at hhead
    simpa [endsName] using hends

/-- What has been taken off behind a tilde spells the group. -/
theorem spells_of_takeAfterTilde {name after rest : List Char} {g : Group}
    (hn : name.any endsName = false) (h : takeAfterTilde name after = .ok (g, rest)) :
    ∃ text, name ++ '~' :: after = text ++ rest ∧ g.Spells text ∧ endsBefore rest = true := by
  simp only [takeAfterTilde] at h
  cases hk : Composite.ofKey? (String.ofList name) with
  | some c =>
      rw [hk] at h
      cases hb : takeBody 0 after with
      | none => simp [hb] at h
      | some p =>
          obtain ⟨body, r⟩ := p
          simp only [hb, Except.ok.injEq, Prod.mk.injEq] at h
          obtain ⟨rfl, rfl⟩ := h
          obtain ⟨hbody, hr⟩ := takeBody_spec hb
          refine ⟨name ++ '~' :: body, ?_, .body hn hk hbody, hr⟩
          rw [takeBody_append hb, List.append_assoc, List.cons_append]
  | none =>
      rw [hk] at h
      simp only at h
      split at h
      · rename_i inner
        cases hb : takeBraced inner with
        | none => simp [hb] at h
        | some p =>
            obtain ⟨value, r⟩ := p
            simp only [hb, Except.ok.injEq, Prod.mk.injEq] at h
            obtain ⟨rfl, rfl⟩ := h
            obtain ⟨hv, hr⟩ := closesEarly_of_takeBraced hb
            refine ⟨name ++ '~' :: '\x7b' :: (value ++ ['\x7d']), ?_, .braced hn hk hv, hr⟩
            rw [takeBraced_append hb]
            simp
      · rename_i hopen
        simp only [Except.ok.injEq, Prod.mk.injEq] at h
        obtain ⟨rfl, rfl⟩ := h
        obtain ⟨happend, hv, hr⟩ := takePlain_spec after
        -- the text behind the tilde starts with no brace, and the value is where it starts
        have hhead : (takePlain after).1.head? ≠ some '\x7b' := by
          intro e
          obtain ⟨tail, htail⟩ := List.head?_eq_some_iff.mp e
          rw [htail] at happend
          exact hopen (tail ++ (takePlain after).2) happend
        refine ⟨name ++ '~' :: (takePlain after).1, ?_, .plain hn hk hhead hv, hr⟩
        rw [List.append_assoc, List.cons_append, ← happend]

/-- **What has been taken off a text spells the group.** -/
theorem spells_of_take {cs rest : List Char} {g : Group} (h : take cs = .ok (g, rest)) :
    ∃ text, cs = text ++ rest ∧ g.Spells text ∧ endsBefore rest = true := by
  obtain ⟨name, behind, hspan, rfl, hn, hd⟩ := span_spec cs
  rw [take, hspan] at h
  cases behind with
  | nil => cases h
  | cons d after =>
      rcases hd d rfl with rfl | rfl
      · obtain ⟨happend, hv, hr⟩ := takePlain_spec after
        cases h
        refine ⟨name ++ ':' :: (takePlain after).1, ?_, .colon hn hv, hr⟩
        rw [List.append_assoc, List.cons_append, ← happend]
      · exact spells_of_takeAfterTilde hn h

/-! ## Attribute strings -/

theorem splitWithin_intercalate {ps : List (Group × List Char)} (h : ∀ p ∈ ps, p.1.Spells p.2)
    (hne : ps ≠ []) {fuel : Nat} (hf : ps.length ≤ fuel) :
    splitWithin fuel ([':'].intercalate (ps.map Prod.snd)) = .ok (ps.map Prod.fst) := by
  -- each group takes one unit of fuel
  induction ps generalizing fuel with
  | nil => exact absurd rfl hne
  | cons p ps ih =>
      obtain ⟨fuel, rfl⟩ : ∃ n, fuel = n + 1 := Nat.exists_eq_succ_of_ne_zero (by
        simp only [List.length_cons] at hf
        omega)
      have hp := h p List.mem_cons_self
      have hps := fun q hq => h q (List.mem_cons_of_mem _ hq)
      cases ps with
      | nil =>
          have ht : take (p.2 ++ []) = .ok (p.1, []) := take_of_spells hp rfl
          rw [List.append_nil] at ht
          simp [splitWithin, ht]
      | cons q qs =>
          have hjoin : [':'].intercalate ((p :: q :: qs).map Prod.snd)
              = p.2 ++ ':' :: [':'].intercalate ((q :: qs).map Prod.snd) := by
            simp [List.intercalate_cons_cons]
          have ht : take (p.2 ++ ':' :: [':'].intercalate ((q :: qs).map Prod.snd))
              = .ok (p.1, ':' :: [':'].intercalate ((q :: qs).map Prod.snd)) :=
            take_of_spells hp rfl
          have hfuel : (q :: qs).length ≤ fuel := by
            simp only [List.length_cons] at hf ⊢
            omega
          have hrest := ih hps (by simp) hfuel
          rw [hjoin, splitWithin, ht]
          simp only [hrest]
          rfl

theorem mem_intercalate_of_head {t : List Char} {ts : List (List Char)} {c : Char} (h : c ∈ t) :
    c ∈ [':'].intercalate (t :: ts) := by
  cases ts with
  | nil => simpa using h
  | cons u us =>
      rw [List.intercalate_cons_cons]
      exact List.mem_append_left _ (List.mem_append_left _ h)

theorem trim_intercalate_ne_nil {ps : List (Group × List Char)} (h : ∀ p ∈ ps, p.1.Spells p.2)
    (hne : ps ≠ []) : Text.trim ([':'].intercalate (ps.map Prod.snd)) ≠ [] := by
  obtain ⟨p, rest, rfl⟩ := List.exists_cons_of_ne_nil hne
  exact trim_ne_nil ((h p List.mem_cons_self).exists_separator.imp mem_intercalate_of_head
    mem_intercalate_of_head)

theorem length_le_length_intercalate {sep : Char} {texts : List (List Char)}
    (h : ∀ t ∈ texts, t ≠ []) : texts.length ≤ ([sep].intercalate texts).length := by
  induction texts with
  | nil => exact Nat.zero_le _
  | cons t ts ih =>
      have ht : 0 < t.length := List.length_pos_iff.mpr (h t List.mem_cons_self)
      have hts := ih fun u hu => h u (List.mem_cons_of_mem _ hu)
      cases ts with
      | nil => simpa [Nat.one_le_iff_ne_zero] using ht.ne'
      | cons u us =>
          rw [List.intercalate_cons_cons]
          simp only [List.length_append, List.length_cons, List.length_nil] at hts ⊢
          omega

/-- **The groups of texts that are joined by colons are the groups that the texts spell.** -/
theorem split_intercalate {ps : List (Group × List Char)} (h : ∀ p ∈ ps, p.1.Spells p.2)
    (hne : ps ≠ []) :
    split ([':'].intercalate (ps.map Prod.snd)) = .ok (ps.map Prod.fst) := by
  refine splitWithin_intercalate h hne ?_
  have hne : ∀ text ∈ ps.map Prod.snd, text ≠ [] := by
    intro text htext
    obtain ⟨p, hp, rfl⟩ := List.mem_map.mp htext
    exact (h p hp).ne_nil
  calc ps.length
      = (ps.map Prod.snd).length := (List.length_map Prod.snd).symm
    _ ≤ ([':'].intercalate (ps.map Prod.snd)).length := length_le_length_intercalate hne
    _ ≤ ([':'].intercalate (ps.map Prod.snd)).length + 1 := Nat.le_succ _

theorem spellings_of_splitWithin {fuel : Nat} {cs : List Char} {gs : List Group}
    (h : splitWithin fuel cs = .ok gs) :
    ∃ ps : List (Group × List Char), ps ≠ [] ∧ (∀ p ∈ ps, p.1.Spells p.2) ∧
      cs = [':'].intercalate (ps.map Prod.snd) ∧ gs = ps.map Prod.fst := by
  induction fuel generalizing cs gs with
  | zero => cases h
  | succ fuel ih =>
      simp only [splitWithin] at h
      split at h
      · cases h
      · rename_i g rest ht
        obtain ⟨text, rfl, hg, hr⟩ := spells_of_take ht
        split at h
        · cases h
          exact ⟨[(g, text)], by simp, by simpa using hg, by simp, rfl⟩
        · -- what stands between two groups is a colon
          rename_i c rest
          obtain ⟨more, hs, rfl⟩ := map_eq_ok_iff.mp h
          obtain ⟨ps, hne, hps, rfl, rfl⟩ := ih hs
          obtain ⟨p, qs, rfl⟩ := List.exists_cons_of_ne_nil hne
          obtain rfl : c = ':' := by simpa [endsBefore] using hr
          refine ⟨(g, text) :: p :: qs, by simp, fun q hq => ?_, ?_, rfl⟩
          · rcases List.mem_cons.mp hq with rfl | hq
            · exact hg
            · exact hps q hq
          · simp [List.intercalate_cons_cons]

/-- **An attribute string is made of texts that spell its groups**, joined by colons. -/
theorem spellings_of_split {cs : List Char} {gs : List Group} (h : split cs = .ok gs) :
    ∃ ps : List (Group × List Char), ps ≠ [] ∧ (∀ p ∈ ps, p.1.Spells p.2) ∧
      cs = [':'].intercalate (ps.map Prod.snd) ∧ gs = ps.map Prod.fst :=
  spellings_of_splitWithin h

theorem spells_of_split {cs : List Char} {gs : List Group} (h : split cs = .ok gs) :
    gs ≠ [] ∧ ∀ g ∈ gs, ∃ text, g.Spells text := by
  obtain ⟨ps, hne, hps, -, rfl⟩ := spellings_of_split h
  refine ⟨by simpa using hne, fun g hg => ?_⟩
  obtain ⟨p, hp, rfl⟩ := List.mem_map.mp hg
  exact ⟨p.2, hps p hp⟩

theorem trim_ne_nil_of_split {cs : List Char} {gs : List Group} (h : split cs = .ok gs) :
    Text.trim cs ≠ [] := by
  obtain ⟨ps, hne, hps, rfl, -⟩ := spellings_of_split h
  exact trim_intercalate_ne_nil hps hne

/-! ## One group after the other -/

theorem length_of_take {cs rest : List Char} {g : Group} {c : Char}
    (h : take cs = .ok (g, c :: rest)) : rest.length + 1 < cs.length := by
  obtain ⟨text, rfl, hg, -⟩ := spells_of_take h
  have htext : 0 < text.length := List.length_pos_iff.mpr hg.ne_nil
  simp only [List.length_append, List.length_cons]
  omega

/-- Any fuel that is enough for the length of a text gives the same groups. -/
theorem splitWithin_congr {cs : List Char} {m n : Nat} (hm : cs.length < m) (hn : cs.length < n) :
    splitWithin m cs = splitWithin n cs := by
  induction m generalizing cs n with
  | zero => omega
  | succ m ih =>
      obtain ⟨n, rfl⟩ : ∃ k, n = k + 1 := Nat.exists_eq_succ_of_ne_zero (by omega)
      simp only [splitWithin]
      cases ht : take cs with
      | error e => rfl
      | ok p =>
          obtain ⟨g, rest⟩ := p
          cases rest with
          | nil => rfl
          | cons c rest =>
              have hlen := length_of_take ht
              have hrest : splitWithin m rest = splitWithin n rest :=
                ih (by omega) (by omega)
              simp only [hrest]

/-- **The groups of a text are its first one and those of the text behind the colon.** -/
theorem split_eq (cs : List Char) :
    split cs =
      match take cs with
      | .error e => .error e
      | .ok (g, []) => .ok [g]
      | .ok (g, _ :: rest) => (split rest).map (g :: ·) := by
  rw [split, splitWithin]
  cases ht : take cs with
  | error e => rfl
  | ok p =>
      obtain ⟨g, rest⟩ := p
      cases rest with
      | nil => rfl
      | cons c rest =>
          have hlen := length_of_take ht
          have hrest : splitWithin cs.length rest = split rest :=
            splitWithin_congr (by omega) (Nat.lt_succ_self _)
          simp only [hrest]

/-- The groups of a text that goes on behind a colon. -/
theorem split_intercalate_append {ps : List (Group × List Char)} (h : ∀ p ∈ ps, p.1.Spells p.2)
    (hne : ps ≠ []) (rest : List Char) :
    split ([':'].intercalate (ps.map Prod.snd) ++ ':' :: rest)
      = (split rest).map (ps.map Prod.fst ++ ·) := by
  induction ps with
  | nil => exact absurd rfl hne
  | cons p ps ih =>
      have hp := h p List.mem_cons_self
      have hps := fun q hq => h q (List.mem_cons_of_mem _ hq)
      -- whatever follows behind the colon, the first group is the one that its text spells
      have first : ∀ behind, split (p.2 ++ ':' :: behind) = (split behind).map (p.1 :: ·) := by
        intro behind
        rw [split_eq, take_of_spells hp rfl]
      cases ps with
      | nil =>
          rw [List.map_cons, List.map_nil, List.intercalate_singleton, first]
          rfl
      | cons q qs =>
          have hjoin : [':'].intercalate ((p :: q :: qs).map Prod.snd) ++ ':' :: rest
              = p.2 ++ ':' :: ([':'].intercalate ((q :: qs).map Prod.snd) ++ ':' :: rest) := by
            simp [List.intercalate_cons_cons]
          rw [hjoin, first, ih hps (by simp)]
          cases split rest <;> rfl

/-- **Groups are split off one text after the other.** -/
theorem split_append {a : List Char} {gs : List Group} (h : split a = .ok gs) (b : List Char) :
    split (a ++ ':' :: b) = (split b).map (gs ++ ·) := by
  obtain ⟨ps, hne, hps, rfl, rfl⟩ := spellings_of_split h
  exact split_intercalate_append hps hne b

end Registrar.Group
