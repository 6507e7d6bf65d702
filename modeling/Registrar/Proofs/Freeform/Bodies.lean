import Registrar.Proofs.Freeform.Occurrences

/-!
# The bodies of composite attributes

`Occurrence.split` takes the braces of a body off one character at a time. A loop can do the same
with longer strides: it looks for the next closing brace, refuses an opening one in front of it,
and goes on behind it, never counting how many braces are open. `Group.takeBody`, which finds the
end of a body in an attribute string, counts open braces and knows nothing of occurrences.

* `Occurrence.scan_eq_splitBraced`, `Occurrence.split_eq_scan` — the loop finds the same
  occurrences.
* `Occurrence.split_grammar` — the bodies that have occurrences, and that counting braces finds the
  end of each such body that starts with one.
-/

set_option autoImplicit false

namespace Registrar.Occurrence

theorem any_isBrace_eq_false_iff {cs : List Char} :
    cs.any isBrace = false ↔ '\x7b' ∉ cs ∧ '\x7d' ∉ cs := by
  constructor
  · intro h
    have hc : ∀ c ∈ cs, isBrace c = false := by simpa using h
    exact ⟨fun ho => by simpa [isBrace] using hc _ ho, fun hc' => by simpa [isBrace] using hc _ hc'⟩
  · rintro ⟨hopen, hclose⟩
    refine List.any_eq_false.mpr fun c hc => ?_
    have h₁ : c ≠ '\x7b' := fun e => hopen (e ▸ hc)
    have h₂ : c ≠ '\x7d' := fun e => hclose (e ▸ hc)
    simp [isBrace, h₁, h₂]

/-! ## The loop over closing braces -/

/-- The text up to the next closing brace, and the text behind that brace. -/
def takeClosing : List Char → Option (List Char × List Char)
  | [] => none
  | c :: cs =>
      if c = '\x7d' then some ([], cs)
      else (takeClosing cs).map fun (inner, behind) => (c :: inner, behind)

theorem takeClosing_append {cs inner behind : List Char}
    (h : takeClosing cs = some (inner, behind)) :
    cs = inner ++ '\x7d' :: behind ∧ '\x7d' ∉ inner := by
  induction cs generalizing inner with
  | nil => cases h
  | cons c cs ih =>
      simp only [takeClosing] at h
      split at h
      · rename_i hc
        cases h
        exact ⟨by simp [hc], List.not_mem_nil⟩
      · rename_i hc
        obtain ⟨⟨inner', behind'⟩, ht, hp⟩ := Option.map_eq_some_iff.mp h
        cases hp
        obtain ⟨rfl, hinner⟩ := ih ht
        exact ⟨rfl, List.not_mem_cons_of_ne_of_not_mem (Ne.symm hc) hinner⟩

/-- The occurrences found so far and those of the text that is left. -/
def scan (found : List (List Char)) : List Char → Option (List (List Char))
  | [] => some found
  | c :: cs =>
      if c = '\x7b' then
        match _h : takeClosing cs with
        | none => none
        | some (inner, behind) =>
            if '\x7b' ∈ inner then none else scan (found ++ [inner]) behind
      else none
termination_by cs => cs.length
decreasing_by
  obtain ⟨rfl, -⟩ := takeClosing_append _h
  simp only [List.length_append, List.length_cons]
  omega

theorem scan_cons (found : List (List Char)) (c : Char) (cs : List Char) :
    scan found (c :: cs) =
      if c = '\x7b' then
        (takeClosing cs).bind fun (inner, behind) =>
          if '\x7b' ∈ inner then none else scan (found ++ [inner]) behind
      else none := by
  rw [scan]
  refine if_congr Iff.rfl ?_ rfl
  split <;> simp [*]

/-- An open occurrence ends at the next closing brace, and no brace is opened before. -/
theorem splitOpen_eq_takeClosing (cs : List Char) :
    splitOpen cs = (takeClosing cs).bind fun (inner, behind) =>
      if '\x7b' ∈ inner then none else (splitBraced behind).map (inner :: ·) := by
  induction cs with
  | nil => rfl
  | cons c cs ih =>
      simp only [splitOpen, takeClosing]
      by_cases hclose : c = '\x7d'
      · simp [hclose]
      · simp only [hclose, if_false, ih]
        by_cases hopen : c = '\x7b'
        · subst hopen
          cases takeClosing cs <;> simp
        · -- the first character joins the occurrence, and is none that could be refused
          have hne : '\x7b' ≠ c := fun e => hopen e.symm
          cases takeClosing cs with
          | none => simp [hopen]
          | some p =>
              obtain ⟨inner, behind⟩ := p
              simp only [hopen, hne, if_false, Option.map_some, Option.bind_some, List.mem_cons,
                false_or]
              split
              · rfl
              · cases splitBraced behind <;> rfl

/-- **The loop finds the occurrences in braces** that the text is made of. -/
theorem scan_eq_splitBraced (found : List (List Char)) (cs : List Char) :
    scan found cs = (splitBraced cs).map (found ++ ·) := by
  -- the cases are the rounds of the loop; only a round that goes on has an induction hypothesis
  induction found, cs using scan.induct with
  | case1 found => simp [scan, splitBraced]
  | case2 found cs ht => simp [scan_cons, splitBraced, splitOpen_eq_takeClosing, ht]
  | case3 found cs inner behind ht hopen =>
      simp [scan_cons, splitBraced, splitOpen_eq_takeClosing, ht, hopen]
  | case4 found cs inner behind ht hopen ih =>
      simp [scan_cons, splitBraced, splitOpen_eq_takeClosing, ht, hopen, ih, Function.comp_def]
  | case5 found c cs hc => simp [scan_cons, splitBraced, hc]

theorem split_eq_scan (body : List Char) :
    split body =
      if body.head? = some '\x7b' then scan [] body
      else if body.any isBrace then none
      else some [body] := by
  simp [split, scan_eq_splitBraced]

/-! ## The grammar of bodies -/

theorem split_eq_some_iff_of_head {body : List Char} (hb : body.head? = some '\x7b')
    {os : List (List Char)} :
    split body = some os ↔
      os ≠ [] ∧ (∀ o ∈ os, o.any isBrace = false) ∧ body = os.flatMap braced := by
  constructor
  · intro h
    obtain ⟨hne, hos⟩ := split_spec h
    rw [split, if_pos hb, splitBraced_eq_some_iff] at h
    exact ⟨hne, hos, h.1⟩
  · rintro ⟨hne, hos, rfl⟩
    exact split_flatMap hne hos

theorem split_eq_some_iff_of_not_head {body : List Char} (hb : body.head? ≠ some '\x7b')
    {os : List (List Char)} :
    split body = some os ↔ body.any isBrace = false ∧ os = [body] := by
  rw [split, if_neg hb]
  cases body.any isBrace with
  | false => simp [eq_comm]
  | true => simp

/-- **Counting braces finds the end of a body** that has occurrences in braces. -/
theorem isBody_of_split {body : List Char} {os : List (List Char)} (h : split body = some os)
    (hb : body.head? = some '\x7b') : Group.IsBody body := by
  obtain ⟨-, hos, rfl⟩ := (split_eq_some_iff_of_head hb).mp h
  exact isBody_flatMap hos

/-- **The bodies that have occurrences** are a text without braces, which is its own occurrence,
and one or more texts without braces, each in braces. One that starts with a brace is taken as a
whole when it ends its attribute string and when a colon follows. -/
theorem split_grammar (body : List Char) (os : List (List Char)) :
    (split body = some os ↔
      (('\x7b' ∉ body ∧ '\x7d' ∉ body) ∧ os = [body]) ∨
        (os ≠ [] ∧ (∀ o ∈ os, '\x7b' ∉ o ∧ '\x7d' ∉ o) ∧
          body = os.flatMap fun o => '\x7b' :: (o ++ ['\x7d']))) ∧
    (split body = some os → body.head? = some '\x7b' →
      Group.takeBody 0 body = some (body, []) ∧
        ∀ rest, Group.takeBody 0 (body ++ ':' :: rest) = some (body, ':' :: rest)) := by
  refine ⟨?_, fun h hb => ?_⟩
  · simp only [← any_isBrace_eq_false_iff]
    by_cases hb : body.head? = some '\x7b'
    · rw [split_eq_some_iff_of_head hb]
      -- a body that starts with a brace is not free of braces
      refine ⟨Or.inr, fun h => h.resolve_left fun hfree => ?_⟩
      exact (any_isBrace_eq_false_iff.mp hfree.1).1 (List.mem_of_mem_head? hb)
    · rw [split_eq_some_iff_of_not_head hb]
      refine ⟨Or.inl, fun h => h.resolve_right ?_⟩
      -- occurrences in braces would start with one
      rintro ⟨hne, -, rfl⟩
      obtain ⟨o, rest, rfl⟩ := List.exists_cons_of_ne_nil hne
      exact hb rfl
  · have hbody : Group.IsBody body := isBody_of_split h hb
    exact ⟨hbody, fun rest => Group.takeBody_complete hbody rfl⟩

/-- Two occurrences in braces, in front of another group. -/
theorem split_grammar_two :
    let body := "\x7btype~work\x7d\x7btype~home\x7d".toList
    split body = some ["type~work".toList, "type~home".toList] ∧
      Group.takeBody 0 (body ++ ":suspended:true".toList) = some (body, ":suspended:true".toList) := by
  have hos : split "\x7btype~work\x7d\x7btype~home\x7d".toList
      = some ["type~work".toList, "type~home".toList] :=
    (split_grammar _ _).1.mpr (.inr ⟨by simp, by decide, by decide⟩)
  exact ⟨hos, ((split_grammar _ _).2 hos (by decide)).2 "suspended:true".toList⟩

end Registrar.Occurrence
