import Mathlib.Data.List.Induction
import Registrar.Proofs.Columns
import Registrar.Proofs.Language.Meanings
import Registrar.Proofs.Language.Names

/-!
# The scope of the custom schemas

The lexemes of a projection are normalized one after the other, and all that is remembered is
whether the root of the custom schemas has been met. A tilde makes it forgotten, and nothing else
does, neither parentheses nor commas:

```
customSchemas(a,b)/Ä~familyname     behind the root and in front of the tilde any name is taken
familyname/customSchemas/x          in front of the root a name has to be known
```

So what is remembered is a property of the lexemes that stand in front, back to the last tilde.

* `Projection.isBehindRoot_eq_true_iff` — what it is to stand behind the root.
* `Projection.means_rules` — what a lexeme becomes depends on whether it stands behind the root.
* `ObjectType.normalize_scopes` — when a projection is normalized, and to what.
-/

set_option autoImplicit false

namespace Registrar

namespace Projection

/-! ## Behind the root -/

/-- Whether a lexeme is a name that spells the root of the custom schemas, in any case. -/
def spellsRoot (l : Lexeme) : Bool :=
  l.token == .name && Text.lowercase l.literal == "customschemas"

/-- **Whether the root of the custom schemas stands among lexemes**, behind the last tilde. -/
def isBehindRoot (front : List Lexeme) : Bool :=
  (front.reverse.takeWhile (·.token != .tilde)).any spellsRoot

theorem token_ne_tilde_of_spellsRoot {l : Lexeme} (h : spellsRoot l = true) :
    l.token ≠ .tilde := by
  obtain ⟨hname, -⟩ := Bool.and_eq_true_iff.mp h
  rw [beq_iff_eq.mp hname]
  decide

theorem isBehindRoot_append (front : List Lexeme) (l : Lexeme) :
    isBehindRoot (front ++ [l])
      = if l.token = .tilde then false else spellsRoot l || isBehindRoot front := by
  rw [isBehindRoot, List.reverse_append, List.reverse_singleton, List.singleton_append,
    List.takeWhile_cons]
  by_cases ht : l.token = .tilde
  · simp [ht]
  · simp [ht, isBehindRoot]

/-- **Standing behind the root**: it stands in front, and no tilde stands between. -/
theorem isBehindRoot_eq_true_iff {front : List Lexeme} :
    isBehindRoot front = true ↔ ∃ before root between, front = before ++ root :: between ∧
      spellsRoot root = true ∧ ∀ l ∈ between, l.token ≠ .tilde := by
  induction front using List.reverseRecOn with
  | nil => simp [isBehindRoot]
  | append_singleton front l ih =>
      rw [isBehindRoot_append]
      constructor
      · intro h
        split at h
        · cases h
        · rename_i ht
          rcases Bool.or_eq_true_iff.mp h with hl | hfront
          · exact ⟨front, l, [], rfl, hl, by simp⟩
          · obtain ⟨before, root, between, rfl, hroot, hbetween⟩ := ih.mp hfront
            refine ⟨before, root, between ++ [l], by simp, hroot, ?_⟩
            simpa [List.forall_mem_append, or_imp, forall_and] using ⟨hbetween, ht⟩
      · rintro ⟨before, root, between, he, hroot, hbetween⟩
        -- the last lexeme is the root itself, or one of those between
        rcases List.eq_nil_or_concat' between with rfl | ⟨between, l', rfl⟩
        · obtain ⟨rfl, hl⟩ := List.append_inj' he rfl
          obtain rfl : l = root := List.singleton_inj.mp hl
          rw [if_neg (token_ne_tilde_of_spellsRoot hroot), hroot, Bool.true_or]
        · rw [← List.cons_append, ← List.append_assoc] at he
          obtain ⟨hfront, hl⟩ := List.append_inj' he rfl
          obtain rfl : l = l' := List.singleton_inj.mp hl
          have hbehind : isBehindRoot front = true :=
            ih.mpr ⟨before, root, between, hfront, hroot, fun l' hl' =>
              hbetween l' (List.mem_append_left _ hl')⟩
          rw [if_neg (hbetween l (by simp)), hbehind, Bool.or_true]

/-! ## What lexemes become -/

/-- **Whether a vocabulary knows the root by its name**: what stands for the root is spelled like
it. -/
def KnowsRoot (v : Vocabulary) : Prop :=
  ∀ name canonical, v.get? name = some canonical →
    (canonical == Vocabulary.customSchemas) = (Text.lowercase name == "customschemas")

/-- Whether a lexeme has a place behind others: a name has to be known unless it stands behind the
root. -/
def Fits (v : Vocabulary) (front : List Lexeme) (l : Lexeme) : Prop :=
  accepts l.token = true ∧
    (l.token = .name → isBehindRoot front = false → v.contains l.literal = true)

/-- **What a lexeme becomes behind others**: a tilde becomes a comma; a name takes its canonical
form unless it stands behind the root; anything else is left as it is. -/
def becomes (v : Vocabulary) (front : List Lexeme) (l : Lexeme) : String :=
  match l.token with
  | .tilde => ","
  | .name => if isBehindRoot front then l.literal else (v.get? l.literal).getD l.literal
  | _ => l.literal

theorem fragment_of_ne_name {v : Vocabulary} {l : Lexeme} (h : l.token ≠ .name)
    (front : List Lexeme) :
    fragment v (isBehindRoot front) l
      = .ok (becomes v front l, isBehindRoot (front ++ [l])) := by
  have hroot : spellsRoot l = false := by simp [spellsRoot, h]
  rw [isBehindRoot_append, hroot, Bool.false_or]
  obtain ⟨token, chars, span⟩ := l
  cases token
  all_goals first
    | exact absurd rfl h
    | rfl

theorem fragment_of_isBehindRoot {v : Vocabulary} {l : Lexeme} (h : l.token = .name)
    {front : List Lexeme} (hfront : isBehindRoot front = true) :
    fragment v (isBehindRoot front) l
      = .ok (becomes v front l, isBehindRoot (front ++ [l])) := by
  have ht : l.token ≠ .tilde := by rw [h]; decide
  rw [isBehindRoot_append, if_neg ht, fragment, becomes, h, hfront, Bool.or_true]
  rfl

theorem fragment_eq_ok_iff_of_not_isBehindRoot {v : Vocabulary} (hv : KnowsRoot v) {l : Lexeme}
    (h : l.token = .name) {front : List Lexeme} (hfront : isBehindRoot front = false) {f : String}
    {s : Bool} : fragment v (isBehindRoot front) l = .ok (f, s) ↔
      v.contains l.literal = true ∧ f = becomes v front l ∧ s = isBehindRoot (front ++ [l]) := by
  have ht : l.token ≠ .tilde := by rw [h]; decide
  have hname : (l.token == .name) = true := by rw [h]; decide
  rw [isBehindRoot_append, if_neg ht, spellsRoot, hname, hfront, Bool.or_false, Bool.true_and,
    fragment, becomes, h, hfront]
  simp only [Bool.false_eq_true, if_false, Vocabulary.resolve, Vocabulary.contains]
  cases hget : v.get? l.literal with
  | none => simp [Except.map]
  | some canonical =>
      rw [← hv _ _ hget]
      simp [Except.map, eq_comm]

/-- **What is remembered is whether the root stands in front.** -/
theorem means_rules {v : Vocabulary} (hv : KnowsRoot v) :
    (rules v).Means isBehindRoot (Fits v) (becomes v) := by
  intro front l _ f s
  show (if accepts l.token then fragment v (isBehindRoot front) l else _) = _ ↔ _
  have hok : (Except.ok (becomes v front l, isBehindRoot (front ++ [l])) :
      Except Error (String × Bool)) = .ok (f, s) ↔
        f = becomes v front l ∧ s = isBehindRoot (front ++ [l]) := by
    rw [Except.ok.injEq, Prod.mk.injEq, eq_comm, eq_comm (b := s)]
  by_cases hacc : accepts l.token = true
  · rw [if_pos hacc]
    by_cases hname : l.token = .name
    -- only names are treated differently behind the root
    · cases hfront : isBehindRoot front with
      | true =>
          rw [← hfront, fragment_of_isBehindRoot hname hfront, hok]
          simp [Fits, hacc, hfront]
      | false =>
          rw [← hfront, fragment_eq_ok_iff_of_not_isBehindRoot hv hname hfront]
          simp [Fits, accepts, hname, hfront]
    · rw [fragment_of_ne_name hname, hok]
      simp [Fits, hacc, hname]
  · simp [hacc, Fits]

/-! ## The lexemes that have a place -/

/-- The characters that projections have a place for by themselves. -/
def marks : List Char := ['*', '(', ')', ',', '/', '~']

theorem mem_marks_iff {ch : Char} : ch ∈ marks ↔ isMark ch = true := by
  constructor
  · intro h
    exact List.all_eq_true.mp (show marks.all isMark = true by decide) ch h
  · intro h
    rcases eq_of_isMark h with rfl | rfl | rfl | rfl | rfl | rfl
    all_goals decide

theorem token_of_chars_eq {input : List Char} {l : Lexeme} (hl : l ∈ cutting.lexemes () input)
    {ch : Char} (hch : isMark ch = true) (h : l.chars = [ch]) : l.token = symbol ch := by
  refine cutting.forall_mem_lexemes (P := fun token w => w = [ch] → token = symbol ch)
    (fun m ch' cs hw => ?_) () input l hl h
  obtain ⟨run, hchars, -⟩ := cutting.chars_cons m ch' cs
  obtain ⟨rfl, -⟩ := List.cons.inj (hchars.symm.trans hw)
  exact congrArg Prod.fst (first_mark hch cs)

/-- **A lexeme has a place** if it is a name or a mark. -/
theorem accepts_iff_of_mem {input : List Char} {l : Lexeme} (hl : l ∈ cutting.lexemes () input) :
    accepts l.token = true ↔ l.token = .name ∨ ∃ ch ∈ marks, l.chars = [ch] := by
  constructor
  · intro h
    rcases isNameOrMark_of_mem hl h with ⟨hname, -⟩ | ⟨ch, hch, -, hchars⟩
    · exact Or.inl hname
    · exact Or.inr ⟨ch, mem_marks_iff.mpr hch, hchars⟩
  · rintro (hname | ⟨ch, hch, hchars⟩)
    · rw [hname]
      rfl
    · have hmark := mem_marks_iff.mp hch
      rw [token_of_chars_eq hl hmark hchars]
      exact hmark

/-! ## Projections -/

/-- **Whether a projection is taken**, by its lexemes that are no blanks: each is a name or a mark,
and each name is known or stands behind the root. -/
structure IsTaken (v : Vocabulary) (ls : List Lexeme) : Prop where
  places : ∀ l ∈ ls, l.token = .name ∨ ∃ ch ∈ marks, l.chars = [ch]
  names : ∀ front l behind, ls = front ++ l :: behind → l.token = .name →
    isBehindRoot front = false → v.contains l.literal = true

/-- **What a projection becomes**, lexeme by lexeme. -/
def shown (v : Vocabulary) (ls : List Lexeme) : List String :=
  ls.mapIdx fun i l => becomes v (ls.take i) l

theorem fits_iff_isTaken {v : Vocabulary} {input : List Char} :
    (∀ front l behind, visible (lexemes input) = front ++ l :: behind → Fits v front l) ↔
      IsTaken v (visible (lexemes input)) := by
  have haccepts : ∀ l ∈ visible (lexemes input),
      (accepts l.token = true ↔ l.token = .name ∨ ∃ ch ∈ marks, l.chars = [ch]) := fun l hl =>
    accepts_iff_of_mem (lexemes_eq input ▸ (List.mem_filter.mp hl).1)
  constructor
  · intro h
    refine ⟨fun l hl => ?_, fun front l behind e => (h front l behind e).2⟩
    obtain ⟨front, behind, e⟩ := List.append_of_mem hl
    exact (haccepts l hl).mp (h front l behind e).1
  · intro h front l behind e
    have hl : l ∈ visible (lexemes input) := e ▸ List.mem_append_right _ List.mem_cons_self
    exact ⟨(haccepts l hl).mpr (h.places l hl), h.names front l behind e⟩

theorem fragments_eq_ok_iff {v : Vocabulary} (hv : KnowsRoot v) (input : String)
    (fs : List String) :
    fragments v input = .ok fs ↔ IsTaken v (visible (lexemes input.toList)) ∧
      fs = shown v (visible (lexemes input.toList)) := by
  have hinit : isBehindRoot [] = false := rfl
  have h := (means_rules hv).fragments_eq_ok_iff hinit (lexemes input.toList) fs
  rw [fits_iff_isTaken] at h
  exact h

end Projection

/-- **All types of objects know the root by its name.** -/
theorem ObjectType.knowsRoot_attributes (o : ObjectType) :
    Projection.KnowsRoot o.attributes := by
  have htable : ∀ e ∈ o.attributes.entries,
      (e.2 == Vocabulary.customSchemas) = (e.1 == "customschemas") := by
    rcases o with (_ | _ | _ | _ | _) | _
    all_goals decide +kernel
  intro name canonical h
  exact htable _ (mem_of_findValue? h)

/-- **The scope of the custom schemas.** A projection is taken exactly if its lexemes are names and
marks and each name is known, except behind the root of the custom schemas, up to the next tilde.
Then each lexeme becomes one fragment. -/
theorem ObjectType.normalize_scopes (o : ObjectType) (input : String) :
    (∀ fs, Projection.fragments o.attributes input = .ok fs ↔
      Projection.IsTaken o.attributes (visible (Projection.lexemes input.toList)) ∧
        fs = Projection.shown o.attributes (visible (Projection.lexemes input.toList))) ∧
    ∀ out, Projection.normalize o.attributes input = .ok out ↔
      Projection.IsTaken o.attributes (visible (Projection.lexemes input.toList)) ∧
        out = String.join
          (Projection.shown o.attributes (visible (Projection.lexemes input.toList))) := by
  have hfragments := Projection.fragments_eq_ok_iff o.knowsRoot_attributes input
  exact ⟨hfragments, map_eq_ok_iff_of_eq_ok_iff hfragments String.join⟩

/-- Parentheses do not end the scope, and the tilde does. -/
example : Projection.normalize ObjectType.user.attributes "name(customschemas(a),B)Etag~ETAG"
    = .ok "name(customSchemas(a),B)Etag,etag" := by
  decide +kernel

end Registrar
