import Registrar.Proofs.Language.Pieces
import Registrar.Proofs.Language.Vocabularies

/-!
# Normalizing projections again

What a projection is normalized to has no blanks and no tildes. Where blanks alone kept two names
apart, the names have grown together, and nobody knows the name that they make. Apart from that a
normalized projection is normalized to itself: its names are canonical, and a comma keeps names
apart as a tilde does. Behind the root of the custom schemas names are left as they are, whether
they have grown together or not, and as nothing but a tilde ends that, so they are in a normalized
projection up to its end.

* `Projection.step_cases` — what a lexeme becomes.
* `Projection.rereads_join` — what normalizing does to fragments.
* `ObjectType.normalize_normalized` — when a normalized projection is normalized to itself.
-/

set_option autoImplicit false

namespace Registrar

open Text (byteLength)

namespace Projection

/-! ## Names that grow together -/

/-- Whether a lexeme is the root of the custom schemas. -/
def isRoot (v : Vocabulary) (l : Lexeme) : Bool :=
  l.token == .name && v.get? l.literal == some Vocabulary.customSchemas

/-- Whether names stand side by side, up to the root of the custom schemas and right behind it. -/
def growTogether (v : Vocabulary) : List Lexeme → Bool
  | [] => false
  | l :: ls =>
      (l.token == .name && ls.head?.any (·.token == .name)) || (!isRoot v l && growTogether v ls)

/-- **Whether a projection has names that only blanks keep apart**, up to the root of the custom
schemas and right behind it. -/
def hasAdjacentNames (v : Vocabulary) (input : String) : Bool :=
  growTogether v ((lexemes input.toList).filter (·.token != .blank))

/-! ## What lexemes become -/

variable {v : Vocabulary}

theorem step_mark (s : Bool) {l : Lexeme} {c : Char} (hc : isMark c = true)
    (htoken : l.token = symbol c) (hchars : l.chars = [c]) :
    (rules v).step s l
      = .ok (if c = '~' then (",", false) else (String.ofList [c], s)) := by
  have haccepts : accepts l.token = true := htoken ▸ hc
  show (if accepts l.token then fragment v s l else _) = _
  rw [if_pos haccepts, fragment, htoken, Lexeme.literal, hchars]
  rcases eq_of_isMark hc with rfl | rfl | rfl | rfl | rfl | rfl
  all_goals rfl

theorem step_name {l : Lexeme} (h : l.token = .name) (s : Bool) :
    (rules v).step s l = if s then .ok (l.literal, true)
      else (v.resolve l.literal).map fun c => (c, c == Vocabulary.customSchemas) := by
  show (if accepts l.token then fragment v s l else _) = _
  simp only [fragment, h, accepts, if_true]

/-- **What a lexeme becomes**: a name becomes a name, and a mark a mark that is no tilde. -/
theorem step_cases (hv : v.IsSelfContained) {s s' : Bool} {l : Lexeme} {f : String}
    (hl : accepts l.token = true → IsNameOrMark l.token l.chars)
    (h : (rules v).step s l = .ok (f, s')) :
    (l.token = .name ∧ IsName f.toList ∧
      (s = false → v.get? l.literal = some f ∧ s' = (f == Vocabulary.customSchemas))) ∨
    (l.token ≠ .name ∧ (s = false → s' = false) ∧
      ∃ c, isMark c = true ∧ c ≠ '~' ∧ f.toList = [c]) := by
  have haccepts : accepts l.token = true := by
    by_contra hn
    rw [show (rules v).step s l = if accepts l.token then fragment v s l else _ from rfl,
      if_neg hn] at h
    cases h
  rcases hl haccepts with ⟨htoken, hname⟩ | ⟨c, hc, htoken, hchars⟩
  · refine Or.inl ⟨htoken, ?_⟩
    rw [step_name htoken] at h
    -- in a custom schema names are kept, elsewhere they become canonical
    cases s with
    | true =>
        cases h
        exact ⟨by rwa [Lexeme.literal, String.toList_ofList], Bool.noConfusion⟩
    | false =>
        cases hr : v.resolve l.literal with
        | error e => rw [hr] at h; cases h
        | ok canonical =>
            rw [hr] at h
            cases h
            have hget := Vocabulary.resolve_eq_ok_iff.mp hr
            exact ⟨hv.isName hget, fun _ => ⟨hget, rfl⟩⟩
  · refine Or.inr ⟨htoken ▸ symbol_ne (by decide) c, ?_⟩
    rw [step_mark s hc htoken hchars] at h
    split at h
    · cases h
      exact ⟨fun _ => rfl, ',', by decide, by decide, rfl⟩
    · rename_i hne
      cases h
      exact ⟨id, c, hc, hne, String.toList_ofList⟩

/-! ## Reading a text -/

/-- What a text is normalized to, given whether the root of the custom schemas stands before
it. -/
def reading (v : Vocabulary) (s : Bool) (text : List Char) : Except Error String :=
  ((rules v).fragments s (cutting.lexemes () text)).map String.join

/-- **Whether a text is normalized to itself** (`true`) or has a name that is not known (`false`).
What stays as it is in front of a text keeps either. -/
def Rereads (v : Vocabulary) (s : Bool) (text : List Char) : Bool → Prop
  | true => reading v s text = .ok (String.ofList text)
  | false => ∃ name, reading v s text = .error (.unknownAttribute name)

theorem rereads_nil (s : Bool) : Rereads v s [] true := by
  show reading v s [] = _
  rw [reading, cutting.lexemes_nil, Rules.fragments_nil]
  rfl

theorem lexemes_append {token : Token} {w rest : List Char} (hne : w ≠ [])
    (hfirst : first (w ++ rest) = (token, w)) :
    cutting.lexemes () (w ++ rest) = ⟨token, w, 0, byteLength w⟩ ::
      (cutting.lexemes () rest).map (·.shift (byteLength w)) := by
  have hcut : cutting.first () (w ++ rest) = ⟨token, w, ()⟩ := by
    show Cut.mk _ _ _ = _
    rw [hfirst]
  exact cutting.lexemes_of_first hcut (by simp [hne]) rfl

theorem reading_append {s s' : Bool} {token : Token} {w rest : List Char} (hne : w ≠ [])
    (hfirst : first (w ++ rest) = (token, w)) (htoken : token ≠ .blank) {f : String}
    (hstep : (rules v).step s ⟨token, w, 0, byteLength w⟩ = .ok (f, s')) :
    reading v s (w ++ rest)
      = ((reading v s' rest).mapError (·.shift (byteLength w))).map (f ++ ·) := by
  rw [reading, lexemes_append hne hfirst, Rules.fragments_cons_ok _ htoken hstep,
    (isMovable_rules v).fragments_shift, reading]
  cases (rules v).fragments s' (cutting.lexemes () rest) with
  | error e => rfl
  | ok fs => simp [Except.map, Except.mapError]

/-- **A lexeme that stays as it is** does not change whether a text does. -/
theorem Rereads.append {s s' kept : Bool} {token : Token} {w rest : List Char}
    (h : Rereads v s' rest kept) (hne : w ≠ []) (hfirst : first (w ++ rest) = (token, w))
    (htoken : token ≠ .blank)
    (hstep : (rules v).step s ⟨token, w, 0, byteLength w⟩ = .ok (String.ofList w, s')) :
    Rereads v s (w ++ rest) kept := by
  have happend := reading_append hne hfirst htoken hstep
  cases kept with
  | true =>
      show reading v s (w ++ rest) = _
      rw [happend, show reading v s' rest = _ from h, String.ofList_append]
      rfl
  | false =>
      obtain ⟨name, hname⟩ := h
      exact ⟨name, by rw [happend, hname]; rfl⟩

theorem append_run (w rest : List Char) : w ++ rest =
    (w ++ rest.takeWhile Token.continuesName) ++ rest.dropWhile Token.continuesName := by
  rw [List.append_assoc, List.takeWhile_append_dropWhile]

theorem Rereads.mark {s kept : Bool} {c : Char} {rest : List Char} (h : Rereads v s rest kept)
    (hc : isMark c = true) (hne : c ≠ '~') : Rereads v s (c :: rest) kept := by
  refine h.append (w := [c]) (List.cons_ne_nil _ _) (first_mark hc rest)
    (symbol_ne (by decide) c) ?_
  rw [step_mark s hc rfl rfl, if_neg hne]

theorem Rereads.nameInSchema {w rest : List Char} {kept : Bool}
    (h : Rereads v true (rest.dropWhile Token.continuesName) kept) (hw : IsName w) :
    Rereads v true (w ++ rest) kept := by
  have hfirst := hw.first_append rest
  rw [append_run] at hfirst ⊢
  exact h.append (by simp [hw.ne_nil]) hfirst Token.noConfusion (step_name rfl true)

theorem Rereads.canonical {name : String} {rest : List Char} {kept : Bool}
    (h : Rereads v (name == Vocabulary.customSchemas) rest kept) (hname : IsName name.toList)
    (hstop : rest.takeWhile Token.continuesName = []) (hget : v.get? name = some name) :
    Rereads v false (name.toList ++ rest) kept := by
  have hfirst := hname.first_append rest
  rw [hstop, List.append_nil] at hfirst
  refine h.append hname.ne_nil hfirst Token.noConfusion ?_
  rw [step_name rfl, Lexeme.literal, String.ofList_toList, Vocabulary.resolve_eq_ok_iff.mpr hget]
  rfl

theorem rereads_unknown {w rest : List Char} (hw : IsName w)
    (hget : v.get? (String.ofList (w ++ rest.takeWhile Token.continuesName)) = none) :
    Rereads v false (w ++ rest) false := by
  have hfirst := hw.first_append rest
  rw [append_run] at hfirst ⊢
  refine ⟨String.ofList (w ++ rest.takeWhile Token.continuesName), ?_⟩
  rw [reading, lexemes_append (by simp [hw.ne_nil]) hfirst, Rules.fragments_cons_error _
    Token.noConfusion (e := .unknownAttribute _)]
  · rfl
  · rw [step_name rfl, Lexeme.literal, Vocabulary.resolve_eq_error_iff.mpr ⟨hget, rfl⟩]
    rfl

/-! ## Reading fragments again -/

/-- Whether lexemes that projections have a place for are names and marks. -/
def AreVisible (ls : List Lexeme) : Prop :=
  ∀ l ∈ ls, l.token ≠ .blank ∧ (accepts l.token = true → IsNameOrMark l.token l.chars)

theorem AreVisible.of_cons {l : Lexeme} {ls : List Lexeme} (h : AreVisible (l :: ls)) :
    (l.token ≠ .blank ∧ (accepts l.token = true → IsNameOrMark l.token l.chars)) ∧ AreVisible ls :=
  List.forall_mem_cons.mp h

theorem toList_join_cons (f : String) (fs : List String) :
    (String.join (f :: fs)).toList = f.toList ++ (String.join fs).toList := by
  simp

/-- **Behind the root of the custom schemas fragments stay as they are**, and also without the
characters that a name in front of them would take. -/
theorem rereads_inSchema (hv : v.IsSelfContained) {s : Bool} {ls : List Lexeme} {fs : List String}
    (hls : AreVisible ls) (h : (rules v).fragments s ls = .ok fs) :
    Rereads v true (String.join fs).toList true ∧
      Rereads v true ((String.join fs).toList.dropWhile Token.continuesName) true := by
  -- a name takes what the next ones start with, so that the rest is left without it
  induction ls generalizing s fs with
  | nil =>
      cases h
      exact ⟨rereads_nil true, rereads_nil true⟩
  | cons l ls ih =>
      obtain ⟨⟨hb, hl⟩, hls⟩ := hls.of_cons
      obtain ⟨f, s', gs, hstep, hgs, rfl⟩ := Rules.exists_of_fragments_cons _ hb h
      obtain ⟨hkept, hdropped⟩ := ih hls hgs
      rw [toList_join_cons]
      rcases step_cases hv hl hstep with ⟨-, hname, -⟩ | ⟨-, -, c, hc, hne, hf⟩
      · exact ⟨hdropped.nameInSchema hname,
          by rwa [List.dropWhile_append_of_pos hname.continues]⟩
      · rw [hf, List.singleton_append,
          List.dropWhile_cons_of_neg (by simp [continuesName_mark hc])]
        exact ⟨hkept.mark hc hne, hkept.mark hc hne⟩

theorem takeWhile_join_of_not_name (hv : v.IsSelfContained) {s : Bool} {ls : List Lexeme}
    {fs : List String} (hls : AreVisible ls) (h : (rules v).fragments s ls = .ok fs)
    (hhead : ls.head?.any (·.token == .name) = false) :
    (String.join fs).toList.takeWhile Token.continuesName = [] := by
  cases ls with
  | nil =>
      cases h
      rfl
  | cons l ls =>
      obtain ⟨⟨hb, hl⟩, hls⟩ := hls.of_cons
      obtain ⟨f, s', gs, hstep, hgs, rfl⟩ := Rules.exists_of_fragments_cons _ hb h
      rw [toList_join_cons]
      rcases step_cases hv hl hstep with ⟨hname, -⟩ | ⟨-, -, c, hc, -, hf⟩
      · simp [hname] at hhead
      · rw [hf, List.singleton_append,
          List.takeWhile_cons_of_neg (by simp [continuesName_mark hc])]

theorem takeWhile_join_of_name (hv : v.IsSelfContained) {s : Bool} {ls : List Lexeme}
    {fs : List String} (hls : AreVisible ls) (h : (rules v).fragments s ls = .ok fs)
    (hhead : ls.head?.any (·.token == .name) = true) :
    ∃ (f : String) (more : List Char),
      (String.join fs).toList.takeWhile Token.continuesName = f.toList ++ more ∧
        IsName f.toList ∧ (s = false → ∃ name, v.get? name = some f) := by
  cases ls with
  | nil => cases hhead
  | cons l ls =>
      obtain ⟨⟨hb, hl⟩, hls⟩ := hls.of_cons
      obtain ⟨f, s', gs, hstep, hgs, rfl⟩ := Rules.exists_of_fragments_cons _ hb h
      rw [toList_join_cons]
      rcases step_cases hv hl hstep with ⟨-, hname, hf⟩ | ⟨hne, -⟩
      · exact ⟨f, _, List.takeWhile_append_of_pos hname.continues, hname,
          fun hs => ⟨_, (hf hs).1⟩⟩
      · simp [hne] at hhead

/-- **Two canonical names that have grown together are not known.** -/
theorem rereads_grown (hv : v.IsSelfContained) {name f : String} (hget : v.get? name = some f)
    {rest : List Char} {g : String} {more : List Char}
    (hrun : rest.takeWhile Token.continuesName = g.toList ++ more) (hg : IsName g.toList)
    (hknown : (f == Vocabulary.customSchemas) = false → ∃ name, v.get? name = some g) :
    Rereads v false (f.toList ++ rest) false := by
  refine rereads_unknown (hv.isName hget) ?_
  have htext : String.ofList (f.toList ++ rest.takeWhile Token.continuesName)
      = f ++ (g ++ String.ofList more) := by
    rw [hrun]
    simp
  rw [htext]
  -- the root of custom schemas takes no more letters; two names are never one
  cases hroot : f == Vocabulary.customSchemas with
  | true =>
      have hne : g ++ String.ofList more ≠ "" := by
        intro hempty
        have hg' : g = "" := (String.append_eq_empty_iff.mp hempty).1
        exact hg.ne_nil (hg' ▸ rfl)
      rw [beq_iff_eq.mp hroot]
      exact hv.get?_customSchemas_append hne
  | false =>
      obtain ⟨name', hget'⟩ := hknown hroot
      rw [← String.append_assoc]
      exact hv.get?_append hget hget' _

/-- **Fragments stay as they are exactly if no names have grown together**, up to the root of the
custom schemas and right behind it. Names that have grown together are not known. -/
theorem rereads_join (hv : v.IsSelfContained) {ls : List Lexeme} {fs : List String}
    (hls : AreVisible ls) (h : (rules v).fragments false ls = .ok fs) :
    Rereads v false (String.join fs).toList (!growTogether v ls) := by
  induction ls generalizing fs with
  | nil =>
      cases h
      exact rereads_nil false
  | cons l ls ih =>
      obtain ⟨⟨hb, hl⟩, hls⟩ := hls.of_cons
      obtain ⟨f, s', gs, hstep, hgs, rfl⟩ := Rules.exists_of_fragments_cons _ hb h
      rw [toList_join_cons, growTogether]
      rcases step_cases hv hl hstep with ⟨htoken, hname, hf⟩ | ⟨hne, hs, c, hc, htilde, hf⟩
      · obtain ⟨hget, rfl⟩ := hf rfl
        have hroot : isRoot v l = (f == Vocabulary.customSchemas) := by
          rw [isRoot, htoken, hget]
          rfl
        rw [hroot, htoken]
        -- whether the name has grown together with the next is a matter of the next lexeme alone
        cases hhead : ls.head?.any (·.token == .name) with
        | true =>
            obtain ⟨g, more, hrun, hg, hknown⟩ := takeWhile_join_of_name hv hls hgs hhead
            exact rereads_grown hv hget hrun hg hknown
        | false =>
            have hstop := takeWhile_join_of_not_name hv hls hgs hhead
            refine Rereads.canonical ?_ hname hstop (hv.get?_canonical hget)
            cases hflag : f == Vocabulary.customSchemas with
            | true => exact (rereads_inSchema hv hls hgs).1
            | false => exact ih hls (hflag ▸ hgs)
      · -- a mark keeps names apart and changes nothing that is remembered
        have hroot : isRoot v l = false := by simp [isRoot, hne]
        have hkept : (!((l.token == .name && ls.head?.any (·.token == .name)) ||
            (!isRoot v l && growTogether v ls))) = !growTogether v ls := by
          simp [hne, hroot]
        rw [hkept, hf]
        exact (ih hls (hs rfl ▸ hgs)).mark hc htilde

/-! ## Normalizing again -/

theorem areVisible_filter (input : List Char) :
    AreVisible ((cutting.lexemes () input).filter (·.token != .blank)) := by
  intro l hl
  obtain ⟨hmem, hb⟩ := List.mem_filter.mp hl
  exact ⟨by simpa using hb, isNameOrMark_of_mem hmem⟩

theorem rereads_of_normalize (hv : v.IsSelfContained) {input out : String}
    (h : normalize v input = .ok out) :
    Rereads v false out.toList (!hasAdjacentNames v input) := by
  rw [normalize_eq] at h
  obtain ⟨fs, hfs, rfl⟩ := map_eq_ok_iff.mp h
  rw [hasAdjacentNames, lexemes_eq]
  exact rereads_join hv (areVisible_filter _) (by rwa [Rules.fragments_filter])

end Projection

/-- **A normalized projection is normalized to itself exactly if no names have grown together.**
If blanks alone keep two names apart, up to the root of the custom schemas or right behind it, then
what the projection is normalized to is not a projection: it has a name that is not known. -/
theorem ObjectType.normalize_normalized (o : ObjectType) {input out : String}
    (h : Projection.normalize o.attributes input = .ok out) :
    (Projection.normalize o.attributes out = .ok out ↔
      Projection.hasAdjacentNames o.attributes input = false) ∧
    (Projection.hasAdjacentNames o.attributes input = true →
      ∃ name, Projection.normalize o.attributes out = .error (.unknownAttribute name)) := by
  have hrereads := Projection.rereads_of_normalize o.isSelfContained_attributes h
  have hreading : Projection.normalize o.attributes out
      = Projection.reading o.attributes false out.toList := Projection.normalize_eq _ out
  rw [hreading]
  cases hadjacent : Projection.hasAdjacentNames o.attributes input with
  | true =>
      rw [hadjacent] at hrereads
      obtain ⟨name, hname⟩ := hrereads
      rw [hname]
      exact ⟨by simp, fun _ => ⟨name, rfl⟩⟩
  | false =>
      rw [hadjacent] at hrereads
      have hkept : Projection.reading o.attributes false out.toList
          = .ok (String.ofList out.toList) := hrereads
      rw [hkept, String.ofList_toList]
      exact ⟨by simp, fun h => absurd h Bool.false_ne_true⟩

/-- Behind the root of the custom schemas blanks and tildes keep names apart no longer, but a name
right behind it makes it another name. -/
theorem ObjectType.normalize_normalized_root :
    (Projection.normalize ObjectType.user.attributes "name( FirstName )~customschemas/A b~etag"
        = .ok "name(givenName),customSchemas/Ab,etag" ∧
      Projection.normalize ObjectType.user.attributes "name(givenName),customSchemas/Ab,etag"
        = .ok "name(givenName),customSchemas/Ab,etag") ∧
    (Projection.normalize ObjectType.user.attributes "customschemas A" = .ok "customSchemasA" ∧
      ∃ name, Projection.normalize ObjectType.user.attributes "customSchemasA"
        = .error (.unknownAttribute name)) := by
  have hkept : Projection.normalize ObjectType.user.attributes
      "name( FirstName )~customschemas/A b~etag" = .ok "name(givenName),customSchemas/Ab,etag" := by
    decide +kernel
  have hgrown : Projection.normalize ObjectType.user.attributes "customschemas A"
      = .ok "customSchemasA" := by
    decide +kernel
  exact ⟨⟨hkept, (ObjectType.user.normalize_normalized hkept).1.mpr (by decide +kernel)⟩,
    hgrown, (ObjectType.user.normalize_normalized hgrown).2 (by decide +kernel)⟩

/-- The given name and the family name grow together. -/
theorem ObjectType.normalize_normalized_names :
    Projection.normalize ObjectType.user.attributes "givenname familyname"
        = .ok "givenNamefamilyName" ∧
      Projection.normalize ObjectType.user.attributes "givenNamefamilyName"
        = .error (.unknownAttribute "givenNamefamilyName") := by
  decide +kernel

end Registrar
