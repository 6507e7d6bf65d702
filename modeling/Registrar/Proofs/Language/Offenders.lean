import Registrar.Proofs.Language.Pieces
import Registrar.Proofs.Language.Scanning

/-!
# Where a syntax error is

The first lexeme that a language has no place for is a syntax error. It is a single character, which
is no blank, and the error says where it stands:

```
christianname.x       projection    13..14    unexpected character .
customschemas/é _     projection    17..18    unexpected character _
_é.x=1~_.             query           8..9    unexpected character _
```

What stands in front of the character is normalized if it stands alone. It is cut into the same
lexemes then: neither lexer looks further than it cuts, apart from the look behind an underscore,
and a name or a run of blanks that ends at the character ends at the end of the text just as well.

* `Cutting.lexemes_flatMap_chars` — the text up to the end of a lexeme is cut into the same lexemes.
* `Rules.exists_of_fragments_error` — the lexeme that an error is about.
* `Rules.RefusesCharacters.pointsAt` — what an error of one language points at.
* `Error.pointsAt_earliest` — both languages.
-/

set_option autoImplicit false

namespace Registrar

open Text (byteLength isBlank)

/-! ## The text up to the end of a lexeme -/

namespace Cutting

variable {μ : Type} (k : Cutting μ)

/-- **Whether a cutting looks no further than it cuts**: what it cuts off a text, it cuts off any
start of the text that goes as far. -/
def LooksNoFurther : Prop :=
  ∀ m cs rest, (k.first m (cs ++ rest)).chars.length ≤ cs.length →
    k.first m cs = k.first m (cs ++ rest)

/-- **Texts, cut by cut**: behind what is cut off a text, there is what is left of it. -/
theorem induction_on_cuts {motive : μ → List Char → Prop} (nil : ∀ m, motive m [])
    (cons : ∀ m cs left, cs ≠ [] → cs = (k.first m cs).chars ++ left →
      motive (k.first m cs).expected left → motive m cs) (m : μ) (cs : List Char) :
    motive m cs := by
  refine lexemes.induct k motive nil (fun m ch cs hleft => ?_) m cs
  obtain ⟨left, hcs⟩ := k.exists_rest m ch cs
  have hcut : (k.first m (ch :: cs)).chars <+: ch :: cs := ⟨left, hcs.symm⟩
  exact cons m _ _ (List.cons_ne_nil _ _) (List.prefix_iff_eq_append.mp hcut).symm hleft

theorem chars_first_ne_nil {m : μ} {cs : List Char} (hne : cs ≠ []) :
    (k.first m cs).chars ≠ [] := by
  obtain ⟨ch, tail, rfl⟩ := List.exists_cons_of_ne_nil hne
  obtain ⟨run, hrun, -⟩ := k.chars_cons m ch tail
  rw [hrun]
  exact List.cons_ne_nil _ _

theorem flatMap_chars_lexemes (m : μ) (cs : List Char) :
    (k.lexemes m cs).flatMap (·.chars) = cs := by
  induction m, cs using k.induction_on_cuts with
  | nil m => rw [lexemes_nil, List.flatMap_nil]
  | cons m cs left hne hcs ih =>
      rw [k.lexemes_of_first rfl hne hcs, List.flatMap_cons, List.flatMap_map]
      show (k.first m cs).chars ++ (k.lexemes _ left).flatMap (·.chars) = cs
      rw [ih]
      exact hcs.symm

theorem flatMap_chars_shift (ls : List Lexeme) (n : Nat) :
    (ls.map (·.shift n)).flatMap (·.chars) = ls.flatMap (·.chars) := by
  rw [List.flatMap_map]
  rfl

theorem exists_of_lexemes_eq_cons {m : μ} {cs left : List Char} (hne : cs ≠ [])
    (hcs : cs = (k.first m cs).chars ++ left) {l : Lexeme} {front behind : List Lexeme}
    (h : k.lexemes m cs = l :: (front ++ behind)) :
    ∃ inner outer, l = (k.first m cs).lexeme ∧
      k.lexemes (k.first m cs).expected left = inner ++ outer ∧
      front = inner.map (·.shift (byteLength l.chars)) ∧
      behind = outer.map (·.shift (byteLength l.chars)) := by
  rw [k.lexemes_of_first rfl hne hcs] at h
  obtain ⟨rfl, hrest⟩ := List.cons.inj h
  obtain ⟨inner, outer, hsplit, hinner, houter⟩ := List.map_eq_append_iff.mp hrest
  exact ⟨inner, outer, rfl, hsplit, hinner.symm, houter.symm⟩

/-- **A lexeme stands behind those in front of it.** -/
theorem span_of_lexemes_eq {m : μ} {cs : List Char} {front behind : List Lexeme} {l : Lexeme}
    (h : k.lexemes m cs = front ++ l :: behind) :
    l.span = ⟨byteLength (front.flatMap (·.chars)),
      byteLength (front.flatMap (·.chars) ++ l.chars)⟩ := by
  -- a split of the lexemes of a text is a split of the lexemes behind the first
  induction m, cs using k.induction_on_cuts generalizing front behind l with
  | nil m =>
      rw [lexemes_nil] at h
      exact absurd h.symm (List.append_ne_nil_of_right_ne_nil _ (List.cons_ne_nil _ _))
  | cons m cs left hne hcs ih =>
      cases front with
      | nil =>
          have hfirst : k.lexemes m cs = l :: ([] ++ behind) := h
          obtain ⟨-, -, rfl, -⟩ := k.exists_of_lexemes_eq_cons hne hcs hfirst
          rfl
      | cons first front =>
          obtain ⟨inner, outer, -, hsplit, rfl, houter⟩ := k.exists_of_lexemes_eq_cons hne hcs h
          obtain ⟨l', behind', rfl, rfl, -⟩ := List.map_eq_cons_iff.mp houter.symm
          have hspan := ih hsplit
          show l'.span.shift _ = _
          rw [hspan, List.flatMap_cons, flatMap_chars_shift]
          simp only [Text.Span.shift, Text.byteLength_append, Lexeme.chars_shift, Nat.add_comm,
            Nat.add_left_comm]

variable {k}

/-- **The text up to the end of a lexeme is cut into the same lexemes.** -/
theorem lexemes_flatMap_chars (hk : k.LooksNoFurther) {m : μ} {cs : List Char}
    {front behind : List Lexeme} (h : k.lexemes m cs = front ++ behind) :
    k.lexemes m (front.flatMap (·.chars)) = front := by
  induction m, cs using k.induction_on_cuts generalizing front behind with
  | nil m =>
      rw [lexemes_nil] at h
      obtain ⟨rfl, -⟩ := List.append_eq_nil_iff.mp h.symm
      exact k.lexemes_nil m
  | cons m cs left hne hcs ih =>
      cases front with
      | nil => exact k.lexemes_nil m
      | cons first front =>
          obtain ⟨inner, outer, rfl, hsplit, rfl, -⟩ := k.exists_of_lexemes_eq_cons hne hcs h
          have hinner := ih hsplit
          have hleft : left = inner.flatMap (·.chars) ++ outer.flatMap (·.chars) := by
            rw [← List.flatMap_append, ← hsplit, flatMap_chars_lexemes]
          -- the first lexeme is cut off the shorter text, too
          have htext : cs = ((k.first m cs).chars ++ inner.flatMap (·.chars))
              ++ outer.flatMap (·.chars) := by
            rw [List.append_assoc, ← hleft]
            exact hcs
          have hshort : k.first m ((k.first m cs).chars ++ inner.flatMap (·.chars))
              = k.first m cs := by
            have hle : (k.first m cs).chars.length
                ≤ ((k.first m cs).chars ++ inner.flatMap (·.chars)).length := by
              rw [List.length_append]
              exact Nat.le_add_right _ _
            have hcut := hk m ((k.first m cs).chars ++ inner.flatMap (·.chars))
              (outer.flatMap (·.chars))
            rw [← htext] at hcut
            exact hcut hle
          have hstart : (k.first m cs).chars ++ inner.flatMap (·.chars) ≠ [] :=
            List.append_ne_nil_of_left_ne_nil (k.chars_first_ne_nil hne) _
          rw [List.flatMap_cons, flatMap_chars_shift]
          show k.lexemes m ((k.first m cs).chars ++ _) = _
          rw [k.lexemes_of_first hshort hstart rfl, hinner]
          rfl

section

variable {m : μ} {cs : List Char} {front behind : List Lexeme} {l : Lexeme}
  (h : k.lexemes m cs = front ++ l :: behind)

include h

theorem flatMap_chars_append_prefix : front.flatMap (·.chars) ++ l.chars <+: cs := by
  have htext := k.flatMap_chars_lexemes m cs
  rw [h, List.flatMap_append, List.flatMap_cons, ← List.append_assoc] at htext
  exact ⟨_, htext⟩

theorem lexemes_flatMap_chars_append (hk : k.LooksNoFurther) :
    k.lexemes m (front.flatMap (·.chars) ++ l.chars) = front ++ [l] := by
  have hsplit : k.lexemes m cs = (front ++ [l]) ++ behind := by
    rw [h, List.append_assoc]
    rfl
  have hcut := lexemes_flatMap_chars hk hsplit
  rw [List.flatMap_append, List.flatMap_singleton] at hcut
  exact hcut

end

end Cutting

/-! ## The lexeme that an error is about -/

namespace Rules

variable {σ : Type} (r : Rules σ)

/-- **The lexeme that an error is about.** Those in front of it are normalized, and any lexemes that
start like that give the error. -/
theorem exists_of_fragments_error {s : σ} {ls : List Lexeme} {e : Error}
    (h : r.fragments s ls = .error e) :
    ∃ front l behind fs s', ls = front ++ l :: behind ∧ r.fragments s front = .ok fs ∧
      l.token ≠ .blank ∧ r.step s' l = .error e ∧
      ∀ more, r.fragments s (front ++ l :: more) = .error e := by
  induction ls generalizing s with
  | nil => cases h
  | cons l ls ih =>
      -- the first lexeme is passed over, refused, or part of the accepted front
      by_cases hb : l.token = .blank
      · rw [fragments_blank r s hb] at h
        obtain ⟨front, l', behind, fs, s', rfl, hfront, hl', hstep, hmore⟩ := ih h
        refine ⟨l :: front, l', behind, fs, s', rfl, ?_, hl', hstep, fun more => ?_⟩
        · rw [fragments_blank r s hb, hfront]
        · rw [List.cons_append, fragments_blank r s hb, hmore]
      · cases hs : r.step s l with
        | error e' =>
            rw [fragments_cons_error r hb hs] at h
            cases h
            exact ⟨[], l, ls, [], s, rfl, rfl, hb, hs, fragments_cons_error r hb hs⟩
        | ok p =>
            obtain ⟨f, t⟩ := p
            rw [fragments_cons_ok r hb hs] at h
            obtain ⟨front, l', behind, fs, s', rfl, hfront, hl', hstep, hmore⟩ :=
              ih (map_eq_error_iff.mp h)
            refine ⟨l :: front, l', behind, f :: fs, s', rfl, ?_, hl', hstep, fun more => ?_⟩
            · rw [fragments_cons_ok r hb hs, hfront]
              rfl
            · rw [List.cons_append, fragments_cons_ok r hb hs, hmore]
              rfl

end Rules

/-! ## Errors that point at a character -/

/-- **Whether an error points at a character of a text**, the first that cannot be normalized.
`before` is what stands in front of it. -/
structure Error.PointsAt (e : Error) (normalize : String → Except Error String)
    (language : Language) (text before : List Char) (ch : Char) : Prop where
  /-- The character stands there and is no blank. -/
  stands : before ++ [ch] <+: text
  visible : isBlank ch = false
  /-- The error is about the character at its place, … -/
  about : e = .unexpected language (String.singleton ch)
    ⟨byteLength before, byteLength (before ++ [ch])⟩
  /-- … which is not empty and in the text, … -/
  place : ∀ span ∈ e.span?, span.start < span.stop ∧ span.stop ≤ byteLength text
  /-- … and its message ends in the character. -/
  message : [ch] <:+ e.message.toList
  /-- The text in front of the character is normalized, … -/
  accepted : ∃ out, normalize (String.ofList before) = .ok out
  /-- … and with the character it gives the same error. -/
  refused : normalize (String.ofList (before ++ [ch])) = .error e

/-- An error about a character at its place has a span in the text, and its message shows the
character. -/
theorem Error.pointsAt_unexpected {normalize : String → Except Error String} {language : Language}
    {text before : List Char} {ch : Char} (hstands : before ++ [ch] <+: text)
    (hvisible : isBlank ch = false)
    (haccepted : ∃ out, normalize (String.ofList before) = .ok out)
    (hrefused : normalize (String.ofList (before ++ [ch])) = .error (.unexpected language
      (String.singleton ch) ⟨byteLength before, byteLength (before ++ [ch])⟩)) :
    (Error.unexpected language (String.singleton ch)
      ⟨byteLength before, byteLength (before ++ [ch])⟩).PointsAt normalize language text before
        ch where
  stands := hstands
  visible := hvisible
  about := rfl
  place span hspan := by
    obtain rfl : _ = span := Option.some.inj hspan
    obtain ⟨behind, rfl⟩ := hstands
    have hpos := ch.utf8Size_pos
    simp only [Text.byteLength_append, Text.byteLength_cons, Text.byteLength_nil]
    omega
  message := by
    rw [message_unexpected]
    simp only [String.toList_append, String.toList_singleton, ← List.append_assoc]
    exact List.suffix_append _ _
  accepted := haccepted
  refused := hrefused

namespace Rules

variable {σ μ : Type} {r : Rules σ} {k : Cutting μ}

/-- **Whether a language refuses characters only**: each lexeme that it has no place for is a single
character, and otherwise only a name can be in error. -/
structure RefusesCharacters (r : Rules σ) (k : Cutting μ) : Prop where
  looksNoFurther : k.LooksNoFurther
  single : ∀ m ch cs, (k.first m (ch :: cs)).token ≠ .blank →
    r.accepts (k.first m (ch :: cs)).token = false →
      isBlank ch = false ∧ (k.first m (ch :: cs)).chars = [ch]
  unknown : ∀ s l e, r.fragment s l = .error e → ∃ name, e = .unknownAttribute name

theorem RefusesCharacters.exists_of_mem (h : r.RefusesCharacters k) {m : μ} {cs : List Char}
    {l : Lexeme} (hl : l ∈ k.lexemes m cs) (hblank : l.token ≠ .blank)
    (hacc : r.accepts l.token = false) : ∃ ch, isBlank ch = false ∧ l.chars = [ch] :=
  k.forall_mem_lexemes
    (P := fun t w => t ≠ .blank → r.accepts t = false → ∃ ch, isBlank ch = false ∧ w = [ch])
    (fun m ch cs hb ha => ⟨ch, h.single m ch cs hb ha⟩) m cs l hl hblank hacc

/-- **An error of such a language** is about a name that is not known, or points at a character. -/
theorem RefusesCharacters.pointsAt (h : r.RefusesCharacters k) {s : σ} {m : μ}
    {normalize : String → Except Error String}
    (hn : ∀ t, normalize t = (r.fragments s (k.lexemes m t.toList)).map String.join)
    {input : String} {e : Error} (he : normalize input = .error e) :
    (∃ name, e = .unknownAttribute name) ∨
      ∃ before ch, e.PointsAt normalize r.language input.toList before ch := by
  rw [hn, map_eq_error_iff] at he
  obtain ⟨front, l, behind, fs, s', hls, hfront, hblank, hstep, hmore⟩ :=
    r.exists_of_fragments_error he
  rw [step] at hstep
  split at hstep
  · exact Or.inl (h.unknown s' l e hstep)
  · rename_i hacc
    obtain rfl : _ = e := Except.error.inj hstep
    -- a token that is not accepted is one visible character
    have hmem : l ∈ k.lexemes m input.toList := by
      rw [hls]
      exact List.mem_append_right _ List.mem_cons_self
    obtain ⟨ch, hvisible, hchars⟩ := h.exists_of_mem hmem hblank (Bool.eq_false_iff.mpr hacc)
    have hspan := k.span_of_lexemes_eq hls
    have hliteral : l.literal = String.singleton ch := by
      rw [Lexeme.literal, hchars]
      rfl
    have hstands := Cutting.flatMap_chars_append_prefix hls
    -- lexing up to the character, or up to behind it, gives the same lexemes as before
    have hbefore := Cutting.lexemes_flatMap_chars h.looksNoFurther hls
    have hwith := Cutting.lexemes_flatMap_chars_append hls h.looksNoFurther
    rw [hchars] at hspan hstands hwith
    rw [hliteral, hspan] at hmore ⊢
    refine Or.inr ⟨_, ch, Error.pointsAt_unexpected hstands hvisible ?_ ?_⟩
    · refine ⟨String.join fs, ?_⟩
      rw [hn, String.toList_ofList, hbefore, hfront]
      rfl
    · rw [hn, String.toList_ofList, hwith, hmore]
      rfl

end Rules

/-! ## What both lexers cut off -/

theorem Cutting.LooksNoFurther.of_cons {μ : Type} {k : Cutting μ}
    (h : ∀ m ch cs rest, (k.first m (ch :: (cs ++ rest))).chars.length ≤ cs.length + 1 →
      k.first m (ch :: cs) = k.first m (ch :: (cs ++ rest))) : k.LooksNoFurther := by
  intro m cs rest hlen
  cases cs with
  | cons ch cs => exact h m ch cs rest hlen
  | nil =>
      have hnil : (k.first m rest).chars = [] :=
        List.length_eq_zero_iff.mp (Nat.le_zero.mp hlen)
      have hrest : rest = [] := by
        by_contra hne
        exact k.chars_first_ne_nil hne hnil
      rw [hrest]
      rfl

theorem takeWhile_of_length_append_le {p : Char → Bool} {cs rest : List Char}
    (h : ((cs ++ rest).takeWhile p).length ≤ cs.length) :
    cs.takeWhile p = (cs ++ rest).takeWhile p := by
  rw [List.takeWhile_append] at h ⊢
  split at h
  · rename_i hall
    have hself : cs.takeWhile p = cs :=
      (List.takeWhile_prefix p).eq_of_length hall
    have hnil : rest.takeWhile p = [] := by
      rw [List.length_append] at h
      exact List.length_eq_zero_iff.mp (by omega)
    rw [if_pos hall, hnil, List.append_nil, hself]
  · rename_i hnot
    rw [if_neg hnot]

section Names

variable {ch : Char} {cs rest : List Char} {p : Char → Bool}

theorem loneUnderscore_of_not_startsName (h : Token.startsName ch = false) (cs : List Char) :
    Scan.loneUnderscore ch cs = false := by
  have hch : (ch == '_') = false := (Bool.or_eq_false_iff.mp h).2
  rw [Scan.loneUnderscore, hch, Bool.false_and]

/-- An underscore in front of a text that a name goes on with does not stand alone in front of a
start of the text, if the name does not go on beyond that. -/
theorem loneUnderscore_of_append (hp : ∀ c, Token.continuesName c = true → p c = true)
    (hlen : ((cs ++ rest).takeWhile p).length ≤ cs.length)
    (h : Scan.loneUnderscore ch (cs ++ rest) = false) : Scan.loneUnderscore ch cs = false := by
  cases cs with
  | cons c cs => exact h
  | nil =>
      have hrun : rest.takeWhile p = [] := List.length_eq_zero_iff.mp (Nat.le_zero.mp hlen)
      have hnext : rest.head?.any Token.continuesName = false := by
        cases rest with
        | nil => rfl
        | cons c rest =>
            rw [List.takeWhile_cons] at hrun
            split at hrun
            · cases hrun
            · rename_i hc
              exact Bool.eq_false_iff.mpr fun hcont => hc (hp c hcont)
      rw [List.nil_append, Scan.loneUnderscore, hnext] at h
      exact h

/-- **What a character is, with or without what comes behind a text**: an underscore that stands
alone, the start of a name, or a character by itself. -/
theorem nameOrSingle_eq_append {α : Type} (hp : ∀ c, Token.continuesName c = true → p c = true)
    (hlen : Token.startsName ch = true → Scan.loneUnderscore ch (cs ++ rest) = false →
      ((cs ++ rest).takeWhile p).length ≤ cs.length) (underscore single : α)
    (name : List Char → α) :
    (if Scan.loneUnderscore ch cs then underscore
      else if Token.startsName ch then name (cs.takeWhile p) else single)
    = if Scan.loneUnderscore ch (cs ++ rest) then underscore
      else if Token.startsName ch then name ((cs ++ rest).takeWhile p) else single := by
  cases hs : Token.startsName ch with
  | false =>
      rw [loneUnderscore_of_not_startsName hs, loneUnderscore_of_not_startsName hs]
      rfl
  | true =>
      -- an underscore that is alone with more behind it is alone without
      cases hu : Scan.loneUnderscore ch (cs ++ rest) with
      | true =>
          have hu' : Scan.loneUnderscore ch cs = true := by
            by_contra hnot
            rw [Projection.loneUnderscore_append (Bool.eq_false_iff.mpr hnot)] at hu
            cases hu
          rw [hu']
          rfl
      | false =>
          have hrun := hlen hs hu
          rw [loneUnderscore_of_append hp hrun hu, takeWhile_of_length_append_le hrun]

end Names

namespace Projection

/-- The lexer of projections looks no further than it cuts. -/
theorem looksNoFurther_cutting : cutting.LooksNoFurther := by
  refine .of_cons fun _ ch cs rest hlen => ?_
  have hlen' : (first (ch :: (cs ++ rest))).2.length ≤ cs.length + 1 := hlen
  have hfirst : first (ch :: cs) = first (ch :: (cs ++ rest)) := by
    rw [first] at hlen' ⊢
    rw [first]
    -- a run that ends in front of `rest` is cut in the same way without it
    by_cases hb : isBlank ch = true
    · rw [if_pos hb] at hlen' ⊢
      rw [if_pos hb, takeWhile_of_length_append_le (Nat.le_of_succ_le_succ hlen')]
    · rw [if_neg hb] at hlen' ⊢
      rw [if_neg hb]
      refine nameOrSingle_eq_append (fun _ h => h) (fun hs hu => ?_) _ _
        fun run => (Token.name, ch :: run)
      rw [hu, hs] at hlen'
      exact Nat.le_of_succ_le_succ hlen'
  show Cut.mk _ _ _ = Cut.mk _ _ _
  rw [hfirst]

/-- **Projections refuse characters only.** -/
theorem refusesCharacters_rules (v : Vocabulary) : (rules v).RefusesCharacters cutting where
  looksNoFurther := looksNoFurther_cutting
  single _ ch cs hblank hacc := by
    have hblank' : (first (ch :: cs)).1 ≠ .blank := hblank
    have hacc' : accepts (first (ch :: cs)).1 = false := hacc
    show isBlank ch = false ∧ (first (ch :: cs)).2 = [ch]
    rw [first] at hblank' hacc' ⊢
    by_cases hb : isBlank ch = true
    · rw [if_pos hb] at hblank'
      exact absurd rfl hblank'
    rw [if_neg hb] at hacc' ⊢
    refine ⟨Bool.eq_false_iff.mpr hb, ?_⟩
    -- what is no blank and no name is a character by itself
    split
    · rfl
    · rename_i hu
      rw [if_neg hu] at hacc'
      split
      · rename_i hs
        rw [if_pos hs] at hacc'
        cases hacc'
      · rfl
  unknown s l e he := by
    have hfragment : fragment v s l = .error e := he
    unfold fragment at hfragment
    split at hfragment
    · split at hfragment
      · cases hfragment
      · obtain ⟨-, rfl⟩ := Vocabulary.resolve_eq_error_iff.mp (map_eq_error_iff.mp hfragment)
        exact ⟨_, rfl⟩
    · cases hfragment
    · cases hfragment

end Projection

namespace Query

theorem continuesDotted_of_continuesName {ch : Char} (h : Token.continuesName ch = true) :
    continuesDotted ch = true := by
  rw [continuesDotted, h, Bool.true_or]

/-- The lexer of queries looks no further than it cuts, whatever it expects. -/
theorem looksNoFurther_cutting : cutting.LooksNoFurther := by
  refine .of_cons fun m ch cs rest hlen => ?_
  have hlen' : (first m (ch :: (cs ++ rest))).chars.length ≤ cs.length + 1 := hlen
  have hfirst : first m (ch :: cs) = first m (ch :: (cs ++ rest)) := by
    rw [first] at hlen' ⊢
    rw [first]
    by_cases ht : ch = '~'
    · rw [if_pos ht, if_pos ht]
    rw [if_neg ht] at hlen' ⊢
    rw [if_neg ht]
    by_cases hb : isBlank ch = true
    · rw [if_pos hb] at hlen' ⊢
      rw [if_pos hb, takeWhile_of_length_append_le (Nat.le_of_succ_le_succ hlen')]
    rw [if_neg hb] at hlen' ⊢
    rw [if_neg hb]
    cases m with
    | name =>
        refine nameOrSingle_eq_append (fun _ => continuesDotted_of_continuesName)
          (fun hs hu => ?_) _ _ fun run => First.mk .name (ch :: run) .operator
        rw [firstVisible, hu, hs] at hlen'
        exact Nat.le_of_succ_le_succ hlen'
    | operator =>
        rw [firstVisible, firstVisible,
          takeWhile_of_length_append_le (Nat.le_of_succ_le_succ hlen')]
    | value =>
        rw [firstVisible, firstVisible,
          takeWhile_of_length_append_le (Nat.le_of_succ_le_succ hlen')]
  show Cut.mk _ _ _ = Cut.mk _ _ _
  rw [hfirst]

/-- **Queries refuse characters only**, and only where a name is expected. -/
theorem refusesCharacters_rules (v : Vocabulary) : (rules v).RefusesCharacters cutting where
  looksNoFurther := looksNoFurther_cutting
  single m ch cs hblank hacc := by
    have hblank' : (first m (ch :: cs)).token ≠ .blank := hblank
    have hacc' : accepts (first m (ch :: cs)).token = false := hacc
    show isBlank ch = false ∧ (first m (ch :: cs)).chars = [ch]
    rw [first] at hblank' hacc' ⊢
    by_cases ht : ch = '~'
    · rw [if_pos ht] at hacc'
      cases hacc'
    rw [if_neg ht] at hblank' hacc' ⊢
    by_cases hb : isBlank ch = true
    · rw [if_pos hb] at hblank'
      exact absurd rfl hblank'
    rw [if_neg hb] at hacc' ⊢
    refine ⟨Bool.eq_false_iff.mpr hb, ?_⟩
    cases m with
    | operator => cases hacc'
    | value => cases hacc'
    | name =>
        rw [firstVisible] at hacc' ⊢
        split
        · rfl
        · rename_i hu
          rw [if_neg hu] at hacc'
          split
          · rename_i hs
            rw [if_pos hs] at hacc'
            cases hacc'
          · rfl
  unknown s l e he := by
    -- a token that is accepted is refused only as a name that is not known
    have hfragment : fragment v l = .error e := map_eq_error_iff.mp he
    unfold fragment at hfragment
    split at hfragment
    · split at hfragment
      · cases hfragment
      · obtain ⟨-, rfl⟩ := Vocabulary.resolve_eq_error_iff.mp hfragment
        exact ⟨_, rfl⟩
    · cases hfragment
    · cases hfragment
    · cases hfragment

end Query

/-! ## Both languages -/

/-- **A syntax error points at the earliest character that is in error**, with any vocabulary. Only
a name that is not known is another error. -/
theorem Error.pointsAt_earliest (v : Vocabulary) (input : String) :
    (∀ e, Projection.normalize v input = .error e → (∃ name, e = .unknownAttribute name) ∨
      ∃ before ch, e.PointsAt (Projection.normalize v) .projection input.toList before ch) ∧
    (∀ e, Query.normalize v input = .error e → (∃ name, e = .unknownAttribute name) ∨
      ∃ before ch, e.PointsAt (Query.normalize v) .query input.toList before ch) :=
  ⟨fun _ he => (Projection.refusesCharacters_rules v).pointsAt (Projection.normalize_eq v) he,
    fun _ he => (Query.refusesCharacters_rules v).pointsAt (Query.normalize_eq v) he⟩

/-- The underscore in front of the dot starts no name, and in front of it stands a clause. -/
theorem Error.pointsAt_earliest_underscore :
    Query.normalize .userQuery "_é.x=1~_." = .error (.unexpected .query "_" ⟨8, 9⟩) ∧
      ∃ before ch, (Error.unexpected .query "_" ⟨8, 9⟩).PointsAt (Query.normalize .userQuery)
        .query "_é.x=1~_.".toList before ch := by
  have h : Query.normalize .userQuery "_é.x=1~_." = .error (.unexpected .query "_" ⟨8, 9⟩) := by
    decide +kernel
  refine ⟨h, ?_⟩
  obtain ⟨name, hname⟩ | hpoints := (Error.pointsAt_earliest .userQuery "_é.x=1~_.").2 _ h
  · cases hname
  · exact hpoints

end Registrar
