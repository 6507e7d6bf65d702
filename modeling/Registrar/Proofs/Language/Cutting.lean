import Registrar.Language.ProjectionLexer
import Registrar.Language.QueryLexer

/-!
# Cutting texts into lexemes

Both lexers read a text from left to right, and what they read next depends on the rest of the
text and on what they expect there. A `Cutting` is that dependence alone, without cursor and
offsets; `Cutting.lexemes` cuts a text by it:

```
lexemes expected text  =  first lexeme :: lexemes (behind it), moved up by the length of the first
```

* `Cutting.lexemesFrom_eq` — a lexer that scans by a cutting gives the lexemes of the cutting,
  moved up by the offset that it starts from.
* `Projection.lexemes_eq`, `Query.lexemes_eq` — the lexers of both languages.
* `Cutting.lexemes_append_tilde` — a cutting that looks no further than a tilde.
-/

set_option autoImplicit false

namespace Registrar

open Text (Cursor byteLength)

/-! ## Cuttings -/

/-- What is cut off a text: a lexeme, and what is expected behind it. -/
structure Cut (μ : Type) where
  token : Token
  chars : List Char
  expected : μ

/-- **A way of cutting texts into lexemes.** What is cut off a text that has not ended is its start
up to the first character at least. -/
structure Cutting (μ : Type) where
  first : μ → List Char → Cut μ
  token_nil : ∀ m, (first m []).token = .endOfInput
  token_cons : ∀ m ch cs, (first m (ch :: cs)).token ≠ .endOfInput
  chars_cons : ∀ m ch cs, ∃ run, (first m (ch :: cs)).chars = ch :: run ∧ run <+: cs

namespace Lexeme

@[simp] theorem token_shift (l : Lexeme) (n : Nat) : (l.shift n).token = l.token := rfl

@[simp] theorem chars_shift (l : Lexeme) (n : Nat) : (l.shift n).chars = l.chars := rfl

@[simp] theorem literal_shift (l : Lexeme) (n : Nat) : (l.shift n).literal = l.literal := rfl

theorem shift_shift (l : Lexeme) (m n : Nat) : (l.shift m).shift n = l.shift (m + n) := by
  simp [shift, Text.Span.shift_shift]

@[simp] theorem shift_zero (l : Lexeme) : l.shift 0 = l := rfl

theorem map_shift_shift (ls : List Lexeme) (m n : Nat) :
    (ls.map (·.shift m)).map (·.shift n) = ls.map (·.shift (m + n)) := by
  simp [shift_shift]

end Lexeme

/-- What is cut off a text, as a lexeme at its start. -/
def Cut.lexeme {μ : Type} (c : Cut μ) : Lexeme := ⟨c.token, c.chars, 0, byteLength c.chars⟩

@[simp] theorem Cut.token_lexeme {μ : Type} (c : Cut μ) : c.lexeme.token = c.token := rfl

namespace Cutting

variable {μ : Type}

theorem length_drop_lt (k : Cutting μ) (m : μ) (ch : Char) (cs : List Char) :
    ((ch :: cs).drop (k.first m (ch :: cs)).chars.length).length < (ch :: cs).length := by
  obtain ⟨run, hrun, -⟩ := k.chars_cons m ch cs
  rw [hrun, List.length_drop, List.length_cons, List.length_cons]
  omega

/-- **The lexemes of a text** by a cutting. -/
def lexemes (k : Cutting μ) (m : μ) : List Char → List Lexeme
  | [] => []
  | ch :: cs =>
      let c := k.first m (ch :: cs)
      c.lexeme ::
        (k.lexemes c.expected ((ch :: cs).drop c.chars.length)).map
          (·.shift (byteLength c.chars))
termination_by cs => cs.length
decreasing_by exact k.length_drop_lt m ch cs

variable (k : Cutting μ)

@[simp] theorem lexemes_nil (m : μ) : k.lexemes m [] = [] := by
  rw [lexemes]

theorem lexemes_of_first {m : μ} {cs rest : List Char} {c : Cut μ} (h : k.first m cs = c)
    (hne : cs ≠ []) (hcs : cs = c.chars ++ rest) :
    k.lexemes m cs
      = c.lexeme :: (k.lexemes c.expected rest).map (·.shift (byteLength c.chars)) := by
  obtain ⟨ch, tail, rfl⟩ := List.exists_cons_of_ne_nil hne
  have hdrop : (ch :: tail).drop c.chars.length = rest := by rw [hcs, List.drop_left]
  rw [lexemes]
  simp only [h, hdrop]

theorem exists_rest (m : μ) (ch : Char) (cs : List Char) :
    ∃ rest, ch :: cs = (k.first m (ch :: cs)).chars ++ rest := by
  obtain ⟨run, hrun, rest, rfl⟩ := k.chars_cons m ch cs
  exact ⟨rest, by rw [hrun, List.cons_append]⟩

/-- **What holds of everything that can be cut off holds of every lexeme.** -/
theorem forall_mem_lexemes {P : Token → List Char → Prop}
    (h : ∀ m ch cs, P (k.first m (ch :: cs)).token (k.first m (ch :: cs)).chars) (m : μ)
    (cs : List Char) : ∀ l ∈ k.lexemes m cs, P l.token l.chars := by
  induction m, cs using lexemes.induct k with
  | case1 m => simp
  | case2 m ch cs c ih =>
      intro l hl
      rw [lexemes] at hl
      rcases List.mem_cons.mp hl with rfl | hl
      · exact h m ch cs
      · obtain ⟨l', hl', rfl⟩ := List.mem_map.mp hl
        exact ih l' hl'

/-! ## Lexers that scan by a cutting -/

/-- Whether a lexer reads what a cutting cuts off. `cursor` is its place in the text and `expects`
what it expects there. -/
def IsScannedBy {σ : Type} (scan : σ → Lexeme × σ) (cursor : σ → Cursor) (expects : σ → μ) : Prop :=
  ∀ s, ∃ r : Scan, (scan s).1 = r.lexemeFrom (cursor s) ∧ cursor (scan s).2 = r.cursor ∧
    expects (scan s).2 = (k.first (expects s) (cursor s).rest).expected ∧
    r.token = (k.first (expects s) (cursor s).rest).token ∧
    r.chars = (k.first (expects s) (cursor s).rest).chars ∧
    r.cursor.offset = (cursor s).offset + byteLength r.chars ∧
    r.cursor.rest = (cursor s).rest.drop r.chars.length

theorem IsScannedBy.scan_eq {k : Cutting μ} {σ : Type} {scan : σ → Lexeme × σ}
    {cursor : σ → Cursor} {expects : σ → μ} (h : k.IsScannedBy scan cursor expects) (s : σ) :
    (scan s).1 = (k.first (expects s) (cursor s).rest).lexeme.shift (cursor s).offset ∧
      (cursor (scan s).2).offset
        = (cursor s).offset + byteLength (k.first (expects s) (cursor s).rest).chars ∧
      (cursor (scan s).2).rest
        = (cursor s).rest.drop (k.first (expects s) (cursor s).rest).chars.length ∧
      expects (scan s).2 = (k.first (expects s) (cursor s).rest).expected := by
  obtain ⟨r, hlexeme, hcursor, hexpects, htoken, hchars, hoffset, hrest⟩ := h s
  have hspan : r.lexemeFrom (cursor s)
      = (k.first (expects s) (cursor s).rest).lexeme.shift (cursor s).offset := by
    rw [Scan.lexemeFrom, hoffset, htoken, hchars, Nat.add_comm]
    simp [Cut.lexeme, Lexeme.shift, Text.Span.shift]
  rw [hchars] at hoffset hrest
  rw [hcursor]
  exact ⟨hlexeme.trans hspan, hoffset, hrest, hexpects⟩

/-- **A lexer that scans by a cutting** gives its lexemes, moved up by the offset that the lexer
starts from. -/
theorem lexemesFrom_eq {σ : Type} {scan : σ → Lexeme × σ} {cursor : σ → Cursor} {expects : σ → μ}
    (h : k.IsScannedBy scan cursor expects) {fuel : Nat} {s : σ}
    (hfuel : (cursor s).rest.length ≤ fuel) :
    lexemesFrom scan fuel s
      = (k.lexemes (expects s) (cursor s).rest).map (·.shift (cursor s).offset) := by
  -- each scan leaves less of the text than the fuel that is left
  induction fuel generalizing s with
  | zero =>
      rw [List.length_eq_zero_iff.mp (Nat.le_zero.mp hfuel), lexemes_nil]
      rfl
  | succ fuel ih =>
      obtain ⟨hlexeme, hoffset, hrest, hexpects⟩ := h.scan_eq s
      show (if (scan s).1.token = .endOfInput then []
        else (scan s).1 :: lexemesFrom scan fuel (scan s).2) = _
      rw [hlexeme, Lexeme.token_shift, Cut.token_lexeme]
      cases htext : (cursor s).rest with
      | nil =>
          rw [if_pos (k.token_nil _), lexemes_nil]
          rfl
      | cons ch cs =>
          rw [htext] at hrest hfuel hoffset hexpects
          have hlt := k.length_drop_lt (expects s) ch cs
          have hnext : (cursor (scan s).2).rest.length ≤ fuel := by
            rw [hrest]
            omega
          rw [if_neg (k.token_cons _ ch cs), ih hnext, hexpects, hrest, hoffset, lexemes,
            List.map_cons, Lexeme.map_shift_shift, Nat.add_comm]

/-! ## Texts with tildes -/

/-- Whether a cutting looks no further than a tilde, behind which it expects `start`. -/
structure EndsAtTilde (start : μ) : Prop where
  first_append : ∀ m ch cs rest, k.first m (ch :: (cs ++ '~' :: rest)) = k.first m (ch :: cs)
  first_tilde : ∀ m rest, k.first m ('~' :: rest) = ⟨.tilde, ['~'], start⟩

/-- **What stands behind a tilde is cut by itself**, and so is what stands in front of it. -/
theorem lexemes_append_tilde {k : Cutting μ} {start : μ} (h : k.EndsAtTilde start) {m : μ}
    {piece : List Char} (hp : '~' ∉ piece) (rest : List Char) :
    k.lexemes m (piece ++ '~' :: rest)
      = k.lexemes m piece ++ (Cut.mk .tilde ['~'] start).lexeme.shift (byteLength piece) ::
          (k.lexemes start rest).map (·.shift (byteLength piece + 1)) := by
  -- along the lexemes of the piece
  induction m, piece using lexemes.induct k with
  | case1 m =>
      rw [List.nil_append, k.lexemes_of_first (h.first_tilde m rest) (List.cons_ne_nil _ _) rfl,
        lexemes_nil]
      rfl
  | case2 m ch cs c ih =>
      obtain ⟨left, hleft⟩ := k.exists_rest m ch cs
      have hdrop : (ch :: cs).drop c.chars.length = left := by
        rw [hleft]
        exact List.drop_left
      rw [hdrop] at ih
      have hl : '~' ∉ left := fun hm => hp (hleft ▸ List.mem_append_right _ hm)
      have hfirst := h.first_append m ch cs rest
      have hcs : ch :: (cs ++ '~' :: rest) = c.chars ++ (left ++ '~' :: rest) := by
        rw [← List.append_assoc, ← hleft, List.cons_append]
      have hlen : byteLength (ch :: cs) = byteLength left + byteLength c.chars := by
        rw [hleft, Text.byteLength_append, Nat.add_comm]
      rw [List.cons_append, k.lexemes_of_first hfirst (List.cons_ne_nil _ _) hcs, ih hl,
        k.lexemes_of_first rfl (List.cons_ne_nil _ _) hleft, hlen]
      simp only [List.map_append, List.map_cons, Lexeme.map_shift_shift, Lexeme.shift_shift,
        List.cons_append, Nat.add_right_comm]
      rfl

end Cutting

/-! ## The lexers of both languages -/

theorem takeWhile_append_stop {p : Char → Bool} {stop : Char} (h : p stop = false)
    (cs rest : List Char) : (cs ++ stop :: rest).takeWhile p = cs.takeWhile p := by
  induction cs with
  | nil => rw [List.nil_append, List.takeWhile_cons_of_neg (by rw [h]; decide)]; rfl
  | cons c cs ih =>
      rw [List.cons_append, List.takeWhile_cons, List.takeWhile_cons, ih]

theorem continuesName_tilde : Token.continuesName '~' = false := by decide +kernel

theorem isBlank_tilde : Text.isBlank '~' = false := by decide

theorem loneUnderscore_append_tilde (ch : Char) (cs rest : List Char) :
    Scan.loneUnderscore ch (cs ++ '~' :: rest) = Scan.loneUnderscore ch cs := by
  cases cs with
  | nil => simp [Scan.loneUnderscore, continuesName_tilde]
  | cons c cs => rfl

namespace Projection

theorem symbol_ne {t : Token} (h : t ∈ [.endOfInput, .blank, .name]) (ch : Char) :
    symbol ch ≠ t := by
  rintro rfl
  unfold symbol at h
  split at h <;> exact absurd h (by decide)

theorem first_cons (ch : Char) (cs : List Char) :
    (first (ch :: cs)).1 ≠ .endOfInput ∧ ∃ run, (first (ch :: cs)).2 = ch :: run ∧ run <+: cs := by
  rw [first]
  split
  · exact ⟨Token.noConfusion, _, rfl, List.takeWhile_prefix _⟩
  · split
    · exact ⟨Token.noConfusion, _, rfl, List.nil_prefix⟩
    · split
      · exact ⟨Token.noConfusion, _, rfl, List.takeWhile_prefix _⟩
      · exact ⟨symbol_ne (by decide) ch, _, rfl, List.nil_prefix⟩

/-- **How projections are cut into lexemes.** Nothing is remembered between them. -/
def cutting : Cutting Unit where
  first _ cs := ⟨(first cs).1, (first cs).2, ()⟩
  token_nil _ := rfl
  token_cons _ ch cs := (first_cons ch cs).1
  chars_cons _ ch cs := (first_cons ch cs).2

theorem isScannedBy_cutting : cutting.IsScannedBy scan id fun _ => () := by
  intro c
  obtain ⟨s, hs, ht, hc, ho, hr⟩ := scan?_eq c
  have hscan : scan c = (s.lexemeFrom c, s.cursor) := by
    unfold scan
    simp only [hs, Option.get_some]
  rw [hscan]
  exact ⟨s, rfl, rfl, rfl, ht, hc, ho, hr⟩

/-- **The lexemes of a projection are those of its cutting.** -/
theorem lexemes_eq (input : List Char) : lexemes input = cutting.lexemes () input := by
  have h := cutting.lexemesFrom_eq isScannedBy_cutting (s := Cursor.atStart input)
    (Nat.le_refl input.length)
  simpa [Cursor.atStart, lexemes] using h

theorem endsAtTilde_cutting : cutting.EndsAtTilde () where
  first_append _ ch cs rest := by
    have hfirst : first (ch :: (cs ++ '~' :: rest)) = first (ch :: cs) := by
      simp only [first, loneUnderscore_append_tilde, takeWhile_append_stop isBlank_tilde,
        takeWhile_append_stop continuesName_tilde]
    show Cut.mk _ _ _ = _
    rw [hfirst]
    rfl
  first_tilde _ rest := by
    have hfirst : first ('~' :: rest) = (.tilde, ['~']) := by
      have hs : Token.startsName '~' = false := by decide +kernel
      simp [first, isBlank_tilde, Scan.loneUnderscore, hs, symbol]
    show Cut.mk _ _ _ = _
    rw [hfirst]

end Projection

namespace Query

theorem ofSymbol?_getD_ne {t : Token} (h : t ∈ [.endOfInput, .blank, .name, .operator])
    (ch : Char) : (Token.ofSymbol? ch).getD .illegal ≠ t := by
  rintro rfl
  unfold Token.ofSymbol? at h
  split at h <;> exact absurd h (by decide)

/-- The first lexeme is a run or a single character. -/
theorem first_cons (m : Mode) (ch : Char) (cs : List Char) :
    (first m (ch :: cs)).token ≠ .endOfInput ∧
      ∃ run, (first m (ch :: cs)).chars = ch :: run ∧ run <+: cs := by
  rw [first]
  split
  · exact ⟨Token.noConfusion, _, rfl, List.nil_prefix⟩
  · split
    · exact ⟨Token.noConfusion, _, rfl, List.takeWhile_prefix _⟩
    · cases m with
      | name =>
          rw [firstVisible]
          split
          · exact ⟨Token.noConfusion, _, rfl, List.nil_prefix⟩
          · split
            · exact ⟨Token.noConfusion, _, rfl, List.takeWhile_prefix _⟩
            · exact ⟨ofSymbol?_getD_ne (by decide) ch, _, rfl, List.nil_prefix⟩
      | operator => exact ⟨Token.noConfusion, _, rfl, List.takeWhile_prefix _⟩
      | value => exact ⟨Token.noConfusion, _, rfl, List.takeWhile_prefix _⟩

/-- **How queries are cut into lexemes.** A clause starts behind each tilde. -/
def cutting : Cutting Mode where
  first m cs :=
    ⟨(first m cs).token, (first m cs).chars,
      if (first m cs).token = .tilde then .name else (first m cs).mode⟩
  token_nil _ := rfl
  token_cons m ch cs := (first_cons m ch cs).1
  chars_cons m ch cs := (first_cons m ch cs).2

theorem isScannedBy_cutting : cutting.IsScannedBy scanClause Lexer.cursor Lexer.mode := by
  intro l
  obtain ⟨s, hs, ht, hc, hm, ho, hr⟩ := scan?_eq l
  have hscan : scan l = (s.1.lexemeFrom l.cursor, ⟨s.1.cursor, s.2⟩) := by
    unfold scan
    simp only [hs, Option.get_some]
  have hclause : scanClause l = (s.1.lexemeFrom l.cursor,
      ⟨s.1.cursor, if s.1.token = .tilde then .name else s.2⟩) := by
    simp only [scanClause, hscan, Scan.lexemeFrom, Lexer.reset]
    split <;> rfl
  rw [hclause]
  refine ⟨s.1, rfl, rfl, ?_, ht, hc, ho, hr⟩
  rw [ht, hm]
  rfl

/-- **The lexemes of a query are those of its cutting.** -/
theorem lexemes_eq (input : List Char) : lexemes input = cutting.lexemes .name input := by
  have h := cutting.lexemesFrom_eq isScannedBy_cutting (s := Lexer.atStart input)
    (Nat.le_refl input.length)
  simpa [Lexer.atStart, Cursor.atStart, lexemes] using h

/-- A query is cut at its tildes, behind which a clause starts. -/
theorem endsAtTilde_cutting : cutting.EndsAtTilde .name where
  first_append m ch cs rest := by
    have hfirst : first m (ch :: (cs ++ '~' :: rest)) = first m (ch :: cs) := by
      have hdotted : continuesDotted '~' = false := by decide +kernel
      have hoperator : Token.isOperator '~' = false := by decide
      -- no run takes a tilde in, so what stands behind one is never looked at
      simp only [first, takeWhile_append_stop isBlank_tilde]
      cases m with
      | name =>
          simp only [firstVisible, loneUnderscore_append_tilde, takeWhile_append_stop hdotted]
      | operator => simp only [firstVisible, takeWhile_append_stop hoperator]
      | value =>
          have hrun : (cs ++ '~' :: rest).takeWhile (· != '~') = cs.takeWhile (· != '~') :=
            takeWhile_append_stop (by decide) cs rest
          simp only [firstVisible, hrun]
    show Cut.mk _ _ _ = Cut.mk _ _ _
    rw [hfirst]
  first_tilde m rest := by
    have hfirst : first m ('~' :: rest) = ⟨.tilde, ['~'], m⟩ := by rw [first, if_pos rfl]
    show Cut.mk _ _ _ = _
    rw [hfirst, if_pos rfl]

end Query

end Registrar
