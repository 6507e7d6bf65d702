import Mathlib.Data.List.Chain
import Registrar.Proofs.Language.Names

/-!
# Scanning a text to its end and beyond

A lexer can be asked for any number of lexemes, and the lexer of queries can be told at any time
that a clause starts. Whatever it is told, it cuts the text into pieces that lie side by side:

```
text      orgName =é~isAdmin
spans     0..7  7..8  8..11  11..12  12..19  19..19  19..19  …
```

Here a clause starts behind the tilde; `é` takes two bytes, and from the end of the text on every
scan gives the same empty lexeme.

* `Partitions` — what a list of lexemes has to do with the text that it was scanned from.
* `Cutting.TakesRuns.partitions` — a cutting that takes whole runs partitions each text, whatever is
  expected in front of each lexeme.
* `Lexeme.scans_partition` — the lexers of both languages.
-/

set_option autoImplicit false

namespace Registrar

open Text (Cursor Span byteLength isBlank)

/-! ## Partitions of a text -/

/-- **Whether a span is the place of characters in a text**: it starts and stops between
characters, and those are what stands there. -/
def Text.Span.Covers (s : Span) (text chars : List Char) : Prop :=
  ∃ before behind, text = before ++ (chars ++ behind) ∧
    s = ⟨byteLength before, byteLength (before ++ chars)⟩

/-- **Whether lexemes are a text cut into pieces**, up to its end or as far as they go. -/
structure Partitions (text : List Char) (ls : List Lexeme) : Prop where
  /-- Each lexeme consists of the characters at its place. -/
  covers : ∀ l ∈ ls, l.span.Covers text l.chars
  /-- The first starts where the text starts. -/
  start : ∀ l ∈ ls.head?, l.span.start = 0
  /-- Each starts where the one before it stops. -/
  consecutive : ls.IsChain fun l next => l.span.stop = next.span.start
  /-- None is empty before the end of the text. -/
  filled : ∀ l ∈ ls, l.token ≠ .endOfInput → l.chars ≠ []
  /-- At the end there is nothing left, … -/
  ended : ∀ l ∈ ls, l.token = .endOfInput →
    l.chars = [] ∧ l.span = ⟨byteLength text, byteLength text⟩
  /-- … and nothing comes behind it. -/
  final : ls.IsChain fun l next => l.token = .endOfInput → next.token = .endOfInput
  /-- There are no more lexemes before the end than characters. -/
  bounded : ∀ l ∈ ls.drop text.length, l.token = .endOfInput
  /-- As many lexemes as there are characters are all of the text. -/
  complete : text.length ≤ ls.length → ls.flatMap (·.chars) = text
  /-- No run of blanks and no name is cut in two. -/
  maximal : ls.IsChain fun l next =>
    ¬(l.token = .blank ∧ next.token = .blank) ∧ ¬(l.token = .name ∧ next.token = .name)

/-! ## Cutting with anything expected -/

namespace Cutting

variable {μ : Type} (k : Cutting μ)

/-- The lexemes cut off a text one after the other. `expected` says what is expected in front of
each of them, `offset` where the text starts. -/
def lexemesExpecting (expected : List μ) (offset : Nat) (cs : List Char) : List Lexeme :=
  match expected with
  | [] => []
  | m :: expected =>
      let c := k.first m cs
      c.lexeme.shift offset ::
        lexemesExpecting expected (offset + byteLength c.chars) (cs.drop c.chars.length)

/-- **Whether a cutting takes whole runs**: behind a run of blanks or a name no other one starts,
whatever is expected there. At the end of a text there is nothing to take. -/
structure TakesRuns : Prop where
  chars_nil : ∀ m, (k.first m []).chars = []
  not_again : ∀ t ∈ [Token.blank, .name], ∀ m m' cs, (k.first m cs).token = t →
    (k.first m' (cs.drop (k.first m cs).chars.length)).token ≠ t

theorem length_lexemesExpecting (expected : List μ) (offset : Nat) (cs : List Char) :
    (k.lexemesExpecting expected offset cs).length = expected.length := by
  induction expected generalizing offset cs with
  | nil => rfl
  | cons m expected ih =>
      show (lexemesExpecting k expected _ _).length + 1 = expected.length + 1
      rw [ih]

theorem start_of_mem_head? {expected : List μ} {offset : Nat} {cs : List Char} {l : Lexeme}
    (hl : l ∈ (k.lexemesExpecting expected offset cs).head?) : l.span.start = offset := by
  cases expected with
  | nil => cases hl
  | cons m expected =>
      cases hl
      show 0 + offset = offset
      omega

theorem consecutive_lexemesExpecting (expected : List μ) (offset : Nat) (cs : List Char) :
    (k.lexemesExpecting expected offset cs).IsChain
      fun l next => l.span.stop = next.span.start := by
  induction expected generalizing offset cs with
  | nil => exact .nil
  | cons m expected ih =>
      refine List.isChain_cons.mpr ⟨fun next hnext => ?_, ih _ _⟩
      rw [k.start_of_mem_head? hnext]
      show byteLength (k.first m cs).chars + offset = offset + byteLength (k.first m cs).chars
      omega

theorem token_eq_endOfInput_iff {m : μ} {cs : List Char} :
    (k.first m cs).token = .endOfInput ↔ cs = [] := by
  cases cs with
  | nil => exact iff_of_true (k.token_nil m) rfl
  | cons ch cs => exact iff_of_false (k.token_cons m ch cs) (List.cons_ne_nil _ _)

variable {k}

theorem TakesRuns.append_drop (h : k.TakesRuns) (m : μ) (cs : List Char) :
    (k.first m cs).chars ++ cs.drop (k.first m cs).chars.length = cs := by
  rw [← List.prefix_iff_eq_append]
  cases cs with
  | nil => simp [h.chars_nil]
  | cons ch cs =>
      obtain ⟨run, hchars, hrun⟩ := k.chars_cons m ch cs
      rw [hchars]
      exact List.cons_prefix_cons.mpr ⟨rfl, hrun⟩

theorem TakesRuns.covers (h : k.TakesRuns) (expected : List μ) (before cs : List Char) :
    ∀ l ∈ k.lexemesExpecting expected (byteLength before) cs,
      l.span.Covers (before ++ cs) l.chars := by
  -- what has been cut off already stands in front of the text
  induction expected generalizing before cs with
  | nil => exact fun l hl => absurd hl List.not_mem_nil
  | cons m expected ih =>
      have hcs := h.append_drop m cs
      intro l hl
      rcases List.mem_cons.mp hl with rfl | hl
      · refine ⟨before, cs.drop (k.first m cs).chars.length, congrArg (before ++ ·) hcs.symm, ?_⟩
        show (⟨0 + _, byteLength (k.first m cs).chars + byteLength before⟩ : Span)
          = ⟨byteLength before, byteLength (before ++ (k.first m cs).chars)⟩
        rw [Text.byteLength_append, Nat.zero_add, Nat.add_comm]
      · have hbehind := ih (before ++ (k.first m cs).chars)
          (cs.drop (k.first m cs).chars.length) l
        rw [Text.byteLength_append, List.append_assoc, hcs] at hbehind
        exact hbehind hl

theorem TakesRuns.chars_eq_nil_iff (h : k.TakesRuns) {m : μ} {cs : List Char} :
    (k.first m cs).chars = [] ↔ cs = [] := by
  cases cs with
  | nil => exact iff_of_true (h.chars_nil m) rfl
  | cons ch cs =>
      obtain ⟨run, hchars, -⟩ := k.chars_cons m ch cs
      rw [hchars]
      exact iff_of_false (List.cons_ne_nil _ _) (List.cons_ne_nil _ _)

/-- A lexeme is empty exactly if it is the end of the text, where it stands. -/
theorem TakesRuns.chars_eq_nil_of_mem (h : k.TakesRuns) {expected : List μ} {offset : Nat}
    {cs : List Char} {l : Lexeme} (hl : l ∈ k.lexemesExpecting expected offset cs) :
    (l.chars = [] ↔ l.token = .endOfInput) ∧
      (l.token = .endOfInput → l.span = ⟨offset + byteLength cs, offset + byteLength cs⟩) := by
  induction expected generalizing offset cs with
  | nil => cases hl
  | cons m expected ih =>
      have hcs := h.append_drop m cs
      rcases List.mem_cons.mp hl with rfl | hl
      · refine ⟨h.chars_eq_nil_iff.trans k.token_eq_endOfInput_iff.symm, fun hend => ?_⟩
        obtain rfl := k.token_eq_endOfInput_iff.mp hend
        show (⟨0 + offset, byteLength (k.first m []).chars + offset⟩ : Span) = _
        rw [h.chars_nil, Text.byteLength_nil, Nat.zero_add, Nat.add_zero]
      · have hlength : byteLength (k.first m cs).chars
            + byteLength (cs.drop (k.first m cs).chars.length) = byteLength cs := by
          rw [← Text.byteLength_append, hcs]
        have hbehind := ih hl
        rw [Nat.add_assoc, hlength] at hbehind
        exact hbehind

theorem final_lexemesExpecting (expected : List μ) (offset : Nat) (cs : List Char) :
    (k.lexemesExpecting expected offset cs).IsChain
      fun l next => l.token = .endOfInput → next.token = .endOfInput := by
  induction expected generalizing offset cs with
  | nil => exact .nil
  | cons m expected ih =>
      refine List.isChain_cons.mpr ⟨fun next hnext hend => ?_, ih _ _⟩
      obtain rfl := k.token_eq_endOfInput_iff.mp hend
      cases expected with
      | nil => cases hnext
      | cons m' expected =>
          cases hnext
          show (k.first m' (List.drop _ [])).token = .endOfInput
          rw [List.drop_nil, k.token_nil]

/-- Each lexeme before the end takes a character at least. -/
theorem token_of_mem_drop {expected : List μ} {offset : Nat} {cs : List Char} {l : Lexeme}
    (hl : l ∈ (k.lexemesExpecting expected offset cs).drop cs.length) :
    l.token = .endOfInput := by
  induction expected generalizing offset cs with
  | nil =>
      rw [lexemesExpecting, List.drop_nil] at hl
      cases hl
  | cons m expected ih =>
      cases cs with
      | nil =>
          rcases List.mem_cons.mp hl with rfl | hl
          · exact k.token_nil m
          · rw [List.drop_nil] at hl
            have hbehind : l ∈ (k.lexemesExpecting expected _ []).drop ([] : List Char).length := hl
            exact ih hbehind
      | cons ch cs =>
          -- of the lexemes behind the first, those behind the characters left are at the end
          have hlt := k.length_drop_lt m ch cs
          refine ih (List.drop_subset_drop_left _ (Nat.le_of_lt_succ ?_) hl)
          exact hlt

theorem TakesRuns.flatMap_chars (h : k.TakesRuns) {expected : List μ} (offset : Nat)
    {cs : List Char} (hle : cs.length ≤ expected.length) :
    (k.lexemesExpecting expected offset cs).flatMap (·.chars) = cs := by
  induction expected generalizing offset cs with
  | nil =>
      rw [List.length_eq_zero_iff.mp (Nat.le_zero.mp hle)]
      rfl
  | cons m expected ih =>
      have hlength : (cs.drop (k.first m cs).chars.length).length ≤ expected.length := by
        cases cs with
        | nil =>
            rw [List.drop_nil]
            exact Nat.zero_le _
        | cons ch cs =>
            have hlt := k.length_drop_lt m ch cs
            have hle' : (ch :: cs).length ≤ expected.length + 1 := hle
            omega
      show (k.first m cs).chars ++ (k.lexemesExpecting expected _ _).flatMap (·.chars) = cs
      rw [ih _ hlength, h.append_drop]

theorem TakesRuns.maximal (h : k.TakesRuns) (expected : List μ) (offset : Nat) (cs : List Char) :
    (k.lexemesExpecting expected offset cs).IsChain fun l next =>
      ¬(l.token = .blank ∧ next.token = .blank) ∧ ¬(l.token = .name ∧ next.token = .name) := by
  induction expected generalizing offset cs with
  | nil => exact .nil
  | cons m expected ih =>
      refine List.isChain_cons.mpr ⟨fun next hnext => ?_, ih _ _⟩
      cases expected with
      | nil => cases hnext
      | cons m' expected =>
          cases hnext
          have hblank := h.not_again .blank (by decide) m m' cs
          have hname := h.not_again .name (by decide) m m' cs
          exact ⟨fun ⟨hl, hnext⟩ => hblank hl hnext, fun ⟨hl, hnext⟩ => hname hl hnext⟩

/-- **A cutting that takes whole runs partitions each text**, whatever is expected in front of each
lexeme. -/
theorem TakesRuns.partitions (h : k.TakesRuns) (expected : List μ) (text : List Char) :
    Partitions text (k.lexemesExpecting expected 0 text) where
  covers := h.covers expected [] text
  start l hl := k.start_of_mem_head? hl
  consecutive := k.consecutive_lexemesExpecting expected 0 text
  filled l hl hne := fun hnil => hne ((h.chars_eq_nil_of_mem hl).1.mp hnil)
  ended l hl hend := by
    obtain ⟨hnil, hspan⟩ := h.chars_eq_nil_of_mem hl
    rw [Nat.zero_add] at hspan
    exact ⟨hnil.mpr hend, hspan hend⟩
  final := final_lexemesExpecting expected 0 text
  bounded l hl := token_of_mem_drop hl
  complete hle := h.flatMap_chars 0 (by rwa [k.length_lexemesExpecting] at hle)
  maximal := h.maximal expected 0 text

/-! ## Runs -/

theorem not_of_dropWhile_eq_cons {p : Char → Bool} {cs rest : List Char} {ch : Char}
    (h : cs.dropWhile p = ch :: rest) : p ch = false := by
  have hhead := List.head?_dropWhile_not p cs
  rw [h] at hhead
  exact hhead

/-- **Behind a run no other one starts**, if a run goes on with any character that starts one. -/
theorem token_drop_ne_of_run {t : Token} (ht : t ≠ .endOfInput) {starts continues : Char → Bool}
    (hsub : ∀ ch, starts ch = true → continues ch = true)
    (hrun : ∀ m ch cs, (k.first m (ch :: cs)).token = t →
      starts ch = true ∧ (k.first m (ch :: cs)).chars = ch :: cs.takeWhile continues)
    (m m' : μ) (cs : List Char) (h : (k.first m cs).token = t) :
    (k.first m' (cs.drop (k.first m cs).chars.length)).token ≠ t := by
  cases cs with
  | nil =>
      rw [k.token_nil] at h
      exact absurd h.symm ht
  | cons ch cs =>
      obtain ⟨-, hchars⟩ := hrun m ch cs h
      rw [hchars, List.length_cons, List.drop_succ_cons, Cursor.drop_length_takeWhile]
      cases hrest : cs.dropWhile continues with
      | nil =>
          rw [k.token_nil]
          exact ht.symm
      | cons next rest =>
          intro hnext
          obtain ⟨hstarts, -⟩ := hrun m' next rest hnext
          -- the run ended in front of `next`, which could have continued it
          have hstop := not_of_dropWhile_eq_cons hrest
          rw [hsub next hstarts] at hstop
          cases hstop

end Cutting

/-! ## The lexers of both languages -/

namespace Projection

theorem run_of_blank {ch : Char} {cs : List Char} (h : (first (ch :: cs)).1 = .blank) :
    isBlank ch = true ∧ (first (ch :: cs)).2 = ch :: cs.takeWhile isBlank := by
  by_cases hb : isBlank ch = true
  · exact ⟨hb, by rw [first, if_pos hb]⟩
  · have hsymbol := symbol_ne (t := .blank) (by decide) ch
    rw [first, if_neg hb] at h
    split at h
    · cases h
    · split at h
      · cases h
      · exact absurd h hsymbol

theorem run_of_name {ch : Char} {cs : List Char} (h : (first (ch :: cs)).1 = .name) :
    Token.startsName ch = true ∧
      (first (ch :: cs)).2 = ch :: cs.takeWhile Token.continuesName := by
  have hfirst : first (ch :: cs) = (.name, (first (ch :: cs)).2) := Prod.ext h rfl
  obtain ⟨-, -, hstarts, hchars⟩ := first_cons_eq_name_iff.mp hfirst
  exact ⟨hstarts, hchars⟩

/-- **The lexer of projections takes whole runs.** -/
theorem takesRuns_cutting : cutting.TakesRuns where
  chars_nil _ := rfl
  not_again t ht := by
    rcases List.mem_pair.mp ht with rfl | rfl
    · exact cutting.token_drop_ne_of_run (by decide) (fun _ h => h) fun _ _ _ => run_of_blank
    · exact cutting.token_drop_ne_of_run (by decide) (fun _ => continuesName_of_startsName)
        fun _ _ _ => run_of_name

/-- The lexemes of a number of scans, and the cursor behind them. -/
def scans : Nat → Cursor → List Lexeme × Cursor
  | 0, c => ([], c)
  | n + 1, c =>
      let (l, c) := scan c
      let (ls, c) := scans n c
      (l :: ls, c)

end Projection

namespace Query

theorem run_of_blank {m : Mode} {ch : Char} {cs : List Char}
    (h : (first m (ch :: cs)).token = .blank) :
    isBlank ch = true ∧ (first m (ch :: cs)).chars = ch :: cs.takeWhile isBlank := by
  by_cases ht : ch = '~'
  · rw [first, if_pos ht] at h
    cases h
  · by_cases hb : isBlank ch = true
    · exact ⟨hb, by rw [first, if_neg ht, if_pos hb]⟩
    · rw [first, if_neg ht, if_neg hb] at h
      cases m with
      | name =>
          rw [firstVisible] at h
          split at h
          · cases h
          · split at h
            · cases h
            · exact absurd h (ofSymbol?_getD_ne (by decide) ch)
      | operator => cases h
      | value => cases h

theorem run_of_name {m : Mode} {ch : Char} {cs : List Char}
    (h : (first m (ch :: cs)).token = .name) :
    Token.startsName ch = true ∧
      (first m (ch :: cs)).chars = ch :: cs.takeWhile continuesDotted := by
  rw [first] at h ⊢
  split at h
  · cases h
  · rename_i ht
    split at h
    · cases h
    · rename_i hb
      rw [if_neg ht, if_neg hb]
      cases m with
      | name =>
          rw [firstVisible] at h ⊢
          split at h
          · cases h
          · rename_i hu
            split at h
            · rename_i hs
              rw [if_neg hu, if_pos hs]
              exact ⟨hs, rfl⟩
            · exact absurd h (ofSymbol?_getD_ne (by decide) ch)
      | operator => cases h
      | value => cases h

theorem continuesDotted_of_startsName {ch : Char} (h : Token.startsName ch = true) :
    continuesDotted ch = true := by
  rw [continuesDotted, Projection.continuesName_of_startsName h, Bool.true_or]

/-- **The lexer of queries takes whole runs**, whatever it expects. -/
theorem takesRuns_cutting : cutting.TakesRuns where
  chars_nil _ := rfl
  not_again t ht := by
    rcases List.mem_pair.mp ht with rfl | rfl
    · exact cutting.token_drop_ne_of_run (by decide) (fun _ h => h) fun _ _ _ => run_of_blank
    · exact cutting.token_drop_ne_of_run (by decide) (fun _ => continuesDotted_of_startsName)
        fun _ _ _ => run_of_name

/-- A call on the lexer of queries. -/
inductive Call where
  | scan
  | reset
deriving DecidableEq, Repr

/-- The lexemes that calls on a lexer give, and the lexer behind them. -/
def Lexer.perform (l : Lexer) : List Call → List Lexeme × Lexer
  | [] => ([], l)
  | .reset :: calls => l.reset.perform calls
  | .scan :: calls =>
      let (lexeme, l) := scan l
      let (ls, l) := l.perform calls
      (lexeme :: ls, l)

end Query

namespace Projection

theorem scans_eq (n : Nat) (c : Cursor) :
    (scans n c).1 = cutting.lexemesExpecting (List.replicate n ()) c.offset c.rest := by
  induction n generalizing c with
  | zero => rfl
  | succ n ih =>
      obtain ⟨hlexeme, hoffset, hrest, -⟩ := isScannedBy_cutting.scan_eq c
      have hoffset' : (scan c).2.offset
          = c.offset + byteLength (cutting.first () c.rest).chars := hoffset
      have hrest' : (scan c).2.rest
          = c.rest.drop (cutting.first () c.rest).chars.length := hrest
      show (scan c).1 :: (scans n (scan c).2).1 = _
      rw [ih, hoffset', hrest', hlexeme]
      rfl

end Projection

namespace Query

theorem cursor_scanClause (l : Lexer) : (scanClause l).2.cursor = (scan l).2.cursor := by
  show (if (scan l).1.token = .tilde then (scan l).2.reset else (scan l).2).cursor = _
  split
  · rfl
  · rfl

/-- What scans give is cut off the text, with something expected in front of each lexeme. -/
theorem exists_perform_eq (calls : List Call) (l : Lexer) :
    ∃ expected : List Mode, expected.length = calls.count .scan ∧
      (l.perform calls).1 = cutting.lexemesExpecting expected l.cursor.offset l.cursor.rest := by
  induction calls generalizing l with
  | nil => exact ⟨[], rfl, rfl⟩
  | cons call calls ih =>
      cases call with
      | reset =>
          obtain ⟨expected, hcount, hperform⟩ := ih l.reset
          exact ⟨expected, by rw [hcount, List.count_cons_of_ne (by decide)], hperform⟩
      | scan =>
          obtain ⟨expected, hcount, hperform⟩ := ih (scan l).2
          obtain ⟨hlexeme, hoffset, hrest, -⟩ := isScannedBy_cutting.scan_eq l
          rw [cursor_scanClause] at hoffset hrest
          refine ⟨l.mode :: expected, ?_, ?_⟩
          · rw [List.length_cons, hcount, List.count_cons_self]
          · show (scan l).1 :: ((scan l).2.perform calls).1 = _
            rw [hperform, hoffset, hrest]
            exact congrArg (· :: _) hlexeme

end Query

/-- **The lexers of both languages partition each text.** This holds for any number of scans, and
for queries wherever the lexer is told that a clause starts. Wherever the scans lead, the next one
takes no read back in vain. -/
theorem Lexeme.scans_partition (input : List Char) :
    (∀ n, (Projection.scans n (.atStart input)).1.length = n ∧
      Partitions input (Projection.scans n (.atStart input)).1 ∧
      (Projection.scan? (Projection.scans n (.atStart input)).2).isSome) ∧
    (∀ calls, ((Query.Lexer.atStart input).perform calls).1.length = calls.count .scan ∧
      Partitions input ((Query.Lexer.atStart input).perform calls).1 ∧
      (Query.scan? ((Query.Lexer.atStart input).perform calls).2).isSome) := by
  refine ⟨fun n => ?_, fun calls => ?_⟩
  · have hscans := Projection.scans_eq n (.atStart input)
    refine ⟨?_, ?_, Projection.scan?_isSome _⟩
    · rw [hscans, Cutting.length_lexemesExpecting, List.length_replicate]
    · rw [hscans]
      exact Projection.takesRuns_cutting.partitions (List.replicate n ()) input
  · obtain ⟨expected, hcount, hperform⟩ :=
      Query.exists_perform_eq calls (Query.Lexer.atStart input)
    refine ⟨?_, ?_, Query.scan?_isSome _⟩
    · rw [hperform, Cutting.length_lexemesExpecting, hcount]
    · rw [hperform]
      exact Query.takesRuns_cutting.partitions expected input

end Registrar
