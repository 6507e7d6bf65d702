import Registrar.Proofs.Language.Pieces
import Registrar.Proofs.Language.Scanning

/-!
# Resuming after errors

A normalizer that has met an error can be called again. It goes on behind the lexeme that the error
is about, with what it remembers and in the mode that its lexer is in by then:

```
text        orgNme=A~isAdmin:True          query
call 0      orgNme is not recognized       lexer behind the name, where it expects an operator
call 1      "="  "A"  " "  "isAdmin"  ":"  "true"
call 2, …   nothing
```

A `Normalizer` holds the lexemes of its text from the start, so nothing in it is called a mode. A
`Reading` asks its lexer for one lexeme at a time and has a mode, therefore; it gives the same
outcomes, and what a call depends on can be said of it.

* `Scanner.parse_normalizer` — a normalizer and a reading go on alike.
* `Scanner.parse_restart` — a call depends on nothing in front of the cursor.
* `Scanner.rest_of_parse_eq_ok`, `Scanner.exists_offends` — how far a call goes through the text.
* `Normalizer.resumes` — any number of calls, in both languages.
-/

set_option autoImplicit false

namespace Registrar

open Text (Cursor byteLength)

/-- **A lexer with its cutting.** `cursor` is its place in the text, `expects` what it expects
there, and `atStart` the lexer that expects something at the start of a text. -/
structure Scanner (τ μ : Type) where
  cutting : Cutting μ
  scan : τ → Lexeme × τ
  cursor : τ → Cursor
  expects : τ → μ
  atStart : μ → List Char → τ
  isScannedBy : cutting.IsScannedBy scan cursor expects
  takesRuns : cutting.TakesRuns
  cursor_atStart : ∀ m cs, cursor (atStart m cs) = .atStart cs
  expects_atStart : ∀ m cs, expects (atStart m cs) = m

/-- **A text that is being read**: what is remembered so far, and the lexer. -/
structure Reading (σ τ : Type) where
  state : σ
  lexer : τ
deriving Repr

/-- Whether a cursor stands in a text. -/
def Text.Cursor.StandsIn (c : Cursor) (text : List Char) : Prop :=
  ∃ before, text = before ++ c.rest ∧ c.offset = byteLength before

namespace Scanner

variable {σ τ μ : Type} (k : Scanner τ μ)

def rest (t : τ) : List Char := (k.cursor t).rest

def offset (t : τ) : Nat := (k.cursor t).offset

/-! ## One scan -/

theorem token_scan_eq_endOfInput_iff {t : τ} :
    (k.scan t).1.token = .endOfInput ↔ k.rest t = [] := by
  obtain ⟨hlexeme, -⟩ := k.isScannedBy.scan_eq t
  rw [hlexeme]
  exact k.cutting.token_eq_endOfInput_iff

/-- What a scan takes off the text, and where that stands. -/
theorem scan_spec (t : τ) :
    k.rest t = (k.scan t).1.chars ++ k.rest (k.scan t).2 ∧
      k.offset (k.scan t).2 = k.offset t + byteLength (k.scan t).1.chars ∧
      (k.scan t).1.span = ⟨k.offset t, k.offset (k.scan t).2⟩ := by
  obtain ⟨hlexeme, hoffset, hrest, -⟩ := k.isScannedBy.scan_eq t
  have hchars : (k.scan t).1.chars = (k.cutting.first (k.expects t) (k.rest t)).chars := by
    rw [hlexeme]
    rfl
  have hoffset' : k.offset (k.scan t).2 = k.offset t + byteLength (k.scan t).1.chars := by
    rw [hchars]
    exact hoffset
  have hrest' : k.rest (k.scan t).2 = (k.rest t).drop (k.scan t).1.chars.length := by
    rw [hchars]
    exact hrest
  refine ⟨?_, hoffset', ?_⟩
  · rw [hrest', hchars]
    exact (k.takesRuns.append_drop _ _).symm
  · rw [hoffset', hchars, Nat.add_comm, hlexeme]
    show (⟨0 + k.offset t, _⟩ : Text.Span) = _
    rw [Nat.zero_add]
    rfl

theorem chars_scan_ne_nil {t : τ} (h : (k.scan t).1.token ≠ .endOfInput) :
    (k.scan t).1.chars ≠ [] := by
  obtain ⟨hlexeme, -⟩ := k.isScannedBy.scan_eq t
  intro hnil
  rw [hlexeme] at hnil
  exact h (k.token_scan_eq_endOfInput_iff.mpr (k.takesRuns.chars_eq_nil_iff.mp hnil))

theorem rest_scan_of_end {t : τ} (h : (k.scan t).1.token = .endOfInput) :
    k.rest (k.scan t).2 = [] := by
  obtain ⟨hrest, -⟩ := k.scan_spec t
  rw [k.token_scan_eq_endOfInput_iff.mp h] at hrest
  exact (List.append_eq_nil_iff.mp hrest.symm).2

theorem length_rest_scan_lt {t : τ} (h : (k.scan t).1.token ≠ .endOfInput) :
    (k.rest (k.scan t).2).length < (k.rest t).length := by
  obtain ⟨hrest, -⟩ := k.scan_spec t
  have hpos := List.length_pos_of_ne_nil (k.chars_scan_ne_nil h)
  rw [hrest, List.length_append]
  omega

theorem covers_scan {t : τ} {text : List Char} (hin : (k.cursor t).StandsIn text) :
    (k.scan t).1.span.Covers text (k.scan t).1.chars ∧
      (k.cursor (k.scan t).2).StandsIn text := by
  obtain ⟨before, htext, hbefore⟩ := hin
  obtain ⟨hrest, hoffset, hspan⟩ := k.scan_spec t
  have hcut : text = before ++ ((k.scan t).1.chars ++ k.rest (k.scan t).2) := by
    rw [← hrest]
    exact htext
  have hstart : k.offset t = byteLength before := hbefore
  have hstop : k.offset (k.scan t).2 = byteLength (before ++ (k.scan t).1.chars) := by
    rw [Text.byteLength_append, ← hstart]
    exact hoffset
  refine ⟨⟨before, k.rest (k.scan t).2, hcut, ?_⟩, before ++ (k.scan t).1.chars, ?_, hstop⟩
  · rw [hspan, hstart, hstop]
  · rw [List.append_assoc]
    exact hcut

/-! ## One call -/

variable (r : Rules σ)

/-- **The fragments of the text up to its end or the first error**, and the reading behind them. -/
def parse (p : Reading σ τ) : Except Error (List String) × Reading σ τ :=
  if _h : (k.scan p.lexer).1.token = .endOfInput then (.ok [], ⟨p.state, (k.scan p.lexer).2⟩)
  else if (k.scan p.lexer).1.token = .blank then parse ⟨p.state, (k.scan p.lexer).2⟩
  else
    match r.step p.state (k.scan p.lexer).1 with
    | .error e => (.error e, ⟨p.state, (k.scan p.lexer).2⟩)
    | .ok (fragment, state) =>
        match parse ⟨state, (k.scan p.lexer).2⟩ with
        | (fragments, q) => (fragments.map (fragment :: ·), q)
termination_by (k.rest p.lexer).length
decreasing_by all_goals exact k.length_rest_scan_lt _h

def pending (t : τ) : List Lexeme := lexemesFrom k.scan (k.rest t).length t

theorem pending_eq (t : τ) :
    k.pending t = (k.cutting.lexemes (k.expects t) (k.rest t)).map (·.shift (k.offset t)) :=
  k.cutting.lexemesFrom_eq k.isScannedBy (Nat.le_refl _)

theorem pending_of_rest_eq_nil {t : τ} (h : k.rest t = []) : k.pending t = [] := by
  rw [pending, h]
  rfl

theorem pending_of_end {t : τ} (h : (k.scan t).1.token = .endOfInput) : k.pending t = [] :=
  k.pending_of_rest_eq_nil (k.token_scan_eq_endOfInput_iff.mp h)

theorem pending_of_token_ne {t : τ} (h : (k.scan t).1.token ≠ .endOfInput) :
    k.pending t = (k.scan t).1 :: k.pending (k.scan t).2 := by
  have hlt := k.length_rest_scan_lt h
  obtain ⟨fuel, hfuel⟩ := Nat.exists_eq_add_of_lt (Nat.zero_lt_of_lt hlt)
  rw [Nat.zero_add] at hfuel
  have hnext : (k.rest (k.scan t).2).length ≤ fuel := by omega
  rw [pending, hfuel]
  show (if (k.scan t).1.token = .endOfInput then []
    else (k.scan t).1 :: lexemesFrom k.scan fuel (k.scan t).2) = _
  -- how much fuel is left beyond the rest of the text does not matter
  rw [if_neg h, k.cutting.lexemesFrom_eq k.isScannedBy hnext]
  exact congrArg _ (k.pending_eq _).symm

/-- The normalizer with what is remembered and has not been read. -/
def normalizer (p : Reading σ τ) : Normalizer σ := ⟨r, p.state, k.pending p.lexer⟩

section Equations

variable {k r} {p : Reading σ τ}

theorem parse_of_end (h : (k.scan p.lexer).1.token = .endOfInput) :
    k.parse r p = (.ok [], ⟨p.state, (k.scan p.lexer).2⟩) := by
  rw [parse, dif_pos h]

theorem parse_of_blank (h : (k.scan p.lexer).1.token ≠ .endOfInput)
    (hblank : (k.scan p.lexer).1.token = .blank) :
    k.parse r p = k.parse r ⟨p.state, (k.scan p.lexer).2⟩ := by
  rw [parse, dif_neg h, if_pos hblank]

theorem parse_of_error (h : (k.scan p.lexer).1.token ≠ .endOfInput)
    (hblank : (k.scan p.lexer).1.token ≠ .blank) {e : Error}
    (he : r.step p.state (k.scan p.lexer).1 = .error e) :
    k.parse r p = (.error e, ⟨p.state, (k.scan p.lexer).2⟩) := by
  rw [parse, dif_neg h, if_neg hblank, he]

theorem parse_of_ok (h : (k.scan p.lexer).1.token ≠ .endOfInput)
    (hblank : (k.scan p.lexer).1.token ≠ .blank) {f : String} {s : σ}
    (hs : r.step p.state (k.scan p.lexer).1 = .ok (f, s)) :
    k.parse r p = ((k.parse r ⟨s, (k.scan p.lexer).2⟩).1.map (f :: ·),
      (k.parse r ⟨s, (k.scan p.lexer).2⟩).2) := by
  rw [parse, dif_neg h, if_neg hblank, hs]

end Equations

/-- **A normalizer and a reading go on alike.** -/
theorem parse_normalizer (p : Reading σ τ) :
    (k.normalizer r p).parse = ((k.parse r p).1, k.normalizer r (k.parse r p).2) := by
  have hrun : ∀ ls, (⟨r, p.state, ls⟩ : Normalizer σ).parse
      = ((r.run p.state ls).1, ⟨r, (r.run p.state ls).2.1, (r.run p.state ls).2.2⟩) :=
    fun _ => rfl
  rw [normalizer, hrun]
  clear hrun
  induction p using parse.induct k r with
  | case1 p hend =>
      have hnil := k.rest_scan_of_end hend
      rw [k.pending_of_end hend, parse_of_end hend]
      show _ = (Except.ok [], (⟨r, p.state, k.pending (k.scan p.lexer).2⟩ : Normalizer σ))
      rw [k.pending_of_rest_eq_nil hnil]
      rfl
  | case2 p hend hblank ih =>
      rw [k.pending_of_token_ne hend, Rules.run_blank r _ hblank, parse_of_blank hend hblank]
      exact ih
  | case3 p hend hblank e he =>
      rw [k.pending_of_token_ne hend, Rules.run_cons_error r hblank he,
        parse_of_error hend hblank he]
      rfl
  -- the rest of the lexemes is what the lexer has left
  | case4 p hend hblank f s hs _ _ _ ih =>
      obtain ⟨hfragments, hbehind⟩ := Prod.mk.inj ih
      rw [k.pending_of_token_ne hend, Rules.run_cons_ok r hblank hs, parse_of_ok hend hblank hs]
      exact Prod.ext (congrArg (Except.map (f :: ·)) hfragments) hbehind

theorem parse_eq_fragments (p : Reading σ τ) :
    (k.parse r p).1 = r.fragments p.state (k.pending p.lexer) := by
  have hnormalizer := congrArg Prod.fst (k.parse_normalizer r p)
  exact hnormalizer.symm

/-- A reading of nothing but the text that is left: what is remembered and expected stays. -/
def restart (p : Reading σ τ) : Reading σ τ :=
  ⟨p.state, k.atStart (k.expects p.lexer) (k.rest p.lexer)⟩

/-- **A call depends on nothing in front of the cursor.** -/
theorem parse_restart {r : Rules σ} (h : r.IsMovable) (p : Reading σ τ) :
    (k.parse r p).1 = (k.parse r (k.restart p)).1.mapError (·.shift (k.offset p.lexer)) := by
  have hpending : k.pending (k.restart p).lexer
      = k.cutting.lexemes (k.expects p.lexer) (k.rest p.lexer) := by
    rw [pending_eq, rest, offset, restart, k.cursor_atStart, k.expects_atStart]
    exact List.map_id'' Lexeme.shift_zero _
  rw [parse_eq_fragments, parse_eq_fragments, hpending, pending_eq, h.fragments_shift]
  rfl

/-! ## How far a call goes -/

theorem rest_of_parse_eq_ok {p : Reading σ τ} {fs : List String} (h : (k.parse r p).1 = .ok fs) :
    k.rest (k.parse r p).2.lexer = [] := by
  induction p using parse.induct k r generalizing fs with
  | case1 p hend =>
      rw [parse_of_end hend]
      exact k.rest_scan_of_end hend
  | case2 p hend hblank ih =>
      rw [parse_of_blank hend hblank] at h ⊢
      exact ih h
  | case3 p hend hblank e he =>
      rw [parse_of_error hend hblank he] at h
      cases h
  | case4 p hend hblank f s hs _ _ _ ih =>
      rw [parse_of_ok hend hblank hs] at h ⊢
      obtain ⟨gs, hgs, -⟩ := map_eq_ok_iff.mp h
      exact ih hgs

theorem parse_of_rest_eq_nil {p : Reading σ τ} (h : k.rest p.lexer = []) :
    (k.parse r p).1 = .ok [] := by
  rw [parse_of_end (k.token_scan_eq_endOfInput_iff.mpr h)]

/-- **What an error of a call is about**: the last lexeme that has been scanned. `p` is the reading
in front of the call, `q` the one behind it. -/
structure Offends (text : List Char) (p q : Reading σ τ) (e : Error) (l : Lexeme) : Prop where
  /-- It is the last lexeme that has been scanned, … -/
  scanned : ∃ t, k.scan t = (l, q.lexer) ∧ k.offset p.lexer ≤ k.offset t
  /-- … it has no place or no meaning, with what is remembered then, … -/
  refused : r.step q.state l = .error e
  /-- … and it consists of the characters at its place, of which there are some. -/
  covers : l.span.Covers text l.chars
  filled : l.chars ≠ []
  /-- The lexer is left right behind it. -/
  standsIn : (k.cursor q.lexer).StandsIn text
  offset_eq : k.offset q.lexer = l.span.stop
  shorter : (k.rest q.lexer).length < (k.rest p.lexer).length

theorem Offends.of_scan {k : Scanner τ μ} {r : Rules σ} {text : List Char} {p q : Reading σ τ}
    {s : σ} {e : Error} {l : Lexeme} (hne : (k.scan p.lexer).1.token ≠ .endOfInput)
    (h : k.Offends r text ⟨s, (k.scan p.lexer).2⟩ q e l) : k.Offends r text p q e l := by
  obtain ⟨-, hoffset, -⟩ := k.scan_spec p.lexer
  have hlt := k.length_rest_scan_lt hne
  obtain ⟨t, hscan, hle⟩ := h.scanned
  have hle' : k.offset (k.scan p.lexer).2 ≤ k.offset t := hle
  have hshorter : (k.rest q.lexer).length < (k.rest (k.scan p.lexer).2).length := h.shorter
  exact { h with scanned := ⟨t, hscan, by omega⟩, shorter := by omega }

/-- **A call with an error** goes as far as the lexeme that the error is about. -/
theorem exists_offends {p : Reading σ τ} {text : List Char}
    (hin : (k.cursor p.lexer).StandsIn text) {e : Error} (h : (k.parse r p).1 = .error e) :
    ∃ l, k.Offends r text p (k.parse r p).2 e l := by
  induction p using parse.induct k r generalizing e with
  | case1 p hend =>
      rw [parse_of_end hend] at h
      cases h
  | case2 p hend hblank ih =>
      rw [parse_of_blank hend hblank] at h ⊢
      obtain ⟨l, hl⟩ := ih (k.covers_scan hin).2 h
      exact ⟨l, hl.of_scan hend⟩
  | case3 p hend hblank e' he =>
      rw [parse_of_error hend hblank he] at h ⊢
      cases h
      obtain ⟨hcovers, hstandsIn⟩ := k.covers_scan hin
      obtain ⟨-, -, hspan⟩ := k.scan_spec p.lexer
      -- the lexeme that has just been scanned is the one in the way
      exact ⟨(k.scan p.lexer).1, {
        scanned := ⟨p.lexer, rfl, Nat.le_refl _⟩
        refused := he
        covers := hcovers
        filled := k.chars_scan_ne_nil hend
        standsIn := hstandsIn
        offset_eq := by rw [hspan]
        shorter := k.length_rest_scan_lt hend }⟩
  | case4 p hend hblank f s hs _ _ _ ih =>
      rw [parse_of_ok hend hblank hs] at h ⊢
      have herror : (k.parse r ⟨s, (k.scan p.lexer).2⟩).1 = .error e := map_eq_error_iff.mp h
      obtain ⟨l, hl⟩ := ih (k.covers_scan hin).2 herror
      exact ⟨l, hl.of_scan hend⟩

/-! ## Any number of calls -/

/-- The reading behind a number of calls. -/
def after (p : Reading σ τ) : Nat → Reading σ τ
  | 0 => p
  | n + 1 => (k.parse r (after p n)).2

end Scanner

/-- The normalizer behind a number of calls. -/
def Normalizer.after {σ : Type} (w : Normalizer σ) : Nat → Normalizer σ
  | 0 => w
  | n + 1 => (w.after n).parse.2

/-- What the call behind a number of calls gives. -/
def Normalizer.call {σ : Type} (w : Normalizer σ) (n : Nat) : Except Error (List String) :=
  (w.after n).parse.1

namespace Scanner

variable {σ τ μ : Type} (k : Scanner τ μ) (r : Rules σ)

theorem after_normalizer (p : Reading σ τ) (n : Nat) :
    (k.normalizer r p).after n = k.normalizer r (k.after r p n) := by
  induction n with
  | zero => rfl
  | succ n ih => rw [Normalizer.after, ih, parse_normalizer, after]

theorem call_normalizer (p : Reading σ τ) (n : Nat) :
    (k.normalizer r p).call n = (k.parse r (k.after r p n)).1 := by
  rw [Normalizer.call, after_normalizer, parse_normalizer]

/-- A call stays in the text. -/
theorem standsIn_parse {p : Reading σ τ} {text : List Char}
    (hin : (k.cursor p.lexer).StandsIn text) :
    (k.cursor (k.parse r p).2.lexer).StandsIn text := by
  obtain ⟨-, hscan⟩ := k.covers_scan hin
  induction p using parse.induct k r with
  | case1 p hend =>
      rw [parse_of_end hend]
      exact hscan
  | case2 p hend hblank ih =>
      rw [parse_of_blank hend hblank]
      exact ih hscan (k.covers_scan hscan).2
  | case3 p hend hblank e he =>
      rw [parse_of_error hend hblank he]
      exact hscan
  | case4 p hend hblank f s hs _ _ _ ih =>
      rw [parse_of_ok hend hblank hs]
      exact ih hscan (k.covers_scan hscan).2

theorem standsIn_after {p : Reading σ τ} {text : List Char}
    (hin : (k.cursor p.lexer).StandsIn text) (n : Nat) :
    (k.cursor (k.after r p n).lexer).StandsIn text := by
  induction n with
  | zero => exact hin
  | succ n ih => exact k.standsIn_parse r ih

theorem rest_after_of_ok {p : Reading σ τ} {n : Nat} {fs : List String}
    (h : (k.parse r (k.after r p n)).1 = .ok fs) {m : Nat} (hm : n < m) :
    k.rest (k.after r p m).lexer = [] := by
  induction m, hm using Nat.le_induction with
  | base => exact k.rest_of_parse_eq_ok r h
  | succ m _ ih => exact k.rest_of_parse_eq_ok r (k.parse_of_rest_eq_nil r ih)

/-- Each call that fails leaves less of the text, so that not all of them do. -/
theorem exists_parse_eq_ok {p : Reading σ τ} {text : List Char}
    (hin : (k.cursor p.lexer).StandsIn text) :
    ∃ n ≤ (k.rest p.lexer).length, ∃ fs, (k.parse r (k.after r p n)).1 = .ok fs := by
  by_contra hnone
  have hfailed : ∀ n ≤ (k.rest p.lexer).length,
      ∃ e, (k.parse r (k.after r p n)).1 = .error e := by
    intro n hn
    cases hcall : (k.parse r (k.after r p n)).1 with
    | error e => exact ⟨e, rfl⟩
    | ok fs => exact absurd ⟨n, hn, fs, hcall⟩ hnone
  -- the failing calls take a character each
  have hleft : ∀ n ≤ (k.rest p.lexer).length,
      (k.rest (k.after r p n).lexer).length + n ≤ (k.rest p.lexer).length := by
    intro n hn
    induction n with
    | zero => exact Nat.le_refl _
    | succ n ih =>
        obtain ⟨e, he⟩ := hfailed n (Nat.le_of_succ_le hn)
        obtain ⟨l, hl⟩ := k.exists_offends r (k.standsIn_after r hin n) he
        have hbefore := ih (Nat.le_of_succ_le hn)
        have hshorter : (k.rest (k.after r p (n + 1)).lexer).length
            < (k.rest (k.after r p n).lexer).length := hl.shorter
        omega
  -- so none is left for the last of them
  obtain ⟨e, he⟩ := hfailed _ (Nat.le_refl _)
  have hlast := hleft _ (Nat.le_refl _)
  have hnil : k.rest (k.after r p (k.rest p.lexer).length).lexer = [] :=
    List.length_eq_zero_iff.mp (by omega)
  rw [k.parse_of_rest_eq_nil r hnil] at he
  cases he

end Scanner

/-- **Whether calls on a normalizer resume.** The normalizer goes on like a reading of the text, of
which can be said what is expected behind an error. -/
structure Resumes {σ τ μ : Type} (k : Scanner τ μ) (text : List Char) (w : Normalizer σ)
    (p : Reading σ τ) : Prop where
  after_eq : ∀ n, w.after n = k.normalizer w.rules (k.after w.rules p n)
  /-- A call that fails is about a lexeme. The next gives what the first would give on the text
  behind that lexeme alone, but moved up. -/
  resumed : ∀ n e, w.call n = .error e → ∃ l,
    k.Offends w.rules text (k.after w.rules p n) (k.after w.rules p (n + 1)) e l ∧
      w.call (n + 1) = ((k.normalizer w.rules (k.restart (k.after w.rules p (n + 1)))).call
        0).mapError (·.shift l.span.stop)
  /-- Not all calls fail, … -/
  succeeds : ∃ n ≤ text.length, ∃ fs, w.call n = .ok fs
  /-- … and behind one that does not there is nothing more to give. -/
  finished : ∀ n fs, w.call n = .ok fs → ∀ m > n, w.call m = .ok []

namespace Scanner

/-- **Calls resume** if lexemes are normalized alike wherever they stand. -/
theorem resumes_atStart {σ τ μ : Type} (k : Scanner τ μ) {r : Rules σ} (hr : r.IsMovable) (s : σ)
    (m : μ) (text : List Char) :
    Resumes k text (k.normalizer r ⟨s, k.atStart m text⟩) ⟨s, k.atStart m text⟩ := by
  have hcursor : k.cursor (k.atStart m text) = .atStart text := k.cursor_atStart m text
  have hin : (k.cursor (k.atStart m text)).StandsIn text := ⟨[], by rw [hcursor]; rfl, by
    rw [hcursor]
    rfl⟩
  have hrest : k.rest (k.atStart m text) = text := by
    rw [rest, hcursor]
    rfl
  refine ⟨k.after_normalizer r _, fun n e he => ?_, ?_, fun n fs hfs j hj => ?_⟩
  · rw [call_normalizer] at he
    obtain ⟨l, hl⟩ := k.exists_offends r (k.standsIn_after r hin n) he
    refine ⟨l, hl, ?_⟩
    -- the lexer stands behind the lexeme that is reported
    have hstop : k.offset (k.after r ⟨s, k.atStart m text⟩ (n + 1)).lexer = l.span.stop :=
      hl.offset_eq
    show _ = ((k.normalizer r (k.restart _)).call 0).mapError _
    rw [call_normalizer, call_normalizer, ← hstop]
    exact k.parse_restart hr _
  · obtain ⟨n, hn, fs, hfs⟩ := k.exists_parse_eq_ok r (p := ⟨s, k.atStart m text⟩) hin
    rw [hrest] at hn
    exact ⟨n, hn, fs, by rw [call_normalizer, hfs]⟩
  · rw [call_normalizer] at hfs ⊢
    exact k.parse_of_rest_eq_nil r (k.rest_after_of_ok r hfs hj)

end Scanner

/-! ## Both languages -/

/-- The lexer of projections. -/
def Projection.scanner : Scanner Cursor Unit where
  cutting := cutting
  scan := scan
  cursor := id
  expects _ := ()
  atStart _ := .atStart
  isScannedBy := isScannedBy_cutting
  takesRuns := takesRuns_cutting
  cursor_atStart _ _ := rfl
  expects_atStart _ _ := rfl

/-- The lexer of queries. -/
def Query.scanner : Scanner Lexer Mode where
  cutting := cutting
  scan := scanClause
  cursor := Lexer.cursor
  expects := Lexer.mode
  atStart m cs := ⟨.atStart cs, m⟩
  isScannedBy := isScannedBy_cutting
  takesRuns := takesRuns_cutting
  cursor_atStart _ _ := rfl
  expects_atStart _ _ := rfl

/-- **Calls on a projection or a query resume behind errors**, with the root of the custom schemas
remembered or in the mode of the lexer. -/
theorem Normalizer.resumes (v : Vocabulary) (input : String) :
    Resumes Projection.scanner input.toList (Projection.normalizer v input)
        ⟨false, .atStart input.toList⟩ ∧
      Resumes Query.scanner input.toList (Query.normalizer v input)
        ⟨(), .atStart input.toList⟩ :=
  ⟨Projection.scanner.resumes_atStart (Projection.isMovable_rules v) false () input.toList,
    Query.scanner.resumes_atStart (Query.isMovable_rules v) () .name input.toList⟩

/-- Behind a name that is not known an operator is expected. -/
example : (List.range 3).map (Query.normalizer .userQuery "orgNme=A~isAdmin:True").call
    = [.error (.unknownAttribute "orgNme"), .ok ["=", "A", " ", "isAdmin", ":", "true"],
      .ok []] := by
  decide +kernel

end Registrar
