import Mathlib.Data.List.Forall2
import Registrar.Language.Projection
import Registrar.Language.Query
import Registrar.Proofs.Language.Cutting
import Registrar.Proofs.Traversal
import Registrar.Schema.QueryNames

/-!
# Pieces between tildes

A tilde separates what projections and queries are made of. What stands between two tildes is
normalized as if it stood alone: nothing that has been read or remembered before a tilde is known
behind it, and an error behind it is the error of the piece by itself, moved up by the offset of
the piece.

* `Rules.IsPiecewise` — what the rules and the lexer of a language have to do for that.
* `Rules.IsPiecewise.fragments_append` — one piece in front of a text.
* `NormalizesPieces.eq_ok_iff`, `NormalizesPieces.eq_error_iff` — any number of pieces.
* `Projection.normalize_intercalate_fields`, `Query.normalize_intercalate_clauses` — both
  languages.
-/

set_option autoImplicit false

namespace Registrar

open Text (byteLength)

/-! ## Moving lexemes -/

/-- The error moved up by `n` bytes. Only an error about a token has a place in the text. -/
def Error.shift : Error → Nat → Error
  | .unexpected language literal span, n => .unexpected language literal (span.shift n)
  | e, _ => e

theorem Error.shift_shift (e : Error) (m n : Nat) : (e.shift m).shift n = e.shift (m + n) := by
  cases e <;> simp [shift, Text.Span.shift_shift]

theorem Error.shift_zero (e : Error) : e.shift 0 = e := by
  cases e <;> rfl

namespace Rules

variable {σ : Type} (r : Rules σ)

/-- What lexemes are normalized to: their fragments or the first error. -/
def fragments (s : σ) (ls : List Lexeme) : Except Error (List String) := (r.run s ls).1

@[simp] theorem fragments_nil (s : σ) : r.fragments s [] = .ok [] := rfl

theorem fragments_blank (s : σ) {l : Lexeme} (h : l.token = .blank) (ls : List Lexeme) :
    r.fragments s (l :: ls) = r.fragments s ls := by
  rw [fragments, run_blank r s h]
  rfl

theorem fragments_cons (s : σ) {l : Lexeme} (h : l.token ≠ .blank) (ls : List Lexeme) :
    r.fragments s (l :: ls) =
      match r.step s l with
      | .error e => .error e
      | .ok (fragment, s) => (r.fragments s ls).map (fragment :: ·) := by
  cases hs : r.step s l with
  | error e => rw [fragments, run_cons_error r h hs]
  | ok p =>
      rw [fragments, run_cons_ok r h hs]
      rfl

theorem fragments_cons_ok {s s' : σ} {l : Lexeme} (hb : l.token ≠ .blank) {f : String}
    (h : r.step s l = .ok (f, s')) (ls : List Lexeme) :
    r.fragments s (l :: ls) = (r.fragments s' ls).map (f :: ·) := by
  rw [fragments_cons r s hb, h]

theorem fragments_cons_error {s : σ} {l : Lexeme} (hb : l.token ≠ .blank) {e : Error}
    (h : r.step s l = .error e) (ls : List Lexeme) : r.fragments s (l :: ls) = .error e := by
  rw [fragments_cons r s hb, h]

theorem exists_of_fragments_cons {s : σ} {l : Lexeme} {ls : List Lexeme} {fs : List String}
    (hb : l.token ≠ .blank) (h : r.fragments s (l :: ls) = .ok fs) :
    ∃ f s' gs, r.step s l = .ok (f, s') ∧ r.fragments s' ls = .ok gs ∧ fs = f :: gs := by
  cases hs : r.step s l with
  | error e =>
      rw [fragments_cons_error r hb hs] at h
      cases h
  | ok p =>
      obtain ⟨f, s'⟩ := p
      rw [fragments_cons_ok r hb hs] at h
      obtain ⟨gs, hgs, rfl⟩ := map_eq_ok_iff.mp h
      exact ⟨f, s', gs, rfl, hgs, rfl⟩

theorem fragments_filter (s : σ) (ls : List Lexeme) :
    r.fragments s (ls.filter (·.token != .blank)) = r.fragments s ls := by
  induction ls generalizing s with
  | nil => rfl
  | cons l ls ih =>
      by_cases hb : l.token = .blank
      · rw [List.filter_cons_of_neg (by simp [hb]), fragments_blank r s hb, ih]
      · rw [List.filter_cons_of_pos (by simp [hb]), fragments_cons r s hb, fragments_cons r s hb]
        simp only [ih]

/-- **Whether a lexeme is normalized alike wherever it stands.** -/
def IsMovable : Prop :=
  ∀ s l n, r.fragment s (l.shift n) = (r.fragment s l).mapError (·.shift n)

variable {r}

theorem IsMovable.step_shift (h : r.IsMovable) (s : σ) (l : Lexeme) (n : Nat) :
    r.step s (l.shift n) = (r.step s l).mapError (·.shift n) := by
  rw [step, step, Lexeme.token_shift]
  split
  · exact h s l n
  · rfl

/-- **Lexemes that are moved up** are normalized to the same fragments, or their error is moved up
with them. -/
theorem IsMovable.fragments_shift (h : r.IsMovable) (s : σ) (ls : List Lexeme) (n : Nat) :
    r.fragments s (ls.map (·.shift n)) = (r.fragments s ls).mapError (·.shift n) := by
  induction ls generalizing s with
  | nil => rfl
  | cons l ls ih =>
      rw [List.map_cons]
      by_cases hb : l.token = .blank
      · rw [fragments_blank r s hb, fragments_blank r s (l := l.shift n) hb, ih]
      · rw [fragments_cons r s hb, fragments_cons r s (l := l.shift n) hb, h.step_shift]
        cases r.step s l with
        | error e => rfl
        | ok p =>
            simp only [Except.mapError, ih]
            cases r.fragments p.2 ls <;> rfl

/-! ## One piece in front of a text -/

/-- **Whether a language is normalized piece by piece.** A tilde becomes the separator, whatever
has been remembered before it, and behind it nothing is remembered. -/
structure IsPiecewise {μ : Type} (r : Rules σ) (init : σ) (k : Cutting μ) (start : μ)
    (separator : String) : Prop where
  movable : r.IsMovable
  cut : k.EndsAtTilde start
  step_tilde : ∀ s l, l.token = .tilde → r.step s l = .ok (separator, init)

/-- What stands behind a tilde is normalized as if nothing had been remembered. -/
theorem fragments_append_tilde {init : σ} {separator : String} {t : Lexeme} (ht : t.token = .tilde)
    (h : ∀ s, r.step s t = .ok (separator, init)) (s : σ) (front rest : List Lexeme) :
    r.fragments s (front ++ t :: rest) =
      match r.fragments s front with
      | .error e => .error e
      | .ok fs => (r.fragments init rest).map (fs ++ separator :: ·) := by
  have hblank : t.token ≠ .blank := by rw [ht]; decide
  induction front generalizing s with
  | nil =>
      rw [List.nil_append, fragments_cons r s hblank, h]
      rfl
  | cons l front ih =>
      rw [List.cons_append]
      -- blank space leaves the state alone
      by_cases hb : l.token = .blank
      · rw [fragments_blank r s hb, fragments_blank r s hb, ih]
      · rw [fragments_cons r s hb, fragments_cons r s hb]
        cases r.step s l with
        | error e => rfl
        | ok p =>
            simp only [ih]
            cases r.fragments p.2 front with
            | error e => rfl
            | ok fs => cases r.fragments init rest <;> rfl

namespace IsPiecewise

variable {μ : Type} {init : σ} {k : Cutting μ} {start : μ} {separator : String}

/-- **One piece in front of a text.** -/
theorem fragments_append (h : r.IsPiecewise init k start separator) {piece : List Char}
    (hp : '~' ∉ piece) (rest : List Char) :
    r.fragments init (k.lexemes start (piece ++ '~' :: rest)) =
      match r.fragments init (k.lexemes start piece) with
      | .error e => .error e
      | .ok fs => ((r.fragments init (k.lexemes start rest)).mapError
          (·.shift (byteLength piece + 1))).map (fs ++ separator :: ·) := by
  rw [Cutting.lexemes_append_tilde h.cut hp rest,
    fragments_append_tilde (by rfl) fun s => h.step_tilde s _ (by rfl)]
  simp only [h.movable.fragments_shift]

end IsPiecewise

end Rules

/-! ## Any number of pieces -/

/-- Whether a text in front of the first tilde is normalized by itself, and what stands behind the
tilde, too. -/
def NormalizesPieces (normalize : String → Except Error String) (separator : String) : Prop :=
  ∀ piece rest : String, '~' ∉ piece.toList → normalize (piece ++ "~" ++ rest) =
    match normalize piece with
    | .error e => .error e
    | .ok out => ((normalize rest).mapError (·.shift (byteLength piece.toList + 1))).map
        (out ++ separator ++ ·)

theorem Rules.IsPiecewise.normalizesPieces {σ μ : Type} {r : Rules σ} {init : σ} {k : Cutting μ}
    {start : μ} {separator : String} (h : r.IsPiecewise init k start separator)
    {normalize : String → Except Error String}
    (hn : ∀ s, normalize s = (r.fragments init (k.lexemes start s.toList)).map String.join) :
    NormalizesPieces normalize separator := by
  intro piece rest hp
  have htext : (piece ++ "~" ++ rest).toList = piece.toList ++ '~' :: rest.toList := by simp
  rw [hn, hn, hn, htext, h.fragments_append hp]
  cases r.fragments init (k.lexemes start piece.toList) with
  | error e => rfl
  | ok fs =>
      cases r.fragments init (k.lexemes start rest.toList) with
      | error e => rfl
      | ok gs => simp [Except.map, Except.mapError, String.append_assoc]

/-- The offset of a piece in a text, given the pieces in front of it: each is followed by a
tilde. -/
def offsetBehind (front : List String) : Nat :=
  byteLength (front.flatMap fun piece => piece.toList ++ ['~'])

theorem offsetBehind_cons (p : String) (front : List String) :
    offsetBehind (p :: front) = byteLength p.toList + 1 + offsetBehind front := by
  rw [offsetBehind, List.flatMap_cons, Text.byteLength_append, Text.byteLength_append]
  rfl

namespace NormalizesPieces

variable {normalize : String → Except Error String} {separator : String}

theorem append_eq_ok_iff (h : NormalizesPieces normalize separator) {piece : String}
    (hp : '~' ∉ piece.toList) (rest out : String) :
    normalize (piece ++ "~" ++ rest) = .ok out ↔
      ∃ o more, normalize piece = .ok o ∧ normalize rest = .ok more ∧
        out = o ++ separator ++ more := by
  rw [h piece rest hp]
  cases normalize piece with
  | error e => simp
  | ok o => cases normalize rest <;> simp [Except.map, Except.mapError, eq_comm]

theorem append_eq_error_iff (h : NormalizesPieces normalize separator) {piece : String}
    (hp : '~' ∉ piece.toList) (rest : String) (e : Error) :
    normalize (piece ++ "~" ++ rest) = .error e ↔
      normalize piece = .error e ∨ ∃ o e', normalize piece = .ok o ∧ normalize rest = .error e' ∧
        e = e'.shift (byteLength piece.toList + 1) := by
  rw [h piece rest hp]
  cases normalize piece with
  | error e => simp
  | ok o => cases normalize rest <;> simp [Except.map, Except.mapError, eq_comm]

/-- **Pieces are normalized together exactly if each of them is**, and the separator stands between
what they are normalized to. -/
theorem eq_ok_iff (h : NormalizesPieces normalize separator) (hempty : normalize "" = .ok "")
    {pieces : List String} (hp : ∀ p ∈ pieces, '~' ∉ p.toList) (out : String) :
    normalize ("~".intercalate pieces) = .ok out ↔
      ∃ outs, List.Forall₂ (fun p o => normalize p = .ok o) pieces outs ∧
        out = separator.intercalate outs := by
  induction pieces generalizing out with
  | nil => simp [hempty, eq_comm]
  | cons p rest ih =>
      have hrest : ∀ q ∈ rest, '~' ∉ q.toList := fun q hq => hp q (List.mem_cons_of_mem _ hq)
      cases rest with
      | nil => simp [List.forall₂_cons_left_iff]
      | cons q rest =>
          rw [String.intercalate_cons_cons, h.append_eq_ok_iff (hp p List.mem_cons_self)]
          constructor
          · rintro ⟨o, more, ho, hmore, rfl⟩
            obtain ⟨outs, houts, rfl⟩ := (ih hrest more).mp hmore
            refine ⟨o :: outs, .cons ho houts, ?_⟩
            cases houts with
            | cons _ _ => rw [String.intercalate_cons_cons]
          · rintro ⟨outs, houts, rfl⟩
            cases houts with
            | @cons _ o _ outs ho houts =>
                refine ⟨o, _, ho, (ih hrest _).mpr ⟨outs, houts, rfl⟩, ?_⟩
                cases houts with
                | cons _ _ => rw [String.intercalate_cons_cons]

/-- **Pieces that are not all normalized** give the error of the first that is not, moved up by the
offset of that piece. -/
theorem eq_error_iff (h : NormalizesPieces normalize separator) (hempty : normalize "" = .ok "")
    {pieces : List String} (hp : ∀ p ∈ pieces, '~' ∉ p.toList) (e : Error) :
    normalize ("~".intercalate pieces) = .error e ↔
      ∃ front p rest e', pieces = front ++ p :: rest ∧ (∀ q ∈ front, ∃ o, normalize q = .ok o) ∧
        normalize p = .error e' ∧ e = e'.shift (offsetBehind front) := by
  induction pieces generalizing e with
  | nil => simp [hempty]
  | cons p rest ih =>
      have hrest : ∀ q ∈ rest, '~' ∉ q.toList := fun q hq => hp q (List.mem_cons_of_mem _ hq)
      -- the first piece fails itself, or the others do and their error moves behind it
      have hjoined : normalize ("~".intercalate (p :: rest)) = .error e ↔
          normalize p = .error e ∨ ∃ o e', normalize p = .ok o ∧
            normalize ("~".intercalate rest) = .error e' ∧
              e = e'.shift (byteLength p.toList + 1) := by
        cases rest with
        | nil => simp [hempty]
        | cons q rest =>
            rw [String.intercalate_cons_cons]
            exact h.append_eq_error_iff (hp p List.mem_cons_self) _ e
      rw [hjoined]
      constructor
      · rintro (he | ⟨o, e', ho, he', rfl⟩)
        · exact ⟨[], p, rest, e, rfl, fun q hq => absurd hq List.not_mem_nil, he,
            e.shift_zero.symm⟩
        · obtain ⟨front, q, rest', e'', rfl, hfront, hq, rfl⟩ := (ih hrest e').mp he'
          refine ⟨p :: front, q, rest', e'', rfl, ?_, hq, ?_⟩
          · intro q' hq'
            rcases List.mem_cons.mp hq' with rfl | hq'
            · exact ⟨o, ho⟩
            · exact hfront q' hq'
          · rw [Error.shift_shift, offsetBehind_cons, Nat.add_comm]
      · rintro ⟨front, q, rest', e', heq, hfront, hq, rfl⟩
        cases front with
        | nil =>
            obtain ⟨rfl, rfl⟩ := List.cons.inj heq
            exact Or.inl (by rw [hq]; exact congrArg Except.error e'.shift_zero.symm)
        | cons p' front =>
            obtain ⟨rfl, rfl⟩ := List.cons.inj heq
            obtain ⟨o, ho⟩ := hfront p List.mem_cons_self
            refine Or.inr ⟨o, _, ho, (ih hrest _).mpr ⟨front, q, rest', e', rfl, ?_, hq, rfl⟩, ?_⟩
            · exact fun q' hq' => hfront q' (List.mem_cons_of_mem _ hq')
            · rw [Error.shift_shift, offsetBehind_cons, Nat.add_comm]

end NormalizesPieces

/-! ## Both languages -/

theorem Vocabulary.mapError_map_resolve {α : Type} (v : Vocabulary) (name : String)
    (f : String → α) (n : Nat) :
    ((v.resolve name).map f).mapError (·.shift n) = (v.resolve name).map f := by
  unfold resolve
  split <;> rfl

namespace Projection

theorem isMovable_rules (v : Vocabulary) : (rules v).IsMovable := by
  intro s l n
  show fragment v s (l.shift n) = (fragment v s l).mapError (·.shift n)
  unfold fragment
  rw [Lexeme.token_shift, Lexeme.literal_shift]
  split
  · split
    · rfl
    · rw [Vocabulary.mapError_map_resolve]
  · rfl
  · rfl

theorem isPiecewise_rules (v : Vocabulary) : (rules v).IsPiecewise false cutting () "," where
  movable := isMovable_rules v
  cut := endsAtTilde_cutting
  step_tilde s l h := by
    show (if accepts l.token then fragment v s l else _) = _
    simp only [h, accepts, if_true, fragment]

theorem normalize_eq (v : Vocabulary) (input : String) :
    normalize v input
      = ((rules v).fragments false (cutting.lexemes () input.toList)).map String.join := by
  rw [← lexemes_eq]
  rfl

theorem normalizesPieces (v : Vocabulary) : NormalizesPieces (normalize v) "," :=
  (isPiecewise_rules v).normalizesPieces (normalize_eq v)

theorem normalize_empty (v : Vocabulary) : normalize v "" = .ok "" := rfl

/-- **The fields of a projection are normalized one by one.** A projection of fields that are
separated by tildes is normalized exactly if each field is, to the outputs with commas between
them; otherwise the error is that of the first field that is not normalized, moved up by the
offset of the field. -/
theorem normalize_intercalate_fields (v : Vocabulary) {fields : List String}
    (h : ∀ f ∈ fields, '~' ∉ f.toList) :
    (∀ out, normalize v ("~".intercalate fields) = .ok out ↔
      ∃ outs, List.Forall₂ (fun f o => normalize v f = .ok o) fields outs ∧
        out = ",".intercalate outs) ∧
    (∀ e, normalize v ("~".intercalate fields) = .error e ↔
      ∃ front f rest e', fields = front ++ f :: rest ∧
        (∀ g ∈ front, ∃ o, normalize v g = .ok o) ∧ normalize v f = .error e' ∧
          e = e'.shift (offsetBehind front)) :=
  ⟨(normalizesPieces v).eq_ok_iff (normalize_empty v) h,
    (normalizesPieces v).eq_error_iff (normalize_empty v) h⟩

/-- The third of three fields is in error, behind a letter of two bytes. -/
theorem normalize_intercalate_fields_underscore :
    (∀ f ∈ ["customschemas/Ä", "firstname", "_"], '~' ∉ f.toList) ∧
      normalize .ofUser ("~".intercalate ["customschemas/Ä", "firstname", "_"])
        = .error (.unexpected .projection "_" ⟨27, 28⟩) := by
  have h : ∀ f ∈ ["customschemas/Ä", "firstname", "_"], '~' ∉ f.toList := by decide
  refine ⟨h, ((normalize_intercalate_fields .ofUser h).2 _).mpr
    ⟨["customschemas/Ä", "firstname"], "_", [], .unexpected .projection "_" ⟨0, 1⟩, rfl,
      ?_, ?_, ?_⟩⟩
  · intro f hf
    rcases List.mem_pair.mp hf with rfl | rfl
    · exact ⟨"customSchemas/Ä", by decide +kernel⟩
    · exact ⟨"givenName", by decide +kernel⟩
  · decide +kernel
  · decide +kernel

end Projection

namespace Query

theorem isMovable_rules (v : Vocabulary) : (rules v).IsMovable := by
  intro s l n
  show (fragment v (l.shift n)).map (fun s => (s, ())) =
    ((fragment v l).map fun s => (s, ())).mapError (·.shift n)
  unfold fragment
  rw [Lexeme.token_shift, Lexeme.literal_shift, Lexeme.chars_shift]
  split
  · split
    · rfl
    · rw [Vocabulary.mapError_map_resolve]
  · rfl
  · rfl
  · rfl

theorem isPiecewise_rules (v : Vocabulary) : (rules v).IsPiecewise () cutting .name " " where
  movable := isMovable_rules v
  cut := endsAtTilde_cutting
  step_tilde s l h := by
    show (if accepts l.token then (fragment v l).map (fun s => (s, ())) else _) = _
    simp only [h, accepts, if_true, fragment]
    rfl

theorem normalize_eq (v : Vocabulary) (input : String) :
    normalize v input
      = ((rules v).fragments () (cutting.lexemes .name input.toList)).map String.join := by
  rw [← lexemes_eq]
  rfl

theorem normalizesPieces (v : Vocabulary) : NormalizesPieces (normalize v) " " :=
  (isPiecewise_rules v).normalizesPieces (normalize_eq v)

theorem normalize_empty (v : Vocabulary) : normalize v "" = .ok "" := rfl

/-- **The clauses of a query are normalized one by one.** A query of clauses that are separated by
tildes is normalized exactly if each clause is, to the outputs with spaces between them; otherwise
the error is that of the first clause that is not normalized, moved up by the offset of the
clause. -/
theorem normalize_intercalate_clauses (v : Vocabulary) {clauses : List String}
    (h : ∀ c ∈ clauses, '~' ∉ c.toList) :
    (∀ out, normalize v ("~".intercalate clauses) = .ok out ↔
      ∃ outs, List.Forall₂ (fun c o => normalize v c = .ok o) clauses outs ∧
        out = " ".intercalate outs) ∧
    (∀ e, normalize v ("~".intercalate clauses) = .error e ↔
      ∃ front c rest e', clauses = front ++ c :: rest ∧
        (∀ d ∈ front, ∃ o, normalize v d = .ok o) ∧ normalize v c = .error e' ∧
          e = e'.shift (offsetBehind front)) :=
  ⟨(normalizesPieces v).eq_ok_iff (normalize_empty v) h,
    (normalizesPieces v).eq_error_iff (normalize_empty v) h⟩

/-- Of three clauses the second is empty. -/
theorem normalize_intercalate_clauses_empty :
    (∀ c ∈ ["orgname = a b", "", "isadmin=True"], '~' ∉ c.toList) ∧
      normalize .userQuery ("~".intercalate ["orgname = a b", "", "isadmin=True"])
        = .ok "orgName=a b  isAdmin=true" := by
  have h : ∀ c ∈ ["orgname = a b", "", "isadmin=True"], '~' ∉ c.toList := by decide
  refine ⟨h, ((normalize_intercalate_clauses .userQuery h).1 _).mpr
    ⟨["orgName=a b", "", "isAdmin=true"], .cons ?_ (.cons ?_ (.cons ?_ .nil)), rfl⟩⟩
  · decide +kernel
  · decide +kernel
  · decide +kernel

end Query

end Registrar
