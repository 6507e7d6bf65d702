import Registrar.Proofs.Language.Clauses
import Registrar.Proofs.Language.Meanings

/-!
# What queries mean

The lexer of queries goes from name to operator to value, and what it takes next depends on where
it is. On a clause it gives the parts of the clause, blanks apart: each symbol in front of the name
by itself, then the name, the operator and the value. So what a clause becomes can be read off its
parts, and nothing in an operator or a value is dropped, split or refused.

* `Query.shown_clause` — the lexemes of a clause are its parts.
* `Query.normalize_clause` — when a clause is normalized, and to what.
* `Query.mem_shown_iff` — the lexemes of a query are those of its clauses.
* `Query.operators_iff` — what operators are made of.
-/

set_option autoImplicit false

namespace Registrar

open Text (isBlank)

namespace Query

/-! ## The lexemes of a clause -/

/-- What is shown of a lexeme: its kind and its characters. -/
def shown (ls : List Lexeme) : List (Token × List Char) :=
  (visible ls).map fun l => (l.token, l.chars)

@[simp] theorem shown_nil : shown [] = [] := rfl

theorem shown_shift (ls : List Lexeme) (n : Nat) : shown (ls.map (·.shift n)) = shown ls := by
  simp only [shown, visible, List.filter_map, List.map_map]
  rfl

theorem shown_cons {l : Lexeme} (h : l.token ≠ .blank) (ls : List Lexeme) :
    shown (l :: ls) = (l.token, l.chars) :: shown ls := by
  simp [shown, visible, h]

theorem shown_append (ls ms : List Lexeme) : shown (ls ++ ms) = shown ls ++ shown ms := by
  simp [shown, visible]

/-- Blanks are not shown. -/
theorem shown_dropWhile (m : Mode) (cs : List Char) :
    shown (cutting.lexemes m (cs.dropWhile isBlank)) = shown (cutting.lexemes m cs) := by
  cases cs with
  | nil => rfl
  | cons ch cs =>
      by_cases hb : isBlank ch = true
      · have ht : ch ≠ '~' := by
          rintro rfl
          rw [isBlank_tilde] at hb
          cases hb
        -- the blanks in front are one lexeme, whatever the lexer expects
        have hfirst : cutting.first m (ch :: cs) = ⟨.blank, ch :: cs.takeWhile isBlank, m⟩ := by
          simp [cutting, first, ht, hb]
        have hcs : ch :: cs = (ch :: cs.takeWhile isBlank) ++ cs.dropWhile isBlank := by
          rw [List.cons_append, List.takeWhile_append_dropWhile]
        rw [cutting.lexemes_of_first hfirst (List.cons_ne_nil _ _) hcs,
          List.dropWhile_cons_of_pos hb]
        exact (shown_shift _ _).symm
      · rw [List.dropWhile_cons_of_neg hb]

theorem shown_append_blank {bs : List Char} (hb : ∀ ch ∈ bs, isBlank ch = true) (m : Mode)
    (cs : List Char) :
    shown (cutting.lexemes m (bs ++ cs)) = shown (cutting.lexemes m cs) := by
  rw [← shown_dropWhile m (bs ++ cs), List.dropWhile_append_of_pos hb, shown_dropWhile]

theorem shown_of_firstVisible {m m' : Mode} {token : Token} {ch : Char} {run rest : List Char}
    (ht : ch ≠ '~') (hb : isBlank ch = false)
    (h : firstVisible m ch (run ++ rest) = ⟨token, ch :: run, m'⟩)
    (hblank : token ≠ .blank) (htilde : token = .tilde → m' = .name) :
    shown (cutting.lexemes m (ch :: (run ++ rest)))
      = (token, ch :: run) :: shown (cutting.lexemes m' rest) := by
  have hfirst : cutting.first m (ch :: (run ++ rest)) = ⟨token, ch :: run, m'⟩ := by
    simp only [cutting, first, if_neg ht, hb, Bool.false_eq_true, if_false, h, Cut.mk.injEq,
      true_and, ite_eq_right_iff]
    exact fun htoken => (htilde htoken).symm
  rw [cutting.lexemes_of_first hfirst (List.cons_ne_nil _ _) rfl]
  exact (shown_cons hblank _).trans (congrArg _ (shown_shift _ _))

theorem firstVisible_of_not_beginsName {ch : Char} {rest : List Char}
    (h : beginsName (ch :: rest) = false) :
    firstVisible .name ch rest = ⟨(Token.ofSymbol? ch).getD .illegal, [ch], .name⟩ := by
  rw [firstVisible]
  split
  · rename_i hunderscore
    obtain ⟨rfl, -⟩ : ch = '_' ∧ rest.head?.any Token.continuesName = false := by
      simpa [Scan.loneUnderscore] using hunderscore
    rfl
  · rename_i hunderscore
    split
    · rename_i hstarts
      rw [beginsName_cons_iff.mpr ⟨Bool.eq_false_iff.mpr hunderscore, hstarts⟩] at h
      cases h
    · rfl

theorem ofSymbol?_getD_ne_tilde {ch : Char} (h : ch ≠ '~') :
    (Token.ofSymbol? ch).getD .illegal ≠ .tilde := by
  intro htilde
  unfold Token.ofSymbol? at htilde
  split at htilde
  all_goals first
    | exact h rfl
    | cases htilde

namespace Clause

/-- A part of a clause that is one lexeme, unless it is missing. -/
def part (token : Token) (cs : List Char) : List (Token × List Char) :=
  if cs = [] then [] else [(token, cs)]

@[simp] theorem part_nil (token : Token) : part token [] = [] := rfl

theorem part_cons (token : Token) (ch : Char) (run : List Char) :
    part token (ch :: run) = [(token, ch :: run)] := rfl

/-- The symbols of the lead: a lexeme for each character that is no blank. -/
def symbols (lead : List Char) : List (Token × List Char) :=
  (lead.filter (!isBlank ·)).map fun ch => ((Token.ofSymbol? ch).getD .illegal, [ch])

/-- **The lexemes of a clause** that are no blanks. -/
def lexemes (c : Clause) : List (Token × List Char) :=
  symbols c.lead ++ (part .name c.name ++ (part .operator c.operator ++ part .value c.value))

end Clause

theorem shown_value {value : List Char} (ht : '~' ∉ value)
    (hb : ∀ ch ∈ value.head?, isBlank ch = false) :
    shown (cutting.lexemes .value value) = Clause.part .value value := by
  cases value with
  | nil => simp
  | cons ch run =>
      obtain ⟨hch, hrun⟩ : ch ≠ '~' ∧ '~' ∉ run := by simpa [eq_comm] using ht
      have htake : run.takeWhile (· != '~') = run := by
        refine List.takeWhile_eq_self_iff.mpr fun d hd => ?_
        have hd' : d ≠ '~' := fun e => hrun (e ▸ hd)
        simpa using hd'
      have hfirst : firstVisible .value ch (run ++ []) = ⟨.value, ch :: run, .value⟩ := by
        rw [List.append_nil, firstVisible, htake]
      have hshown := shown_of_firstVisible hch (hb ch rfl) hfirst (by decide) (by simp)
      rwa [List.append_nil, Cutting.lexemes_nil, shown_nil] at hshown

theorem shown_operator {operator rest : List Char} (ht : '~' ∉ operator)
    (hb : ∀ ch ∈ (operator ++ rest).head?, isBlank ch = false)
    (hrun : IsLongestRun Token.isOperator operator.tail rest) (hno : operator = [] → rest = []) :
    shown (cutting.lexemes .operator (operator ++ rest))
      = Clause.part .operator operator ++ shown (cutting.lexemes .value rest) := by
  cases operator with
  | nil => simp [hno rfl]
  | cons ch run =>
      obtain ⟨hch, -⟩ : ch ≠ '~' ∧ '~' ∉ run := by simpa [eq_comm] using ht
      have hfirst : firstVisible .operator ch (run ++ rest) = ⟨.operator, ch :: run, .value⟩ := by
        have hrun : IsLongestRun Token.isOperator run rest := hrun
        rw [firstVisible, hrun.takeWhile_eq]
      exact shown_of_firstVisible hch (hb ch rfl) hfirst (by decide) (by simp)

/-- A name is all that it can go on with from where it begins. -/
theorem shown_name {name rest : List Char} (ht : '~' ∉ name)
    (hbegins : name ≠ [] → beginsName (name ++ rest) = true)
    (hrun : IsLongestRun continuesDotted name rest) (hno : name = [] → rest = []) :
    shown (cutting.lexemes .name (name ++ rest))
      = Clause.part .name name ++ shown (cutting.lexemes .operator rest) := by
  cases name with
  | nil => simp [hno rfl]
  | cons ch run =>
      obtain ⟨hch, -⟩ : ch ≠ '~' ∧ '~' ∉ run := by simpa [eq_comm] using ht
      obtain ⟨hunderscore, hstarts⟩ := beginsName_cons_iff.mp (hbegins (List.cons_ne_nil _ _))
      -- the lexer takes the first character before it looks at the run
      have htake := hrun.takeWhile_eq
      rw [List.cons_append, List.takeWhile_cons_of_pos (continuesDotted_of_startsName hstarts),
        List.cons.injEq] at htake
      have hfirst : firstVisible .name ch (run ++ rest) = ⟨.name, ch :: run, .operator⟩ := by
        have hunderscore : Scan.loneUnderscore ch (run ++ rest) = false := hunderscore
        simp [firstVisible, hunderscore, hstarts, htake.2]
      exact shown_of_firstVisible hch (isBlank_of_startsName hstarts) hfirst (by decide) (by simp)

/-- In front of the first name, each character stands by itself. -/
theorem shown_lead {lead rest : List Char} (ht : '~' ∉ lead)
    (h : ∀ i < lead.length, beginsName ((lead ++ rest).drop i) = false) :
    shown (cutting.lexemes .name (lead ++ rest))
      = Clause.symbols lead ++ shown (cutting.lexemes .name rest) := by
  induction lead with
  | nil => rfl
  | cons ch lead ih =>
      obtain ⟨hch, hlead⟩ : ch ≠ '~' ∧ '~' ∉ lead := by simpa [eq_comm] using ht
      have hrest := ih hlead fun i hi => h (i + 1) (Nat.succ_lt_succ hi)
      rw [Clause.symbols, List.filter_cons]
      by_cases hb : isBlank ch = true
      · have hblank : shown (cutting.lexemes .name ([ch] ++ (lead ++ rest))) = _ :=
          shown_append_blank (by simpa using hb) .name (lead ++ rest)
        rw [hb]
        exact hblank.trans hrest
      -- what does not begin a name is a symbol by itself
      · have hfirst : firstVisible .name ch ([] ++ (lead ++ rest)) = ⟨_, [ch], .name⟩ :=
          firstVisible_of_not_beginsName (h 0 (Nat.succ_pos _))
        have hshown := shown_of_firstVisible hch (Bool.eq_false_iff.mpr hb) hfirst
          (ofSymbol?_getD_ne (by decide) ch) fun htilde =>
            absurd htilde (ofSymbol?_getD_ne_tilde hch)
        rw [Bool.eq_false_iff.mpr hb]
        exact hshown.trans (congrArg (_ :: ·) hrest)

/-- **The lexemes of a clause are its parts.** -/
theorem shown_clause {c : Clause} (h : c.IsWellFormed) (ht : '~' ∉ c.text) :
    shown (cutting.lexemes .name c.text) = c.lexemes := by
  simp only [Clause.text, Clause.behindName, Clause.behindOperator, List.mem_append, not_or] at ht
  obtain ⟨hlead, hname, hgap, hoperator, hspace, hvalue⟩ := ht
  calc shown (cutting.lexemes .name c.text)
      = Clause.symbols c.lead ++ shown (cutting.lexemes .name (c.name ++ c.behindName)) :=
        shown_lead hlead h.lead
    _ = Clause.symbols c.lead ++ (Clause.part .name c.name ++
          shown (cutting.lexemes .operator c.behindName)) := by
        rw [shown_name hname h.begins h.name h.noName]
    _ = Clause.symbols c.lead ++ (Clause.part .name c.name ++
          shown (cutting.lexemes .operator (c.operator ++ c.behindOperator))) := by
        rw [Clause.behindName, shown_append_blank h.gap.1]
    _ = Clause.symbols c.lead ++ (Clause.part .name c.name ++ (Clause.part .operator c.operator ++
          shown (cutting.lexemes .value c.behindOperator))) := by
        rw [shown_operator hoperator h.gap.2 h.operator h.noOperator]
    _ = c.lexemes := by
        rw [Clause.behindOperator, shown_append_blank h.space.1, shown_value hvalue h.space.2]
        rfl

/-! ## What a clause means -/

/-- Whether a query knows what to do with a lexeme: it has a place for its kind, and a name has a
dot or is a name of the vocabulary. -/
def Fits (v : Vocabulary) (token : Token) (cs : List Char) : Prop :=
  accepts token = true ∧ (token = .name → '.' ∈ cs ∨ v.contains (String.ofList cs) = true)

/-- The name as a query shows it: as it is if it has a dot, and in its canonical form if not. -/
def shownName (v : Vocabulary) (name : List Char) : String :=
  if '.' ∈ name then String.ofList name
  else (v.get? (String.ofList name)).getD (String.ofList name)

/-- The fragment that a lexeme becomes. -/
def becomes (v : Vocabulary) (token : Token) (cs : List Char) : String :=
  match token with
  | .name => shownName v cs
  | .value => plainValue (String.ofList cs)
  | .tilde => " "
  | _ => String.ofList cs

theorem resolve_eq_ok_iff_getD {v : Vocabulary} {name f : String} :
    v.resolve name = .ok f ↔ v.contains name = true ∧ f = (v.get? name).getD name := by
  rw [Vocabulary.resolve_eq_ok_iff, Vocabulary.contains]
  cases v.get? name with
  | none => simp
  | some canonical => simp [eq_comm]

theorem fragment_of_name {v : Vocabulary} {l : Lexeme} (h : l.token = .name) :
    fragment v l = if '.' ∈ l.chars then .ok l.literal else v.resolve l.literal := by
  unfold fragment
  rw [h]
  simp

theorem fragment_of_ne_name {v : Vocabulary} {l : Lexeme} (h : l.token ≠ .name) :
    fragment v l = .ok (becomes v l.token l.chars) := by
  obtain ⟨token, cs, span⟩ := l
  cases token
  all_goals first
    | exact absurd rfl h
    | rfl

theorem fragment_eq_ok_iff {v : Vocabulary} {l : Lexeme} {f : String} :
    fragment v l = .ok f ↔
      (l.token = .name → '.' ∈ l.chars ∨ v.contains l.literal = true) ∧
        f = becomes v l.token l.chars := by
  have hok : ∀ s, (Except.ok s : Except Error String) = .ok f ↔ f = s := fun s => by
    rw [Except.ok.injEq, eq_comm]
  by_cases hname : l.token = .name
  · have hbecomes : becomes v l.token l.chars =
        if '.' ∈ l.chars then l.literal else (v.get? l.literal).getD l.literal := by
      rw [hname]
      rfl
    rw [fragment_of_name hname, hbecomes]
    by_cases hdot : '.' ∈ l.chars
    · rw [if_pos hdot, if_pos hdot, hok]
      simp [hdot]
    · rw [if_neg hdot, if_neg hdot, resolve_eq_ok_iff_getD]
      simp [hdot, hname]
  · rw [fragment_of_ne_name hname, hok]
    simp [hname]

/-- **What a lexeme means does not depend on where it stands.** -/
theorem means_rules (v : Vocabulary) : (rules v).Means (fun _ => ())
    (fun _ l => Fits v l.token l.chars) fun _ l => becomes v l.token l.chars := by
  intro front l _ f s
  show (if accepts l.token then (fragment v l).map (fun f => (f, ())) else _) = _ ↔ _
  by_cases hacc : accepts l.token = true
  · rw [if_pos hacc, map_eq_ok_iff]
    simp [fragment_eq_ok_iff, Fits, hacc, Lexeme.literal]
  · simp [hacc, Fits]

/-- **The fragments of a query**: each lexeme counts by itself. -/
theorem fragments_eq_ok_iff {v : Vocabulary} {input : String} {fs : List String} :
    fragments v input = .ok fs ↔
      (∀ p ∈ shown (cutting.lexemes .name input.toList), Fits v p.1 p.2) ∧
        fs = (shown (cutting.lexemes .name input.toList)).map fun p => becomes v p.1 p.2 := by
  have hfragments : fragments v input
      = (rules v).fragments () (cutting.lexemes .name input.toList) := by
    rw [← lexemes_eq]
    rfl
  rw [hfragments, (means_rules v).fragments_eq_ok_iff_of_const rfl]
  simp only [shown, List.forall_mem_map, List.map_map]
  rfl

/-- The symbols that may stand in front of a name. -/
def leadSymbols : List Char := ['*', '\\', ':', ',', ')', ']', '/', '>', '=', '<', '(', '[']

theorem accepts_symbol_iff {ch : Char} (h : ch ≠ '~') :
    accepts ((Token.ofSymbol? ch).getD .illegal) = true ↔ ch ∈ leadSymbols := by
  unfold Token.ofSymbol?
  split
  all_goals first
    | exact absurd rfl h
    | decide
    | simp_all [leadSymbols, accepts]

namespace Clause

/-- **Whether a query takes a clause**: in front of the name stand blanks and symbols, and the name
has a dot or is a name of the vocabulary. -/
def IsKnown (v : Vocabulary) (c : Clause) : Prop :=
  (∀ ch ∈ c.lead, isBlank ch = false → ch ∈ leadSymbols) ∧
    (c.name = [] ∨ '.' ∈ c.name ∨ v.contains (String.ofList c.name) = true)

/-- **The fragments of a clause**: the symbols one by one, the name, the operator, and the value
with a truth value in lower case. -/
def fragments (v : Vocabulary) (c : Clause) : List String :=
  (c.lead.filter (!isBlank ·)).map (fun ch => String.ofList [ch]) ++
    ((if c.name = [] then [] else [shownName v c.name]) ++
    ((if c.operator = [] then [] else [String.ofList c.operator]) ++
    (if c.value = [] then [] else [plainValue (String.ofList c.value)])))

-- decided over the lead, and not over all characters
instance (v : Vocabulary) (c : Clause) : Decidable (c.IsKnown v) :=
  decidable_of_iff ((c.lead.all fun ch => isBlank ch || leadSymbols.contains ch) = true ∧
      (c.name = [] ∨ '.' ∈ c.name ∨ v.contains (String.ofList c.name) = true)) <| by
    have hsymbol : ∀ ch, (isBlank ch || leadSymbols.contains ch) = true ↔
        (isBlank ch = false → ch ∈ leadSymbols) := by
      intro ch
      cases isBlank ch <;> simp
    simp only [IsKnown, List.all_eq_true, hsymbol]

theorem forall_mem_part_iff {P : Token → List Char → Prop} {token : Token} {cs : List Char} :
    (∀ p ∈ part token cs, P p.1 p.2) ↔ cs = [] ∨ P token cs := by
  cases cs with
  | nil => simp
  | cons ch run => simp [part_cons]

theorem fits_symbols_iff {v : Vocabulary} {lead : List Char} (ht : '~' ∉ lead) :
    (∀ p ∈ symbols lead, Fits v p.1 p.2) ↔ ∀ ch ∈ lead, isBlank ch = false → ch ∈ leadSymbols := by
  simp only [symbols, List.forall_mem_map, List.mem_filter, Bool.not_eq_true', and_imp]
  refine forall₃_congr fun ch hch _ => ?_
  have hne : ch ≠ '~' := fun e => ht (e ▸ hch)
  have hname := ofSymbol?_getD_ne (t := .name) (by decide) ch
  simp [Fits, hname, accepts_symbol_iff hne]

theorem fits_lexemes_iff {v : Vocabulary} {c : Clause} (ht : '~' ∉ c.lead) :
    (∀ p ∈ c.lexemes, Fits v p.1 p.2) ↔ c.IsKnown v := by
  have hname : Fits v .name c.name ↔ '.' ∈ c.name ∨ v.contains (String.ofList c.name) = true := by
    simp [Fits, accepts]
  have hoperator : Fits v .operator c.operator := ⟨rfl, by simp⟩
  have hvalue : Fits v .value c.value := ⟨rfl, by simp⟩
  simp only [lexemes, List.forall_mem_append, fits_symbols_iff ht, forall_mem_part_iff, hname,
    hoperator, hvalue, or_true, and_true]
  rfl

theorem becomes_symbol {v : Vocabulary} {ch : Char} (h : ch ≠ '~') :
    becomes v ((Token.ofSymbol? ch).getD .illegal) [ch] = String.ofList [ch] := by
  unfold Token.ofSymbol?
  split
  all_goals first
    | exact absurd rfl h
    | rfl

theorem map_becomes_part (v : Vocabulary) (token : Token) (cs : List Char) :
    (part token cs).map (fun p => becomes v p.1 p.2)
      = if cs = [] then [] else [becomes v token cs] := by
  cases cs <;> rfl

theorem map_becomes_lexemes (v : Vocabulary) {c : Clause} (ht : '~' ∉ c.lead) :
    c.lexemes.map (fun p => becomes v p.1 p.2) = c.fragments v := by
  have hlead : (symbols c.lead).map (fun p => becomes v p.1 p.2)
      = (c.lead.filter (!isBlank ·)).map fun ch => String.ofList [ch] := by
    rw [symbols, List.map_map]
    refine List.map_congr_left fun ch hch => becomes_symbol ?_
    rintro rfl
    exact ht (List.mem_filter.mp hch).1
  simp only [lexemes, List.map_append, hlead, map_becomes_part]
  rfl

end Clause

/-- **What a clause is normalized to.** A text without tildes is made of the parts of exactly one
clause. It is normalized exactly if the vocabulary knows the name, or the name has a dot, and
nothing but blanks and symbols stand in front of it; then it becomes the fragments of the
clause. -/
theorem normalize_clause (v : Vocabulary) {input : String} (h : '~' ∉ input.toList) :
    (∃! c : Clause, c.IsWellFormed ∧ c.text = input.toList) ∧
      ∀ c : Clause, c.IsWellFormed → c.text = input.toList →
        (∀ fs, fragments v input = .ok fs ↔ c.IsKnown v ∧ fs = c.fragments v) ∧
        ∀ out, normalize v input = .ok out ↔
          c.IsKnown v ∧ out = String.join (c.fragments v) := by
  refine ⟨?_, fun c hc htext => ?_⟩
  · obtain ⟨c, hc, htext⟩ := Clause.exists_isWellFormed input.toList
    refine ⟨c, ⟨hc, htext⟩, fun d hd => ?_⟩
    exact hd.1.eq_of_text_eq hc (hd.2.trans htext.symm)
  · rw [← htext] at h
    have hlead : '~' ∉ c.lead := fun hm => h (List.mem_append_left _ hm)
    have hfragments : ∀ fs, fragments v input = .ok fs ↔ c.IsKnown v ∧ fs = c.fragments v := by
      intro fs
      rw [fragments_eq_ok_iff, ← htext, shown_clause hc h, Clause.fits_lexemes_iff hlead,
        Clause.map_becomes_lexemes v hlead]
    exact ⟨hfragments, map_eq_ok_iff_of_eq_ok_iff hfragments String.join⟩

/-- A clause with all of its parts. The value starts with an operator, and is no truth value. -/
theorem normalize_clause_parts :
    '~' ∉ "( OrgName =: >= True ".toList ∧
      (∃! c : Clause, c.IsWellFormed ∧ c.text = "( OrgName =: >= True ".toList) ∧
      fragments .userQuery "( OrgName =: >= True " = .ok ["(", "orgName", "=:", ">= True "] := by
  have h : '~' ∉ "( OrgName =: >= True ".toList := by decide
  obtain ⟨hunique, hmeaning⟩ := normalize_clause .userQuery h
  refine ⟨h, hunique, ((hmeaning ⟨"( ".toList, "OrgName".toList, " ".toList, "=:".toList,
    " ".toList, ">= True ".toList⟩ ?_ ?_).1 _).mpr ⟨?_, ?_⟩⟩
  all_goals decide +kernel

/-! ## The operators of a query -/

theorem pieces_induction {P : List Char → Prop} (single : ∀ piece, '~' ∉ piece → P piece)
    (append : ∀ piece rest, '~' ∉ piece → P rest → P (piece ++ '~' :: rest)) (cs : List Char) :
    P cs := by
  induction hn : cs.length using Nat.strong_induction_on generalizing cs with
  | _ n ih =>
      by_cases ht : '~' ∈ cs
      · obtain ⟨piece, rest, rfl, hpiece⟩ := List.eq_append_cons_of_mem ht
        refine append piece rest hpiece (ih rest.length ?_ rest rfl)
        simp only [← hn, List.length_append, List.length_cons]
        omega
      · exact single cs ht

theorem tilde_not_mem_of_mem_splitOn {cs piece : List Char} (h : piece ∈ cs.splitOn '~') :
    '~' ∉ piece := by
  induction cs using pieces_induction with
  | single cs hcs =>
      rw [List.splitOn_eq_singleton hcs, List.mem_singleton] at h
      exact h ▸ hcs
  | append front rest hfront ih =>
      rw [List.splitOn_append_cons_self_of_not_mem hfront] at h
      rcases List.mem_cons.mp h with rfl | hrest
      · exact hfront
      · exact ih hrest

/-- **The lexemes of a query are those of its clauses**, and the tildes between them. -/
theorem mem_shown_iff {p : Token × List Char} (hp : p.1 ≠ .tilde) (cs : List Char) :
    p ∈ shown (cutting.lexemes .name cs) ↔
      ∃ c : Clause, c.IsWellFormed ∧ c.text ∈ cs.splitOn '~' ∧ p ∈ c.lexemes := by
  -- one clause in front of the others
  have hclause : ∀ piece, '~' ∉ piece → (p ∈ shown (cutting.lexemes .name piece) ↔
      ∃ c : Clause, c.IsWellFormed ∧ c.text = piece ∧ p ∈ c.lexemes) := by
    intro piece hpiece
    constructor
    · intro hmem
      obtain ⟨c, hc, rfl⟩ := Clause.exists_isWellFormed piece
      exact ⟨c, hc, rfl, shown_clause hc hpiece ▸ hmem⟩
    · rintro ⟨c, hc, rfl, hmem⟩
      exact (shown_clause hc hpiece).symm ▸ hmem
  induction cs using pieces_induction with
  | single cs hcs =>
      rw [hclause cs hcs, List.splitOn_eq_singleton hcs]
      simp only [List.mem_singleton]
  | append front rest hfront ih =>
      have hshown : shown (cutting.lexemes .name (front ++ '~' :: rest))
          = shown (cutting.lexemes .name front) ++
              (.tilde, ['~']) :: shown (cutting.lexemes .name rest) := by
        rw [Cutting.lexemes_append_tilde endsAtTilde_cutting hfront, shown_append]
        exact congrArg (_ ++ ·) ((shown_cons Token.noConfusion _).trans
          (congrArg (_ :: ·) (shown_shift _ _)))
      have hrest : p ∈ shown (cutting.lexemes .name rest) ↔ _ := ih
      have hne : p ≠ (.tilde, ['~']) := fun e => hp (congrArg Prod.fst e)
      rw [hshown, List.mem_append, List.mem_cons, hclause front hfront, hrest,
        List.splitOn_append_cons_self_of_not_mem hfront]
      simp only [hne, false_or, List.mem_cons, or_and_right, and_or_left, exists_or]

theorem Clause.mem_part_iff {token token' : Token} {cs w : List Char} :
    (token', w) ∈ part token cs ↔ token' = token ∧ cs = w ∧ w ≠ [] := by
  cases cs with
  | nil => simp +contextual [eq_comm]
  | cons ch run =>
      rw [part_cons, List.mem_singleton, Prod.mk.injEq, eq_comm (a := w)]
      refine and_congr_right fun _ => ⟨fun h => ⟨h, ?_⟩, And.left⟩
      rw [← h]
      exact List.cons_ne_nil _ _

theorem Clause.operator_mem_lexemes_iff {c : Clause} {w : List Char} :
    (.operator, w) ∈ c.lexemes ↔ c.operator = w ∧ w ≠ [] := by
  have hlead : (Token.operator, w) ∉ symbols c.lead := by
    intro h
    obtain ⟨ch, -, he⟩ := List.mem_map.mp h
    have htoken : (Token.ofSymbol? ch).getD .illegal = .operator := congrArg Prod.fst he
    exact ofSymbol?_getD_ne (by decide) ch htoken
  simp [lexemes, hlead, mem_part_iff]

/-- **The operators of a query are those of its clauses.** -/
theorem exists_operator_iff {input : List Char} {w : List Char} :
    (∃ l ∈ lexemes input, l.token = .operator ∧ l.chars = w) ↔
      ∃ c : Clause, c.IsWellFormed ∧ c.text ∈ input.splitOn '~' ∧ c.operator = w ∧ w ≠ [] := by
  have hshown : (∃ l ∈ lexemes input, l.token = .operator ∧ l.chars = w) ↔
      (.operator, w) ∈ shown (cutting.lexemes .name input) := by
    rw [lexemes_eq]
    simp only [shown, visible, List.mem_map, List.mem_filter, Prod.mk.injEq, bne_iff_ne]
    constructor
    · rintro ⟨l, hl, htoken, hchars⟩
      exact ⟨l, ⟨hl, by rw [htoken]; decide⟩, htoken, hchars⟩
    · rintro ⟨l, ⟨hl, -⟩, htoken, hchars⟩
      exact ⟨l, hl, htoken, hchars⟩
  rw [hshown, mem_shown_iff Token.noConfusion]
  simp only [Clause.operator_mem_lexemes_iff]

/-- **What operators are made of.** The first character of an operator is any that is no blank and
no tilde, and only those behind it are checked. So all operators of a query are made of operator
characters exactly if they start with one. -/
theorem operators_iff (input : String) :
    (∀ l ∈ lexemes input.toList, l.token = .operator → ∃ ch run, l.chars = ch :: run ∧
      isBlank ch = false ∧ ch ≠ '~' ∧ ∀ d ∈ run, Token.isOperator d = true) ∧
    ((∀ l ∈ lexemes input.toList, l.token = .operator →
        l.chars ≠ [] ∧ ∀ ch ∈ l.chars, Token.isOperator ch = true) ↔
      ∀ c : Clause, c.IsWellFormed → c.text ∈ input.toList.splitOn '~' →
        ∀ ch ∈ c.operator.head?, Token.isOperator ch = true) := by
  -- an operator is that of a clause, and nothing but its first character goes unchecked
  have hoperator : ∀ l ∈ lexemes input.toList, l.token = .operator →
      ∃ c : Clause, c.IsWellFormed ∧ c.text ∈ input.toList.splitOn '~' ∧
        ∃ ch run, c.operator = ch :: run ∧ l.chars = ch :: run := by
    intro l hl htoken
    obtain ⟨c, hc, htext, hchars, hne⟩ := exists_operator_iff.mp ⟨l, hl, htoken, rfl⟩
    obtain ⟨ch, run, hcons⟩ := List.exists_cons_of_ne_nil hne
    exact ⟨c, hc, htext, ch, run, hchars.trans hcons, hcons⟩
  refine ⟨fun l hl htoken => ?_, fun hall c hc htext ch hch => ?_, fun hall l hl htoken => ?_⟩
  · obtain ⟨c, hc, htext, ch, run, hcons, hchars⟩ := hoperator l hl htoken
    refine ⟨ch, run, hchars, hc.gap.2 ch ?_, ?_, ?_⟩
    · rw [hcons]
      rfl
    · rintro rfl
      refine tilde_not_mem_of_mem_splitOn htext ?_
      simp [Clause.text, Clause.behindName, hcons]
    · have hrun := hc.operator.1
      rwa [hcons] at hrun
  · obtain ⟨run, hcons⟩ := List.head?_eq_some_iff.mp hch
    obtain ⟨l, hl, htoken, hchars⟩ :=
      exists_operator_iff.mpr ⟨c, hc, htext, hcons, List.cons_ne_nil _ _⟩
    exact (hall l hl htoken).2 ch (hchars ▸ List.mem_cons_self)
  · obtain ⟨c, hc, htext, ch, run, hcons, hchars⟩ := hoperator l hl htoken
    have hrun := hc.operator.1
    rw [hcons] at hrun
    have hch := hall c hc htext ch (by rw [hcons]; rfl)
    rw [hchars]
    exact ⟨List.cons_ne_nil _ _, List.forall_mem_cons.mpr ⟨hch, hrun⟩⟩

/-- An exclamation mark behind a name is taken for an operator. -/
theorem exists_operator_exclamation :
    normalize .userQuery "orgname!5" = .ok "orgName!5" ∧
      ∃ l ∈ lexemes "orgname!5".toList, l.token = .operator ∧ l.literal = "!" ∧
        ∃ ch ∈ l.chars, Token.isOperator ch = false := by
  refine ⟨by decide +kernel, ⟨.operator, ['!'], ⟨7, 8⟩⟩, by decide +kernel, rfl, rfl, '!', ?_, ?_⟩
  all_goals decide

end Query

end Registrar
