import Mathlib.Data.List.Induction
import Registrar.Text.Cursor

/-!
# Walks through a text

A walk is a sequence of reads and unreads, each unread taking back the read directly before it.
Whatever the order of its steps, a walk can be followed by counting characters: as many are consumed
as there are reads that have not been taken back, up to the length of the text.

```
aé~     read   read   unread   read   read   read   unread   read     the steps
        a      é               é      ~      –               –        what they read
        1      3      1        3      4      4      4        4        the offset behind them
        1      2      1        2      3      3      3        3        the characters consumed
```

Two cursors are walked. A `Cursor` has the characters in front of it at hand; a `ByteCursor` has
nothing but the whole text, a byte offset into it and the width of what it has read last, so it can
miss the boundary of a character or be sent to a place in front of the text. It never does, and both
show the same at each step.

* `Walker.Counts.walk_eq` — a walk whose single steps can be followed by counting.
* `Cursor.counts_standsAt`, `ByteCursor.counts_standsAt` — the steps of both cursors.
* `Cursor.walk_isCounted` — all walks of both.
-/

set_option autoImplicit false

namespace Registrar.Text

/-! ## Walks -/

/-- A step of a walk. -/
inductive Move where
  | read
  | unread
deriving DecidableEq, Repr

theorem Move.count_unread_read : [Move.read].count .unread = 0 := rfl

theorem Move.count_read_unread : [Move.unread].count .read = 0 := rfl

/-- What a step shows: the character that a read has given, and the offset behind the step. -/
structure Sight where
  char : Option Char
  offset : Nat
deriving DecidableEq, Repr

/-- **What can be walked through a text.** A step that is refused gives nothing. -/
structure Walker (σ : Type) where
  read : σ → Option (Option Char × σ)
  unread : σ → Option σ
  offset : σ → Nat

namespace Walker

variable {σ : Type}

/-- One step: the character that a read gives, and the state behind the step. -/
def step (w : Walker σ) (s : σ) : Move → Option (Option Char × σ)
  | .read => w.read s
  | .unread => (w.unread s).map fun t => (none, t)

/-- **What the steps of a walk show**; nothing if one of them is refused. -/
def walk (w : Walker σ) (s : σ) : List Move → Option (List Sight)
  | [] => some []
  | move :: moves =>
      (w.step s move).bind fun (ch, t) => (w.walk t moves).map (⟨ch, w.offset t⟩ :: ·)

theorem walk_cons {w : Walker σ} {s t : σ} {move : Move} {ch : Option Char}
    (h : w.step s move = some (ch, t)) (moves : List Move) :
    w.walk s (move :: moves) = (w.walk t moves).map (⟨ch, w.offset t⟩ :: ·) := by
  rw [walk, h]
  rfl

end Walker

/-- **Whether each unread takes back the read directly before it.** -/
def TakesBackReads (moves : List Move) : Prop :=
  ∀ i < moves.length, moves[i]? = some .unread → 0 < i ∧ moves[i - 1]? = some .read

instance (moves : List Move) : Decidable (TakesBackReads moves) :=
  inferInstanceAs (Decidable (∀ i < moves.length, moves[i]? = some .unread →
    0 < i ∧ moves[i - 1]? = some .read))

namespace TakesBackReads

variable {moves more : List Move}

theorem of_append (h : TakesBackReads (moves ++ more)) : TakesBackReads moves := by
  intro i hi hmove
  have hlong : i < (moves ++ more).length := by
    rw [List.length_append]
    omega
  obtain ⟨hpos, hread⟩ := h i hlong (by rw [List.getElem?_append_left hi, hmove])
  refine ⟨hpos, ?_⟩
  rwa [List.getElem?_append_left (by omega)] at hread

theorem exists_read (h : TakesBackReads (moves ++ .unread :: more)) :
    ∃ front, moves = front ++ [.read] := by
  have hlong : moves.length < (moves ++ Move.unread :: more).length := by simp
  obtain ⟨hpos, hread⟩ := h moves.length hlong (by simp)
  rw [List.getElem?_append_left (by omega), ← List.getLast?_eq_getElem?] at hread
  exact List.getLast?_eq_some_iff.mp hread

/-- **No more is taken back than has been read**, and less if a read is the last step. -/
theorem count_unread_le (h : TakesBackReads moves) :
    moves.count .unread ≤ moves.count .read ∧
      ∀ front, moves = front ++ [.read] → moves.count .unread < moves.count .read := by
  -- from the first step to the last: an unread goes with the read that is the last step so far
  induction moves using List.reverseRecOn with
  | nil => simp
  | append_singleton front move ih =>
      obtain ⟨hle, hlt⟩ := ih h.of_append
      cases move with
      | read =>
          simp only [List.count_append, List.count_singleton_self, Move.count_unread_read]
          exact ⟨by omega, fun _ _ => by omega⟩
      | unread =>
          obtain ⟨front', hfront⟩ := exists_read h
          have := hlt front' hfront
          simp only [List.count_append, List.count_singleton_self, Move.count_read_unread]
          refine ⟨by omega, fun other hother => ?_⟩
          have := List.append_inj_right' hother rfl
          cases this

end TakesBackReads

/-! ## Counting characters -/

/-- **The number of characters consumed** behind steps through a text of some length. -/
def consumed (length : Nat) (moves : List Move) : Nat :=
  min length (moves.count .read - moves.count .unread)

/-- The number of characters that were consumed before the last step, if that is a read. -/
def consumedBefore (length : Nat) (moves : List Move) : Option Nat :=
  if moves.getLast? = some .read then some (consumed length moves.dropLast) else none

section
variable (n : Nat) (moves : List Move)

theorem consumed_nil : consumed n [] = 0 := by
  simp [consumed]

theorem consumed_le : consumed n moves ≤ n := Nat.min_le_left _ _

theorem consumed_read {moves : List Move} (h : TakesBackReads moves) :
    consumed n (moves ++ [.read]) = min n (consumed n moves + 1) := by
  have hle := h.count_unread_le.1
  unfold consumed
  simp only [List.count_append, List.count_singleton_self, Move.count_unread_read]
  omega

/-- **Taking a read back** leaves what there was before the read. -/
theorem consumed_unread : consumed n (moves ++ [.read] ++ [.unread]) = consumed n moves := by
  unfold consumed
  simp only [List.count_append, List.count_singleton_self, Move.count_unread_read,
    Move.count_read_unread]
  omega

theorem consumedBefore_read : consumedBefore n (moves ++ [.read]) = some (consumed n moves) := by
  simp [consumedBefore]

theorem consumedBefore_unread : consumedBefore n (moves ++ [.unread]) = none := by
  simp [consumedBefore]

end

/-- What a step behind other steps shows, by counting. -/
def sightBehind (input : List Char) (front : List Move) (move : Move) : Sight where
  char := if move = .read then input[consumed input.length front]? else none
  offset := byteLength (input.take (consumed input.length (front ++ [move])))

/-- What steps behind other steps show, by counting. -/
def countedSights (input : List Char) (front moves : List Move) : List Sight :=
  moves.mapIdx fun i move => sightBehind input (front ++ moves.take i) move

theorem countedSights_cons (input : List Char) (front : List Move) (move : Move)
    (moves : List Move) :
    countedSights input front (move :: moves)
      = sightBehind input front move :: countedSights input (front ++ [move]) moves := by
  simp [countedSights, List.mapIdx_cons]

/-- **Whether single steps can be followed by counting.** `R k before s` says that `k` characters
are consumed in the state `s`, and that `before` were before the read that can be taken back. -/
structure Walker.Counts {σ : Type} (w : Walker σ) (input : List Char)
    (R : Nat → Option Nat → σ → Prop) : Prop where
  le_length : ∀ {k before s}, R k before s → k ≤ input.length
  offset : ∀ {k before s}, R k before s → w.offset s = byteLength (input.take k)
  char : ∀ {k before s ch rest}, R k before s → input.drop k = ch :: rest →
    ∃ t, w.read s = some (some ch, t) ∧ R (k + 1) (some k) t
  atEnd : ∀ {k before s}, R k before s → input.drop k = [] →
    ∃ t, w.read s = some (none, t) ∧ R k (some k) t
  unread : ∀ {k j s}, R k (some j) s → ∃ t, w.unread s = some t ∧ R j none t

namespace Walker.Counts

variable {σ : Type} {w : Walker σ} {input : List Char} {R : Nat → Option Nat → σ → Prop}

/-- A read gives the next character and consumes it, if there is one. -/
theorem read (hw : w.Counts input R) {k : Nat} {before : Option Nat} {s : σ}
    (hs : R k before s) :
    ∃ t, w.read s = some (input[k]?, t) ∧ R (min input.length (k + 1)) (some k) t := by
  have hle := hw.le_length hs
  rw [← List.head?_drop]
  cases hnext : input.drop k with
  | nil =>
      have hend : input.length ≤ k := List.drop_eq_nil_iff.mp hnext
      have hmin : min input.length (k + 1) = k := by omega
      rw [hmin]
      exact hw.atEnd hs hnext
  | cons ch rest =>
      have hlength : input.length - k = rest.length + 1 := by
        rw [← List.length_drop, hnext, List.length_cons]
      have hmin : min input.length (k + 1) = k + 1 := by omega
      rw [hmin]
      exact hw.char hs hnext

/-- **A walk can be followed by counting if its single steps can.** -/
theorem walk_eq (hw : w.Counts input R) {front moves : List Move}
    (h : TakesBackReads (front ++ moves)) {s : σ}
    (hs : R (consumed input.length front) (consumedBefore input.length front) s) :
    w.walk s moves = some (countedSights input front moves) := by
  induction moves generalizing front s with
  | nil => rfl
  | cons move moves ih =>
      have hmore : TakesBackReads ((front ++ [move]) ++ moves) := by
        rwa [List.append_assoc, List.singleton_append]
      -- the state behind the step has been counted, too
      have hstep : ∃ t, w.step s move = some ((sightBehind input front move).char, t) ∧
          R (consumed input.length (front ++ [move]))
            (consumedBefore input.length (front ++ [move])) t := by
        cases move with
        | read =>
            obtain ⟨t, hread, ht⟩ := hw.read hs
            refine ⟨t, hread, ?_⟩
            rw [consumed_read _ h.of_append, consumedBefore_read]
            exact ht
        | unread =>
            obtain ⟨front', rfl⟩ := h.exists_read
            rw [consumedBefore_read] at hs
            obtain ⟨t, hunread, ht⟩ := hw.unread hs
            refine ⟨t, ?_, ?_⟩
            · show (w.unread s).map _ = _
              rw [hunread]
              rfl
            · rw [consumed_unread, consumedBefore_unread]
              exact ht
      obtain ⟨t, hmove, ht⟩ := hstep
      have hoffset : w.offset t = (sightBehind input front move).offset := hw.offset ht
      rw [walk_cons hmove, ih hmore ht, hoffset, countedSights_cons]
      rfl

theorem walk_of_start (hw : w.Counts input R) {moves : List Move} {s : σ} (hs : R 0 none s)
    (h : TakesBackReads moves) : w.walk s moves = some (countedSights input [] moves) := by
  have hwalk : R (consumed input.length []) (consumedBefore input.length []) s := by
    rw [consumed_nil]
    exact hs
  have hmoves : TakesBackReads ([] ++ moves) := h
  exact hw.walk_eq hmoves hwalk

end Walker.Counts

/-! ## Parts of a text -/

/-- The characters from number `j` up to number `k`. -/
def between (input : List Char) (j k : Nat) : List Char := (input.take k).drop j

section
variable {input : List Char} {j k : Nat}

theorem between_self : between input k k = [] :=
  List.drop_eq_nil_of_le (List.length_take_le k input)

/-- What stands between two numbers ends the one start of the text … -/
theorem take_append_between (h : j ≤ k) : input.take j ++ between input j k = input.take k := by
  have hfront : (input.take k).take j = input.take j := by
    rw [List.take_take, Nat.min_eq_left h]
  rw [← hfront, between, List.take_append_drop]

/-- … and begins the rest behind the other. -/
theorem between_append_drop (h : j ≤ k) (hk : k ≤ input.length) :
    between input j k ++ input.drop k = input.drop j := by
  have hlong : j ≤ (input.take k).length := by
    rw [List.length_take_of_le hk]
    exact h
  rw [between, ← List.drop_append_of_le_length hlong, List.take_append_drop]

theorem byteLength_between (input : List Char) (h : j ≤ k) :
    byteLength (input.take j) + byteLength (between input j k) = byteLength (input.take k) := by
  rw [← byteLength_append, take_append_between h]

theorem between_succ {ch : Char} {rest : List Char} (h : input.drop k = ch :: rest) :
    between input k (k + 1) = [ch] := by
  unfold between
  rw [List.drop_take, h, Nat.add_sub_cancel_left]
  rfl

end

/-- **Whether numbers of characters are places in a text**: `k` consumed now, and `before` before
the read that can be taken back. -/
structure Fits (input : List Char) (k : Nat) (before : Option Nat) : Prop where
  le_length : k ≤ input.length
  le : ∀ j ∈ before, j ≤ k

namespace Fits

variable {input : List Char} {k j : Nat} {before : Option Nat}

theorem start (input : List Char) : Fits input 0 none :=
  ⟨Nat.zero_le _, fun _ h => by cases h⟩

theorem char {ch : Char} {rest : List Char} (h : input.drop k = ch :: rest) :
    Fits input (k + 1) (some k) where
  le_length := by
    have hlength := congrArg List.length h
    rw [List.length_drop, List.length_cons] at hlength
    omega
  le j hj := by
    cases hj
    exact Nat.le_succ k

theorem atEnd (h : Fits input k before) : Fits input k (some k) where
  le_length := h.le_length
  le j hj := by
    cases hj
    exact Nat.le_refl k

theorem unread (h : Fits input k (some j)) : Fits input j none where
  le_length := Nat.le_trans (h.le j rfl) h.le_length
  le _ hj := by cases hj

end Fits

/-! ## Cursors with the characters at hand -/

namespace Cursor

/-- A cursor can be walked. -/
def walker : Walker Cursor where
  read c := some c.read
  unread := unread
  offset := offset

/-- **Whether a cursor stands at a place**: behind `k` characters, with what stands between there
and `before` to be taken back. -/
structure StandsAt (input : List Char) (k : Nat) (before : Option Nat) (c : Cursor) : Prop where
  fits : Fits input k before
  offset : c.offset = byteLength (input.take k)
  rest : c.rest = input.drop k
  last : c.last = before.map fun j => between input j k

variable {input : List Char}

theorem standsAt_atStart (input : List Char) : StandsAt input 0 none (.atStart input) :=
  ⟨Fits.start input, rfl, rfl, rfl⟩

theorem StandsAt.char {k : Nat} {before : Option Nat} {c : Cursor} (h : StandsAt input k before c)
    {ch : Char} {rest : List Char} (hnext : input.drop k = ch :: rest) :
    c.read.1 = some ch ∧ StandsAt input (k + 1) (some k) c.read.2 := by
  have hread : c.read = (some ch, ⟨c.offset + ch.utf8Size, rest, some [ch]⟩) := by
    rw [Cursor.read, h.rest, hnext]
  have hbetween : between input k (k + 1) = [ch] := between_succ hnext
  rw [hread]
  refine ⟨rfl, .char hnext, ?_, ?_, ?_⟩
  · rw [← byteLength_between input (Nat.le_succ k), hbetween, ← h.offset]
    rfl
  · rw [← List.tail_drop, hnext]
    rfl
  · rw [Option.map_some, hbetween]

theorem StandsAt.atEnd {k : Nat} {before : Option Nat} {c : Cursor}
    (h : StandsAt input k before c) (hnext : input.drop k = []) :
    c.read.1 = none ∧ StandsAt input k (some k) c.read.2 := by
  have hread : c.read = (none, ⟨c.offset, [], some []⟩) := by
    rw [Cursor.read, h.rest, hnext]
  rw [hread]
  refine ⟨rfl, h.fits.atEnd, h.offset, hnext.symm, ?_⟩
  rw [Option.map_some, between_self]

theorem StandsAt.unread {k j : Nat} {c : Cursor} (h : StandsAt input k (some j) c) :
    ∃ d, c.unread = some d ∧ StandsAt input j none d := by
  have hle := h.fits.le j rfl
  refine ⟨⟨c.offset - byteLength (between input j k), between input j k ++ c.rest, none⟩, ?_, ?_⟩
  · unfold Cursor.unread
    rw [h.last]
    rfl
  · refine ⟨h.fits.unread, ?_, ?_, rfl⟩
    · have hsum := byteLength_between input hle
      rw [h.offset]
      show byteLength (input.take k) - byteLength (between input j k) = _
      omega
    · show between input j k ++ c.rest = input.drop j
      rw [h.rest, between_append_drop hle h.fits.le_length]

/-- **The steps of a cursor can be followed by counting.** -/
theorem counts_standsAt (input : List Char) : walker.Counts input (StandsAt input) where
  le_length h := h.fits.le_length
  offset h := h.offset
  char {_ _ c _ _} h hnext := by
    obtain ⟨hch, hstands⟩ := h.char hnext
    exact ⟨c.read.2, congrArg (fun ch => some (ch, c.read.2)) hch, hstands⟩
  atEnd {_ _ c} h hnext := by
    obtain ⟨hch, hstands⟩ := h.atEnd hnext
    exact ⟨c.read.2, congrArg (fun ch => some (ch, c.read.2)) hch, hstands⟩
  unread h := h.unread

end Cursor

/-! ## Cursors with an offset only -/

theorem byteLength_eq (cs : List Char) : byteLength cs = (String.ofList cs).utf8ByteSize := by
  induction cs with
  | nil => rfl
  | cons c cs ih =>
      rw [byteLength_cons, ih, String.ofList_cons, String.utf8ByteSize_append,
        String.utf8ByteSize_singleton]

theorem isValid_byteLength_take (s : String) (k : Nat) :
    (⟨byteLength (s.toList.take k)⟩ : String.Pos.Raw).IsValid s :=
  String.Pos.Raw.isValid_iff_exists_take_toList.mpr ⟨k, byteLength_eq _⟩

theorem get?_of_splits {s front rest : String} {p : s.Pos} (h : p.Splits front rest) :
    p.get? = rest.toList.head? := by
  by_cases hend : p = s.endPos
  · rw [String.Pos.get?_eq_none hend, h.eq_endPos_iff.mp hend]
    rfl
  · rw [String.Pos.get?_eq_some_get hend, h.eq_right (p.splits_next_right hend)]
    simp

/-- **A byte offset into a text**, and the width of what has been read last, if it has not been
taken back. -/
structure ByteCursor where
  text : String
  offset : Nat
  width : Option Nat := none

namespace ByteCursor

def atStart (s : String) : ByteCursor := { text := s, offset := 0 }

/-- The character at the offset, and the byte cursor behind it. Refused if the offset is none
between two characters of the text. -/
def read (c : ByteCursor) : Option (Option Char × ByteCursor) :=
  if h : (⟨c.offset⟩ : String.Pos.Raw).IsValid c.text then
    match (c.text.pos ⟨c.offset⟩ h).get? with
    | some ch =>
        some (some ch, { c with offset := c.offset + ch.utf8Size, width := some ch.utf8Size })
    | none => some (none, { c with width := some 0 })
  else none

/-- The byte cursor in front of what has been read last. Refused if nothing has been, or if that
would lead in front of the text. -/
def unread (c : ByteCursor) : Option ByteCursor :=
  c.width.bind fun width =>
    if width ≤ c.offset then some { c with offset := c.offset - width, width := none } else none

/-- A byte cursor can be walked. -/
def walker : Walker ByteCursor := ⟨read, unread, offset⟩

/-- **Whether a byte cursor stands at a place**: behind `k` characters, with the width of what
stands between there and `before` to be taken back. -/
structure StandsAt (s : String) (k : Nat) (before : Option Nat) (c : ByteCursor) : Prop where
  fits : Fits s.toList k before
  text : c.text = s
  offset : c.offset = byteLength (s.toList.take k)
  width : c.width = before.map fun j => byteLength (between s.toList j k)

theorem standsAt_atStart (s : String) : StandsAt s 0 none (.atStart s) :=
  ⟨Fits.start _, rfl, rfl, rfl⟩

/-- **At a place no read is refused**, and it gives the character behind. -/
theorem StandsAt.read_eq {s : String} {k : Nat} {before : Option Nat} {c : ByteCursor}
    (h : StandsAt s k before c) :
    c.read = some (match (s.toList.drop k).head? with
      | some ch => (some ch, ⟨s, c.offset + ch.utf8Size, ch.utf8Size⟩)
      | none => (none, ⟨s, c.offset, some 0⟩)) := by
  obtain ⟨-, rfl, hoffset, -⟩ := h
  have hvalid : (⟨c.offset⟩ : String.Pos.Raw).IsValid c.text := by
    rw [hoffset]
    exact isValid_byteLength_take c.text k
  -- the place splits the text into the characters consumed and those to come
  have hsplits : (c.text.pos _ hvalid).Splits (.ofList (c.text.toList.take k))
      (.ofList (c.text.toList.drop k)) := by
    refine ⟨?_, ?_⟩
    · rw [← String.ofList_append, List.take_append_drop, String.ofList_toList]
    · rw [String.offset_pos]
      exact String.Pos.Raw.ext (hoffset.trans (byteLength_eq _))
  have hget : (c.text.pos _ hvalid).get? = (c.text.toList.drop k).head? := by
    rw [get?_of_splits hsplits, String.toList_ofList]
  unfold read
  rw [dif_pos hvalid, hget]
  cases (c.text.toList.drop k).head? with
  | none => rfl
  | some ch => rfl

theorem StandsAt.char {s : String} {k : Nat} {before : Option Nat} {c : ByteCursor}
    (h : StandsAt s k before c) {ch : Char} {rest : List Char}
    (hnext : s.toList.drop k = ch :: rest) :
    ∃ d, c.read = some (some ch, d) ∧ StandsAt s (k + 1) (some k) d := by
  have hbetween : between s.toList k (k + 1) = [ch] := between_succ hnext
  refine ⟨⟨s, c.offset + ch.utf8Size, ch.utf8Size⟩, ?_, .char hnext, rfl, ?_, ?_⟩
  · rw [h.read_eq, hnext]
    rfl
  · rw [← byteLength_between s.toList (Nat.le_succ k), hbetween, ← h.offset]
    rfl
  · rw [Option.map_some, hbetween]
    rfl

theorem StandsAt.atEnd {s : String} {k : Nat} {before : Option Nat} {c : ByteCursor}
    (h : StandsAt s k before c) (hnext : s.toList.drop k = []) :
    ∃ d, c.read = some (none, d) ∧ StandsAt s k (some k) d := by
  refine ⟨⟨s, c.offset, some 0⟩, ?_, h.fits.atEnd, rfl, h.offset, ?_⟩
  · rw [h.read_eq, hnext]
    rfl
  · rw [Option.map_some, between_self]
    rfl

theorem StandsAt.unread {s : String} {k j : Nat} {c : ByteCursor}
    (h : StandsAt s k (some j) c) : ∃ d, c.unread = some d ∧ StandsAt s j none d := by
  have hsum := byteLength_between s.toList (h.fits.le j rfl)
  have hle : byteLength (between s.toList j k) ≤ c.offset := by
    rw [h.offset]
    omega
  refine ⟨⟨c.text, c.offset - byteLength (between s.toList j k), none⟩, ?_, ?_⟩
  · unfold ByteCursor.unread
    rw [h.width]
    show (if byteLength (between s.toList j k) ≤ c.offset then _ else none) = _
    rw [if_pos hle]
  · refine ⟨h.fits.unread, h.text, ?_, rfl⟩
    show c.offset - byteLength (between s.toList j k) = _
    rw [h.offset]
    omega

/-- **The steps of a byte cursor can be followed by counting.** -/
theorem counts_standsAt (s : String) : walker.Counts s.toList (StandsAt s) where
  le_length h := h.fits.le_length
  offset h := h.offset
  char h hnext := h.char hnext
  atEnd h hnext := h.atEnd hnext
  unread h := h.unread

end ByteCursor

/-! ## All walks -/

/-- **Whether a walk shows what counting characters says.** `k i` characters are consumed before
step `i`. -/
structure IsCounted (input : String) (moves : List Move) (sights : List Sight) (k : Nat → Nat) :
    Prop where
  /-- Each step shows something. -/
  length : sights.length = moves.length
  /-- At first nothing is consumed, and never more than there is. -/
  start : k 0 = 0
  within : ∀ i, k i ≤ input.length
  /-- The offset behind a step is that of the characters consumed, on a boundary of the text. -/
  offset : ∀ i sight, sights[i]? = some sight →
    sight.offset = byteLength (input.toList.take (k (i + 1)))
  boundary : ∀ sight ∈ sights, (⟨sight.offset⟩ : String.Pos.Raw).IsValid input
  /-- A read gives the next character, if there is one, … -/
  char : ∀ i sight, moves[i]? = some .read → sights[i]? = some sight →
    sight.char = input.toList[k i]?
  /-- … and consumes it, … -/
  read : ∀ i, moves[i]? = some .read → k i < input.length → k (i + 1) = k i + 1
  /-- … but moves nothing at the end. -/
  atEnd : ∀ i, moves[i]? = some .read → k i = input.length → k (i + 1) = k i
  /-- An unread leaves what was there before the read in front of it, at the end, too. -/
  unread : ∀ i, moves[i + 1]? = some .unread → k (i + 2) = k i

section
variable {input : String} {moves : List Move}

theorem getElem?_countedSights {input : List Char} {sight : Sight} {i : Nat}
    (h : (countedSights input [] moves)[i]? = some sight) :
    ∃ move, moves[i]? = some move ∧ moves.take (i + 1) = moves.take i ++ [move] ∧
      sight = sightBehind input (moves.take i) move := by
  unfold countedSights at h
  rw [List.getElem?_mapIdx, Option.map_eq_some_iff] at h
  obtain ⟨move, hmove, rfl⟩ := h
  refine ⟨move, hmove, ?_, rfl⟩
  rw [List.take_add_one, hmove]
  rfl

theorem consumed_take_read (h : TakesBackReads moves) (n : Nat) {i : Nat}
    (hread : moves[i]? = some .read) :
    consumed n (moves.take (i + 1)) = min n (consumed n (moves.take i) + 1) := by
  have hwhole : TakesBackReads (moves.take i ++ moves.drop i) := by
    rwa [List.take_append_drop]
  have hfront : TakesBackReads (moves.take i) := hwhole.of_append
  rw [List.take_add_one, hread]
  exact consumed_read n hfront

theorem consumed_take_unread (h : TakesBackReads moves) (n : Nat) {i : Nat}
    (hunread : moves[i + 1]? = some .unread) :
    consumed n (moves.take (i + 2)) = consumed n (moves.take i) := by
  have hlong : i + 1 < moves.length := (List.getElem?_eq_some_iff.mp hunread).1
  have hread : moves[i]? = some .read := (h (i + 1) hlong hunread).2
  rw [List.take_add_one, hunread, List.take_add_one, hread]
  exact consumed_unread n _

/-- **What counting shows is counted**: the characters consumed are the reads that have not been
taken back. -/
theorem isCounted_countedSights (h : TakesBackReads moves) :
    IsCounted input moves (countedSights input.toList [] moves)
      fun i => consumed input.length (moves.take i) where
  length := List.length_mapIdx
  start := consumed_nil _
  within _ := consumed_le _ _
  offset i sight hsight := by
    obtain ⟨move, -, htake, rfl⟩ := getElem?_countedSights hsight
    rw [htake, ← String.length_toList]
    rfl
  boundary sight hsight := by
    obtain ⟨i, hi⟩ := List.mem_iff_getElem?.mp hsight
    obtain ⟨move, -, -, rfl⟩ := getElem?_countedSights hi
    exact isValid_byteLength_take _ _
  char i sight hread hsight := by
    obtain ⟨move, hmove, -, rfl⟩ := getElem?_countedSights hsight
    obtain rfl : move = .read := Option.some.inj (hmove.symm.trans hread)
    rw [← String.length_toList]
    rfl
  read i hread hlt := by
    rw [consumed_take_read h _ hread]
    omega
  atEnd i hread hend := by
    rw [consumed_take_read h _ hread]
    omega
  unread i hunread := consumed_take_unread h _ hunread

end

/-- **Every walk that takes back only the read directly before can be followed by counting.** Both
cursors take all of its steps and show the same at each: a cursor over the characters, and a byte
cursor, which can neither miss a boundary nor underflow. The characters consumed before a step are
those of the reads less those taken back, up to the length of the text. -/
theorem Cursor.walk_isCounted (input : String) (moves : List Move) (h : TakesBackReads moves) :
    ∃ sights, Cursor.walker.walk (.atStart input.toList) moves = some sights ∧
      ByteCursor.walker.walk (.atStart input) moves = some sights ∧
      IsCounted input moves sights fun i =>
        min input.length ((moves.take i).count .read - (moves.take i).count .unread) := by
  refine ⟨countedSights input.toList [] moves, ?_, ?_, isCounted_countedSights h⟩
  · exact (Cursor.counts_standsAt input.toList).walk_of_start (Cursor.standsAt_atStart _) h
  · exact (ByteCursor.counts_standsAt input).walk_of_start (ByteCursor.standsAt_atStart _) h

/-- A walk that takes back a letter of two bytes and, later, a read at the end of the text. -/
theorem Cursor.walk_isCounted_letter :
    let moves : List Move := [.read, .read, .unread, .read, .read, .read, .unread, .read]
    let sights : List Sight := [⟨some 'a', 1⟩, ⟨some 'é', 3⟩, ⟨none, 1⟩, ⟨some 'é', 3⟩,
      ⟨some '~', 4⟩, ⟨none, 4⟩, ⟨none, 4⟩, ⟨none, 4⟩]
    TakesBackReads moves ∧
      Cursor.walker.walk (.atStart "aé~".toList) moves = some sights ∧
      ByteCursor.walker.walk (.atStart "aé~") moves = some sights ∧
      IsCounted "aé~" moves sights fun i =>
        min 3 ((moves.take i).count .read - (moves.take i).count .unread) := by
  intro moves sights
  have hmoves : TakesBackReads moves := by decide
  have hshown : Cursor.walker.walk (.atStart "aé~".toList) moves = some sights := by decide
  obtain ⟨sights', hcursor, hbytes, hcounted⟩ := Cursor.walk_isCounted "aé~" moves hmoves
  obtain rfl : sights' = sights := Option.some.inj (hcursor.symm.trans hshown)
  exact ⟨hmoves, hcursor, hbytes, hcounted⟩

end Registrar.Text
