import BslNav.Proofs.Text.Bytes
import BslNav.Proofs.Text.Lines
import Mathlib.Data.List.Basic

/-!
# BslNav.Proofs.Text.Newlines

Positions measured in the bytes of a text.

The index is built from characters, each as wide as its encoding.  In UTF-8 the
byte of a line break stands for nothing else, so the bytes alone say where lines
start and how long they are:

* `toList_starts` — lines start at zero and just after each newline;
* `partitionPoint_starts` — the search counts the newlines before an offset;
* `toList_starts_eq_startsOf` — starts are as far apart as the lines between them
  are long;
* `position_counts_newlines`, `offset_position_inverse` — what positions are, and
  which of them an offset gives back.
-/

namespace BslNav

/-- The byte of a line break. -/
def newline : UInt8 := 10

/-- The lines of bytes, without the line breaks between them. -/
def linesOf (bytes : List UInt8) : List (List UInt8) := bytes.splitOn newline

/-- The line of the offset begins at `start`: just after the last newline among the
bytes before the offset, or at zero if there is none. -/
structure BeginsLine (bytes : List UInt8) (offset start : Nat) : Prop where
  start_le : start ≤ offset
  zero_or_after : start = 0 ∨ ∃ k, start = k + 1 ∧ bytes[k]? = some newline
  none_between : ∀ k, start ≤ k → k < offset → bytes[k]? ≠ some newline

/-! ## the byte of a line break -/

theorem ofNat_eq_newline_iff {n : Nat} (h : n < 256) : UInt8.ofNat n = newline ↔ n = 10 := by
  rw [newline, ← UInt8.toNat_inj, UInt8.toNat_ofNat_of_lt' h]
  rfl

theorem newline_not_mem_utf8EncodeChar {c : Char} (h : c ≠ '\n') :
    newline ∉ String.utf8EncodeChar c := by
  have hval : c.val.toNat ≠ 10 := fun hc => h (Char.ext (UInt32.toNat_inj.mp hc))
  unfold String.utf8EncodeChar
  dsimp only
  -- every byte of an encoding of more than one is at least 128
  split_ifs <;>
    simp only [List.mem_cons, List.not_mem_nil, or_false, eq_comm (a := newline)] <;>
    simp (disch := omega) only [ofNat_eq_newline_iff] <;>
    omega

/-- Counting the places before a bound counts the elements before it. -/
theorem countP_findIdxs (p : α → Bool) (xs : List α) (start n : Nat) :
    (xs.findIdxs p start).countP (fun i => decide (i < start + n)) = (xs.take n).countP p := by
  induction xs generalizing start n with
  | nil => simp
  | cons x xs ih =>
      cases n with
      | zero =>
          rw [List.take_zero, List.countP_nil, List.countP_eq_zero]
          intro i hi
          have hle := List.ge_of_mem_findIdxs i hi
          rw [decide_eq_true_eq]
          omega
      | succ n =>
          have ih := ih (start + 1) n
          rw [Nat.add_right_comm start 1 n] at ih
          rw [List.take_succ_cons, List.countP_cons, List.findIdxs_cons, ← ih]
          split <;> simp [Nat.add_assoc]

namespace LineIndex

/-! ## where lines start -/

theorem startsAfter_eq_findIdxs (offset : Nat) (cs : List Char) :
    startsAfter offset cs =
      ((cs.flatMap String.utf8EncodeChar).findIdxs (· == newline) offset).map (· + 1) := by
  induction cs generalizing offset with
  | nil => rfl
  | cons c cs ih =>
      rw [startsAfter, List.flatMap_cons, List.findIdxs_append, List.map_append,
        String.length_utf8EncodeChar, ← ih]
      split
      · next h =>
        subst h
        rfl
      · next h =>
        have hnone : (String.utf8EncodeChar c).findIdxs (· == newline) offset = [] := by
          rw [List.findIdxs_eq_nil_iff]
          intro b hb
          exact beq_false_of_ne fun he => newline_not_mem_utf8EncodeChar h (he ▸ hb)
        rw [hnone, List.map_nil, List.nil_append]

variable (text : String) {i s offset : Nat} {p : Position}

theorem toList_starts : (ofText text).starts.toList =
    0 :: ((bytesOf text).findIdxs (· == newline)).map (· + 1) := by
  rw [bytesOf_eq_flatMap, ← startsAfter_eq_findIdxs]
  rfl

theorem mem_starts_iff : s ∈ (ofText text).starts ↔
    s = 0 ∨ ∃ k, s = k + 1 ∧ (bytesOf text)[k]? = some newline := by
  rw [← Array.mem_toList_iff, toList_starts, List.mem_cons, List.mem_map]
  simp only [List.mem_findIdxs_iff_exists_getElem_pos, beq_iff_eq, List.getElem?_eq_some_iff,
    and_comm, eq_comm (a := s)]

theorem start_le_length (h : s ∈ (ofText text).starts) : s ≤ (bytesOf text).length := by
  obtain rfl | ⟨k, rfl, hk⟩ := (mem_starts_iff text).mp h
  · exact Nat.zero_le _
  · exact (List.getElem?_eq_some_iff.mp hk).1

theorem size_eq_count : (ofText text).size = (bytesOf text).count newline + 1 := by
  rw [size, ← Array.length_toList, toList_starts, List.length_cons, List.length_map,
    List.length_findIdxs, List.count]

/-- As many lines start at or before an offset as newlines come before it, and one
more. -/
theorem partitionPoint_starts (offset : Nat) :
    partitionPoint (fun start => decide (start ≤ offset)) (ofText text).starts =
      ((bytesOf text).take offset).count newline + 1 := by
  have hcount := countP_findIdxs (· == newline) (bytesOf text) 0 offset
  rw [Nat.zero_add] at hcount
  have hafter : (fun start => decide (start ≤ offset)) ∘ (· + 1) = fun k => decide (k < offset) :=
    rfl
  rw [partitionPoint_eq_countP (partitioned_starts text offset), toList_starts, List.countP_cons,
    List.countP_map, hafter, hcount, if_pos (decide_eq_true (Nat.zero_le offset)), List.count]

theorem beginsLine_start
    (hs : (ofText text).starts[((ofText text).position offset).line]? = some s)
    (hle : s ≤ offset) : BeginsLine (bytesOf text) offset s where
  start_le := hle
  zero_or_after := (mem_starts_iff text).mp (Array.mem_of_getElem? hs)
  none_between := by
    intro k hk hlt hnewline
    -- the line after this newline would start by the offset as well
    have hmem := (mem_starts_iff text).mpr (.inr ⟨k, rfl, hnewline⟩)
    obtain ⟨i, hi⟩ := Array.mem_iff_getElem?.mp hmem
    have hline := (start_le_iff_le_line text offset hi).mp hlt
    obtain hbefore | rfl := Nat.lt_or_eq_of_le hline
    · have hstart := start_lt_start text hi hs hbefore
      omega
    · rw [hi] at hs
      have hstart := Option.some.inj hs
      omega

/-- **Positions are exact.**  The line of an offset is the number of newlines before
it, its column the distance from the last of them.  On the way the search finds a
line, that line is in the index, and it starts at or before the offset; no start
lies beyond the text. -/
theorem position_counts_newlines (offset : Nat) :
    ∃ start, BeginsLine (bytesOf text) offset start ∧
      (ofText text).position offset =
        ⟨((bytesOf text).take offset).count newline, offset - start⟩ ∧
      (ofText text).size = (bytesOf text).count newline + 1 ∧
      partitionPoint (fun s => decide (s ≤ offset)) (ofText text).starts =
        ((ofText text).position offset).line + 1 ∧
      (ofText text).starts[((ofText text).position offset).line]? = some start ∧
      ∀ s ∈ (ofText text).starts, s ≤ (bytesOf text).length := by
  obtain ⟨start, hstart, hsum⟩ := exists_start text offset
  have hpoint := partitionPoint_starts text offset
  have hline : ((ofText text).position offset).line =
      ((bytesOf text).take offset).count newline := by
    rw [line_position, hpoint, Nat.add_sub_cancel]
  have hcharacter : ((ofText text).position offset).character = offset - start := by omega
  refine ⟨start, beginsLine_start text hstart (by omega), ?_, size_eq_count text, ?_, hstart,
    fun s => start_le_length text⟩
  · rw [← hline, ← hcharacter]
  · rw [hpoint, hline]

/-! ## how long lines are -/

/-- The offsets at which the lines start, the first of them at `offset`. -/
def startsOf (offset : Nat) : List (List UInt8) → List Nat
  | [] => []
  | line :: lines => offset :: startsOf (offset + line.length + 1) lines

theorem length_startsOf (offset : Nat) (lines : List (List UInt8)) :
    (startsOf offset lines).length = lines.length := by
  induction lines generalizing offset with
  | nil => rfl
  | cons line lines ih => rw [startsOf, List.length_cons, ih, List.length_cons]

theorem startsOf_linesOf (offset : Nat) (bytes : List UInt8) :
    startsOf offset (linesOf bytes) =
      offset :: (bytes.findIdxs (· == newline) offset).map (· + 1) := by
  induction bytes generalizing offset with
  | nil => rfl
  | cons b bytes ih =>
      have ih := ih (offset + 1)
      rw [linesOf] at ih ⊢
      rw [List.splitOn_cons_eq_if_modifyHead, List.findIdxs_cons]
      split
      · rw [startsOf, List.length_nil, Nat.add_zero, ih, List.map_cons]
      · -- the byte lengthens the first line of the rest
        obtain ⟨line, lines, hlines⟩ := List.exists_cons_of_ne_nil (List.splitOn_ne_nil newline bytes)
        rw [hlines, startsOf, List.cons.injEq] at ih
        rw [hlines, List.modifyHead_cons, startsOf, List.length_cons, ← ih.2]
        simp only [Nat.add_assoc, Nat.add_comm 1]

theorem toList_starts_eq_startsOf :
    (ofText text).starts.toList = startsOf 0 (linesOf (bytesOf text)) := by
  rw [toList_starts, startsOf_linesOf]

theorem size_eq_length_linesOf : (ofText text).size = (linesOf (bytesOf text)).length := by
  rw [size, ← Array.length_toList, toList_starts_eq_startsOf, length_startsOf]

theorem getElem?_startsOf_succ {offset i s : Nat} {lines : List (List UInt8)} {line : List UInt8}
    (hs : (startsOf offset lines)[i]? = some s) (hline : lines[i]? = some line)
    (hnext : i + 1 < lines.length) :
    (startsOf offset lines)[i + 1]? = some (s + line.length + 1) := by
  induction lines generalizing offset i with
  | nil => simp at hnext
  | cons first lines ih =>
      cases i with
      | zero =>
          simp only [startsOf, List.getElem?_cons_zero, Option.some.injEq] at hs hline
          subst hs hline
          cases lines with
          | nil => simp at hnext
          | cons second lines => rfl
      | succ i =>
          simp only [startsOf, List.getElem?_cons_succ] at hs hline ⊢
          exact ih hs hline (by simpa using hnext)

/-- The next line starts after this one and its line break. -/
theorem getElem?_starts_succ {line : List UInt8} (hs : (ofText text).starts[i]? = some s)
    (hline : (linesOf (bytesOf text))[i]? = some line) :
    (ofText text).starts[i + 1]? =
      if i + 1 = (ofText text).size then none else some (s + line.length + 1) := by
  have hi : i < (linesOf (bytesOf text)).length := (List.getElem?_eq_some_iff.mp hline).1
  split
  · next hlast =>
    exact Array.getElem?_eq_none (Nat.le_of_eq hlast.symm)
  · next hlast =>
    rw [size_eq_length_linesOf] at hlast
    rw [← Array.getElem?_toList, toList_starts_eq_startsOf] at hs ⊢
    exact getElem?_startsOf_succ hs hline (by omega)

/-! ## from positions to offsets and back -/

/-- An offset from the start of a line on is on that line as long as the next does
not start. -/
theorem line_position_eq_iff (hs : (ofText text).starts[i]? = some s) (hle : s ≤ offset) :
    ((ofText text).position offset).line = i ↔
      ∀ t, (ofText text).starts[i + 1]? = some t → offset < t := by
  have hline := (start_le_iff_le_line text offset hs).mp hle
  constructor
  · rintro rfl t ht
    have hnext := start_le_iff_le_line text offset ht
    omega
  · intro h
    obtain hlt | heq := Nat.lt_or_eq_of_le hline
    · obtain ⟨start, hstart, -⟩ := exists_start text offset
      have hsize := (Array.getElem?_eq_some_iff.mp hstart).1
      have ht := Array.getElem?_eq_getElem (Nat.lt_of_le_of_lt hlt hsize)
      have hlate := h _ ht
      have hearly := (start_le_iff_le_line text offset ht).mpr hlt
      omega
    · exact heq.symm

theorem offset_eq_some_iff : (ofText text).offset p = some offset ↔
    ∃ s, (ofText text).starts[p.line]? = some s ∧ s + p.character = offset := by
  rw [LineIndex.offset, Option.map_eq_some_iff]

theorem offset_eq_none_iff : (ofText text).offset p = none ↔ (ofText text).size ≤ p.line := by
  rw [LineIndex.offset, Option.map_eq_none_iff, Array.getElem?_eq_none_iff, size]

/-- A position comes back from its offset if the line does. -/
theorem position_eq_iff (hs : (ofText text).starts[p.line]? = some s)
    (hsum : s + p.character = offset) :
    (ofText text).position offset = p ↔ ((ofText text).position offset).line = p.line := by
  constructor
  · intro h
    rw [h]
  · intro hline
    obtain ⟨start, hstart, hcolumn⟩ := exists_start text offset
    rw [hline, hs] at hstart
    have hsame := Option.some.inj hstart
    have hcharacter : ((ofText text).position offset).character = p.character := by omega
    calc
      (ofText text).position offset = ⟨p.line, p.character⟩ := by rw [← hline, ← hcharacter]
      _ = p := rfl

/-- **Positions and offsets are inverse** up to columns that the line does not have:
an offset comes back from its position, a position has an offset exactly if the text
has the line, and comes back from it exactly if the column is one of that line, the
last of which has no end.  Other positions come back on a later line. -/
theorem offset_position_inverse :
    (∀ o, (ofText text).offset ((ofText text).position o) = some o) ∧
    (∀ p, (ofText text).offset p = none ↔ (ofText text).size ≤ p.line) ∧
    ∀ p o, (ofText text).offset p = some o →
      ∃ line, (linesOf (bytesOf text))[p.line]? = some line ∧
        ((ofText text).position o = p ↔
          p.line + 1 = (ofText text).size ∨ p.character < line.length + 1) ∧
        ((ofText text).position o ≠ p → p.line < ((ofText text).position o).line) := by
  refine ⟨fun o => (offset_eq_some_iff text).mpr (exists_start text o),
    fun p => offset_eq_none_iff text, fun p o h => ?_⟩
  obtain ⟨s, hs, hsum⟩ := (offset_eq_some_iff text).mp h
  have hsize : p.line < (linesOf (bytesOf text)).length := by
    rw [← size_eq_length_linesOf]
    exact (Array.getElem?_eq_some_iff.mp hs).1
  have hline := List.getElem?_eq_getElem hsize
  refine ⟨_, hline, ?_, ?_⟩
  · rw [position_eq_iff text hs hsum, line_position_eq_iff text hs (by omega),
      getElem?_starts_succ text hs hline]
    split
    · next hlast => simp [hlast]
    · next hlast =>
      simp only [hlast, Option.some.injEq, forall_eq', false_or]
      omega
  · intro hne
    have hle := (start_le_iff_le_line text o hs).mp (by omega)
    have hneq := mt (position_eq_iff text hs hsum).mpr hne
    omega

/-- The first line has three bytes, the last of them the line break; a fourth column
is the start of the next. -/
theorem offset_position_inverse_overhang :
    (ofText "é\n").offset ⟨0, 3⟩ = some 3 ∧ (ofText "é\n").position 3 ≠ ⟨0, 3⟩ ∧
      0 < ((ofText "é\n").position 3).line := by
  have hoffset : (ofText "é\n").offset ⟨0, 3⟩ = some 3 := by decide +kernel
  have hne : (ofText "é\n").position 3 ≠ ⟨0, 3⟩ := by decide +kernel
  obtain ⟨line, -, -, hlater⟩ := (offset_position_inverse "é\n").2.2 ⟨0, 3⟩ 3 hoffset
  exact ⟨hoffset, hne, hlater hne⟩

end LineIndex

end BslNav
