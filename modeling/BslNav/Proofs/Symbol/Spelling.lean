import BslNav.Proofs.Symbol.Filling
import Mathlib.Data.List.Forall2

/-!
# BslNav.Proofs.Symbol.Spelling

Names in any case.

A table is asked for the lower-case form of a name.  For names of Latin and Cyrillic
letters, digits and underscores this form is made letter by letter: none of these
characters is a sigma, whose form depends on its neighbours, and none takes more than
one character.  The capitals stand in three blocks, each of which is one run of the
table of lower-case forms, and nothing else of the alphabet is in a run.

* `lowerForm_eq_iff` — two characters have one form if they are the same letter;
* `lowerCase_eq_iff` — two names have one form if they differ in case only;
* `lookup_spelling` — so these names find the same symbols, and no others do.
-/

namespace BslNav

/-! ## the alphabet -/

/-- A letter from A to Z or a to z, a Cyrillic letter from U+0400 to U+045F, a digit or
the underscore. -/
def IsNameChar (c : Char) : Prop :=
  (0x41 ≤ c.toNat ∧ c.toNat ≤ 0x5A ∨ 0x61 ≤ c.toNat ∧ c.toNat ≤ 0x7A) ∨
    (0x400 ≤ c.toNat ∧ c.toNat ≤ 0x45F) ∨ (0x30 ≤ c.toNat ∧ c.toNat ≤ 0x39) ∨ c.toNat = 0x5F

instance (c : Char) : Decidable (IsNameChar c) := inferInstanceAs (Decidable (_ ∨ _ ∨ _ ∨ _))

/-- A name over this alphabet. -/
def IsName (name : String) : Prop := ∀ c ∈ name.toList, IsNameChar c

instance (name : String) : Decidable (IsName name) := List.decidableBAll IsNameChar name.toList

/-- The two are the capital and the small form of one letter.  The small forms are 32
places on from the capitals A to Z and U+0410 to U+042F, and 80 places on from the
capitals U+0400 to U+040F. -/
def IsCapitalOf (capital small : Char) : Prop :=
  (0x41 ≤ capital.toNat ∧ capital.toNat ≤ 0x5A ∨
      0x410 ≤ capital.toNat ∧ capital.toNat ≤ 0x42F) ∧ small.toNat = capital.toNat + 32 ∨
    (0x400 ≤ capital.toNat ∧ capital.toNat ≤ 0x40F) ∧ small.toNat = capital.toNat + 80

/-- The two are the same, but for the case of a letter. -/
def SameLetter (c d : Char) : Prop := c = d ∨ IsCapitalOf c d ∨ IsCapitalOf d c

instance (c d : Char) : Decidable (IsCapitalOf c d) := inferInstanceAs (Decidable (_ ∨ _))

instance (c d : Char) : Decidable (SameLetter c d) := inferInstanceAs (Decidable (_ ∨ _ ∨ _))

/-- The two names are as long as each other, and the same at every place but for the
case of the letter there. -/
def SameName (a b : String) : Prop := List.Forall₂ SameLetter a.toList b.toList

/-! ## blocks of the table -/

/-- The alphabet in blocks, each with the way from its characters to their small
forms. -/
def nameBlocks : List LowerCaseRun :=
  [⟨0x41, 0x5A, 1, 32⟩, ⟨0x61, 0x7A, 1, 0⟩, ⟨0x400, 0x40F, 1, 80⟩, ⟨0x410, 0x42F, 1, 32⟩,
    ⟨0x430, 0x45F, 1, 0⟩, ⟨0x30, 0x39, 1, 0⟩, ⟨0x5F, 0x5F, 1, 0⟩]

/-- Each block is a run of the table, or holds small forms and other characters only,
and meets no other run. -/
theorem apart_of_mem_nameBlocks : ∀ block ∈ nameBlocks,
    (block ∈ lowerCaseRuns ∨ block.shift = 0) ∧ block.step = 1 ∧
      ∀ run ∈ lowerCaseRuns, run = block ∨ run.last < block.first ∨ block.last < run.first := by
  decide +kernel

section Blocks

variable {run block : LowerCaseRun} {n : Nat} {c d : Char}

theorem bounds_of_covers (h : run.covers n = true) : run.first ≤ n ∧ n ≤ run.last := by
  simp only [LowerCaseRun.covers, Bool.and_eq_true, decide_eq_true_eq] at h
  exact h.1

theorem covers_of_bounds (hstep : run.step = 1) (hn : run.first ≤ n ∧ n ≤ run.last) :
    run.covers n = true := by
  simp [LowerCaseRun.covers, hstep, hn, Nat.mod_one]

/-- No run but the block itself can have a character of the block. -/
theorem eq_of_find?_covers (hblock : block ∈ nameBlocks)
    (hn : block.first ≤ n ∧ n ≤ block.last)
    (hfind : lowerCaseRuns.find? (·.covers n) = some run) : run = block := by
  have hcovers : run.covers n = true := by simpa using List.find?_some hfind
  have hbounds := bounds_of_covers hcovers
  obtain ⟨-, -, hapart⟩ := apart_of_mem_nameBlocks block hblock
  obtain heq | hdisjoint := hapart run (List.mem_of_find?_eq_some hfind)
  · exact heq
  · omega

theorem lowerForm_of_block (hblock : block ∈ nameBlocks) (hdotted : c ≠ 'İ')
    (hc : block.first ≤ c.toNat ∧ c.toNat ≤ block.last) :
    lowerForm c = [Char.ofNat (c.toNat + block.shift).toNat] := by
  obtain ⟨hrun | hzero, hstep, -⟩ := apart_of_mem_nameBlocks block hblock
  · have hfind : lowerCaseRuns.find? (·.covers c.toNat) = some block := by
      cases hfind : lowerCaseRuns.find? (·.covers c.toNat) with
      | none =>
          have hnot := List.find?_eq_none.mp hfind block hrun
          exact absurd (covers_of_bounds hstep hc) hnot
      | some run => rw [eq_of_find?_covers hblock hc hfind]
    rw [lowerForm, if_neg hdotted, hfind]
  · have hself : [Char.ofNat (c.toNat + block.shift).toNat] = [c] := by simp [hzero]
    rw [hself, lowerForm, if_neg hdotted]
    cases hfind : lowerCaseRuns.find? (·.covers c.toNat) with
    | none => rfl
    | some run =>
        rw [eq_of_find?_covers hblock hc hfind]
        exact hself

end Blocks

/-! ## letters -/

/-- The code of the small form, for the codes of the alphabet. -/
def smallCode (n : Nat) : Nat :=
  if 0x41 ≤ n ∧ n ≤ 0x5A ∨ 0x410 ≤ n ∧ n ≤ 0x42F then n + 32
  else if 0x400 ≤ n ∧ n ≤ 0x40F then n + 80
  else n

theorem smallCode_cases (n : Nat) :
    (0x41 ≤ n ∧ n ≤ 0x5A ∨ 0x410 ≤ n ∧ n ≤ 0x42F) ∧ smallCode n = n + 32 ∨
    (0x400 ≤ n ∧ n ≤ 0x40F) ∧ smallCode n = n + 80 ∨
    (n < 0x41 ∨ 0x5A < n ∧ n < 0x400 ∨ 0x42F < n) ∧ smallCode n = n := by
  unfold smallCode
  split
  · omega
  · split <;> omega

section Letters

variable {c d : Char}

theorem exists_block (h : IsNameChar c) :
    ∃ block ∈ nameBlocks, block.first ≤ c.toNat ∧ c.toNat ≤ block.last := by
  unfold IsNameChar at h
  simp only [nameBlocks, List.mem_cons, List.not_mem_nil, or_false, exists_eq_or_imp,
    exists_eq_left]
  grind

theorem smallCode_of_block {n : Nat} : ∀ block ∈ nameBlocks, block.first ≤ n ∧ n ≤ block.last →
    (smallCode n : Int) = n + block.shift := by
  have hsmall := smallCode_cases n
  simp only [nameBlocks, List.forall_mem_cons, List.not_mem_nil, false_imp_iff, implies_true,
    and_true]
  refine ⟨?_, ?_, ?_, ?_, ?_, ?_, ?_⟩ <;> omega

theorem lowerForm_of_isNameChar (h : IsNameChar c) :
    lowerForm c = [Char.ofNat (smallCode c.toNat)] := by
  obtain ⟨block, hblock, hbounds⟩ := exists_block h
  have hdotted : c ≠ 'İ' := by
    rintro rfl
    revert h
    decide
  rw [lowerForm_of_block hblock hdotted hbounds, ← smallCode_of_block block hblock hbounds,
    Int.toNat_natCast]

theorem toNat_ofNat_smallCode (h : IsNameChar c) :
    (Char.ofNat (smallCode c.toNat)).toNat = smallCode c.toNat := by
  have hlt : smallCode c.toNat < 0xD800 := by
    have hsmall := smallCode_cases c.toNat
    unfold IsNameChar at h
    omega
  rw [Char.ofNat, dif_pos (Or.inl hlt)]
  rfl

theorem smallCode_eq_iff : smallCode c.toNat = smallCode d.toNat ↔ SameLetter c d := by
  have hcsmall := smallCode_cases c.toNat
  have hdsmall := smallCode_cases d.toNat
  rw [SameLetter, IsCapitalOf, IsCapitalOf, ← Char.toNat_inj]
  constructor
  · intro h
    grind
  · rintro (h | h | h) <;> omega

/-- Two characters of the alphabet have one lower-case form exactly if they are the
same letter. -/
theorem lowerForm_eq_iff (hc : IsNameChar c) (hd : IsNameChar d) :
    lowerForm c = lowerForm d ↔ SameLetter c d := by
  rw [lowerForm_of_isNameChar hc, lowerForm_of_isNameChar hd, ← smallCode_eq_iff,
    List.cons.injEq, and_iff_left rfl, ← Char.toNat_inj, toNat_ofNat_smallCode hc,
    toNat_ofNat_smallCode hd]

end Letters

/-! ## names -/

section Names

variable {a b : String}

theorem flatMap_lowerForm_eq_iff {cs ds : List Char} (hcs : ∀ c ∈ cs, IsNameChar c)
    (hds : ∀ d ∈ ds, IsNameChar d) :
    cs.flatMap lowerForm = ds.flatMap lowerForm ↔ List.Forall₂ SameLetter cs ds := by
  induction cs generalizing ds with
  | nil =>
      cases ds with
      | nil => simp
      | cons d ds => simp [lowerForm_of_isNameChar (hds d List.mem_cons_self)]
  | cons c cs ih =>
      have hc := hcs c List.mem_cons_self
      cases ds with
      | nil => simp [lowerForm_of_isNameChar hc]
      | cons d ds =>
          have hd := hds d List.mem_cons_self
          have hrest := ih (fun c hc => hcs c (List.mem_cons_of_mem _ hc))
            fun d hd => hds d (List.mem_cons_of_mem _ hd)
          rw [List.forall₂_cons, ← hrest, ← lowerForm_eq_iff hc hd]
          simp [lowerForm_of_isNameChar hc, lowerForm_of_isNameChar hd]

theorem toList_lowerCase_of_isName (ha : IsName a) :
    (lowerCase a).toList = a.toList.flatMap lowerForm := by
  have hsigma : 'Σ' ∉ a.toList := fun hmem => absurd (ha 'Σ' hmem) (by decide)
  rw [toList_lowerCase, lowerAfter_eq_flatMap hsigma]

/-- Two names over the alphabet have one lower-case form exactly if they differ in
case only. -/
theorem lowerCase_eq_iff (ha : IsName a) (hb : IsName b) :
    lowerCase a = lowerCase b ↔ SameName a b := by
  rw [← String.toList_inj, toList_lowerCase_of_isName ha, toList_lowerCase_of_isName hb]
  exact flatMap_lowerForm_eq_iff ha hb

end Names

/-! ## tables -/

namespace SymbolTable

section Declares

variable {t : SymbolTable} {declared : List SourceSymbol} {d : DefId}

theorem mem_toList_iff {s : SourceSymbol} (h : t.Declares declared) :
    (d, s) ∈ t.toList ↔ t.resolve d = some s := by
  rw [h.toList_eq, h.resolve_eq_some_iff, List.mem_mapIdx]
  constructor
  · rintro ⟨slot, hslot, heq⟩
    cases heq
    exact ⟨rfl, rfl, List.getElem?_eq_getElem hslot⟩
  · rintro ⟨hdocument, hgeneration, hsymbol⟩
    obtain ⟨hslot, rfl⟩ := List.getElem?_eq_some_iff.mp hsymbol
    refine ⟨d.slot, hslot, ?_⟩
    rw [defId, ← hdocument, ← hgeneration]

/-- A name finds the symbols whose names have its lower-case form. -/
theorem mem_lookup_iff {name : String} (h : t.Declares declared) :
    d ∈ t.lookup name ↔ ∃ s, t.resolve d = some s ∧ lowerCase s.name = lowerCase name := by
  rw [h.lookup_eq, List.mem_map]
  constructor
  · rintro ⟨⟨d, s⟩, hmem, rfl⟩
    obtain ⟨hmem, hname⟩ := List.mem_filter.mp hmem
    exact ⟨s, (mem_toList_iff h).mp hmem, of_decide_eq_true hname⟩
  · rintro ⟨s, hresolve, hname⟩
    exact ⟨(d, s), List.mem_filter.mpr ⟨(mem_toList_iff h).mpr hresolve, decide_eq_true hname⟩, rfl⟩

end Declares

/-- **Look-up takes no notice of case.**  Two names over the alphabet that differ in
case only find the same in every table; and in a table that was filled by insertions
a symbol is found by exactly those of them that differ from its name in case only. -/
theorem lookup_spelling {a b : String} (ha : IsName a) (hb : IsName b) :
    (SameName a b → ∀ t : SymbolTable, t.lookup a = t.lookup b) ∧
    ∀ version symbols d s, (filled version symbols).resolve d = some s → s.name = a →
      (d ∈ (filled version symbols).lookup b ↔ SameName a b) := by
  rw [← lowerCase_eq_iff ha hb]
  constructor
  · intro hform t
    rw [lookup, lookup, hform]
  · rintro version symbols d s hresolve rfl
    rw [mem_lookup_iff (declares_filled version symbols), hresolve]
    simp

/-- A capital and a small letter in each other's place. -/
theorem lookup_spelling_swappedCase :
    IsName "Ёж_1" ∧ IsName "ёЖ_1" ∧ SameName "Ёж_1" "ёЖ_1" ∧
    (∀ t : SymbolTable, t.lookup "Ёж_1" = t.lookup "ёЖ_1") ∧
    (filled ⟨⟨0⟩, ⟨3⟩⟩ [methodOf 0 "Ёж_1"]).resolve ⟨⟨0⟩, ⟨3⟩, 0⟩ = some (methodOf 0 "Ёж_1") ∧
    ⟨⟨0⟩, ⟨3⟩, 0⟩ ∈ (filled ⟨⟨0⟩, ⟨3⟩⟩ [methodOf 0 "Ёж_1"]).lookup "ёЖ_1" := by
  have ha : IsName "Ёж_1" := by decide
  have hb : IsName "ёЖ_1" := by decide
  have hsame : SameName "Ёж_1" "ёЖ_1" :=
    .cons (by decide) (.cons (by decide) (.cons (by decide) (.cons (by decide) .nil)))
  have hresolve : (filled ⟨⟨0⟩, ⟨3⟩⟩ [methodOf 0 "Ёж_1"]).resolve ⟨⟨0⟩, ⟨3⟩, 0⟩ =
      some (methodOf 0 "Ёж_1") := by
    decide
  obtain ⟨hevery, hfilled⟩ := lookup_spelling ha hb
  exact ⟨ha, hb, hsame, hevery hsame, hresolve, (hfilled _ _ _ _ hresolve rfl).mpr hsame⟩

end SymbolTable

end BslNav
