import BslNav.Proofs.Expr.Typing

/-!
# BslNav.Proofs.Expr.Slots

The arguments of a call, slot by slot.

Lowering goes through an argument list once and remembers of what it has passed
only whether the present slot has a node and whether a comma came before.  Here
the list is split at its commas first (`slotElements`), and each slot gives its
arguments by itself (`Fills`).  Both come to the same:

* `Placed.slots_eq` — the one pass finds what is in the slots, one after the
  other;
* `arguments_eq_ok_iff` — so the arguments are those of the slots;
* `arguments_slots` — there are arguments unless a node in some slot has none, and
  where no slot has two nodes there is one argument for each slot.
-/

namespace BslNav

namespace Placed

/-- The arguments that an argument list stands for. -/
def arguments (list : Placed) : Except Refusal (List Expr) :=
  Expr.lowerArguments list.start false false list.tree.elements

/-- The element ends a slot. -/
def isComma (c : Placed) : Bool := c.kind = .comma

@[simp] theorem isComma_iff {c : Placed} : c.isComma = true ↔ c.kind = .comma := by
  simp [isComma]

/-- The slots of an argument list with the elements in them: what stands before,
between and after its commas. -/
def slotElements (list : Placed) : List (List Placed) := list.elements.splitOnP isComma

/-- The nodes in a slot. -/
def nodesIn (slot : List Placed) : List Placed := slot.filter fun c => c.tree.isNode

/-- The list has neither commas nor nodes. -/
def IsBare (list : Placed) : Prop :=
  ∀ c ∈ list.elements, c.kind ≠ .comma ∧ c.tree.isNode = false

/-- The slot gives the arguments: one for each node in it, or the one that is
left out. -/
def Fills (slot : List Placed) (args : List Expr) : Prop :=
  if nodesIn slot = [] then args = [.skipped]
  else List.Forall₂ (fun c e => c.expression = .ok e) (nodesIn slot) args

/-- The arguments are those that the slots of the list give, in order.  A bare
list gives none. -/
def GivenBySlots (list : Placed) (args : List Expr) : Prop :=
  (list.IsBare ∧ args = []) ∨
  (¬ list.IsBare ∧ ∃ parts, List.Forall₂ Fills list.slotElements parts ∧ args = parts.flatten)

/-! ## one pass and splitting -/

/-- What the one pass finds in a slot. -/
def foundIn (slot : List Placed) : List (Option Placed) :=
  if nodesIn slot = [] then [none] else (nodesIn slot).map some

section Pass

variable {c : Placed} {cs : List Placed}

theorem nodesIn_cons_of_node (h : c.tree.isNode = true) : nodesIn (c :: cs) = c :: nodesIn cs := by
  simp [nodesIn, h]

theorem nodesIn_cons_of_token (h : c.tree.isNode = false) : nodesIn (c :: cs) = nodesIn cs := by
  simp [nodesIn, h]

/-- From anywhere in a list on, the pass finds the nodes in the rest of the
present slot, or that the slot has none, and then what is in the other slots.
Without commas there is a slot only if it has a node. -/
theorem slotsFrom_eq (filled delimited : Bool) {first : List Placed} {others : List (List Placed)}
    (h : cs.splitOnP isComma = first :: others) :
    slotsFrom filled delimited cs =
      (if filled = true ∨ nodesIn first ≠ [] then (nodesIn first).map some
        else if delimited = true ∨ others ≠ [] then [none] else []) ++ others.flatMap foundIn := by
  induction cs generalizing filled delimited first others with
  | nil =>
      obtain ⟨rfl, rfl⟩ : first = [] ∧ others = [] := by simpa [eq_comm] using h
      cases filled <;> cases delimited <;> rfl
  | cons c cs ih =>
      obtain ⟨next, more, hcs⟩ := List.exists_cons_of_ne_nil
        (List.splitOnP_ne_nil isComma cs)
      rw [List.splitOnP_cons_eq_if_modifyHead, hcs] at h
      rw [slotsFrom]
      by_cases hcomma : c.kind = .comma
      · have hends : c.isComma = true := isComma_iff.mpr hcomma
        -- the present slot ends here, and the next one is the first of the rest
        obtain ⟨rfl, rfl⟩ : first = [] ∧ others = next :: more := by
          simpa [hends, eq_comm] using h
        have hrest : slotsFrom false true cs = (next :: more).flatMap foundIn := by
          rw [ih false true hcs, List.flatMap_cons, foundIn]
          by_cases hnext : nodesIn next = [] <;> simp [hnext]
        rw [if_pos hcomma, hrest]
        cases filled <;> simp [nodesIn]
      · have hstays : ¬ c.isComma = true := fun h => hcomma (isComma_iff.mp h)
        obtain ⟨rfl, rfl⟩ : first = c :: next ∧ others = more := by
          simpa [hstays, eq_comm] using h
        rw [if_neg hcomma]
        cases hnode : c.tree.isNode with
        | true =>
            rw [if_pos rfl, ih true delimited hcs, nodesIn_cons_of_node hnode]
            simp
        | false =>
            rw [if_neg Bool.false_ne_true, ih filled delimited hcs, nodesIn_cons_of_token hnode]

theorem length_splitOnP_isComma (cs : List Placed) :
    (cs.splitOnP isComma).length = cs.countP isComma + 1 := by
  induction cs with
  | nil => rfl
  | cons c cs ih =>
      rw [List.splitOnP_cons_eq_if_modifyHead, List.countP_cons]
      cases hends : c.isComma <;> simp [ih]

end Pass

variable {list : Placed}

/-- There is one slot more than there are commas. -/
theorem length_slotElements (list : Placed) :
    list.slotElements.length = list.elements.countP isComma + 1 :=
  length_splitOnP_isComma list.elements

theorem slotElements_of_isBare (h : list.IsBare) : list.slotElements = [list.elements] :=
  List.splitOnP_eq_singleton fun c hc => by simpa [isComma] using (h c hc).1

theorem nodesIn_of_isBare (h : list.IsBare) : nodesIn list.elements = [] :=
  List.filter_eq_nil_iff.mpr fun c hc => by simp [(h c hc).2]

/-- A single slot without nodes is that of a bare list. -/
theorem isBare_of_slotElements {slot : List Placed} (h : list.slotElements = [slot])
    (hnodes : nodesIn slot = []) : list.IsBare := by
  have hcount : list.elements.countP isComma = 0 := by
    have hlength := length_slotElements list
    rw [h, List.length_singleton] at hlength
    omega
  have hcomma : ∀ c ∈ list.elements, c.kind ≠ .comma := by simpa using hcount
  have hslot : list.slotElements = [list.elements] :=
    List.splitOnP_eq_singleton fun c hc => by simpa [isComma] using hcomma c hc
  obtain rfl : slot = list.elements := by simpa [hslot, eq_comm] using h
  intro c hc
  exact ⟨hcomma c hc, by simpa using List.filter_eq_nil_iff.mp hnodes c hc⟩

/-- **The pass through a list finds what is in its slots**, one after the other. -/
theorem slots_eq (h : ¬ list.IsBare) : list.slots = list.slotElements.flatMap foundIn := by
  obtain ⟨first, others, hslots⟩ := List.exists_cons_of_ne_nil
    (List.splitOnP_ne_nil isComma list.elements)
  have hpass := slotsFrom_eq false false hslots
  have hfirst : nodesIn first ≠ [] ∨ others ≠ [] := by
    by_contra hneither
    obtain ⟨hnodes, rfl⟩ : nodesIn first = [] ∧ others = [] := by simpa using hneither
    exact h (isBare_of_slotElements hslots hnodes)
  rw [slots, hpass, slotElements, hslots, List.flatMap_cons, foundIn]
  by_cases hnodes : nodesIn first = []
  · have hothers : others ≠ [] := by simpa [hnodes] using hfirst
    simp [hnodes, hothers]
  · simp [hnodes]

/-- In a bare list the pass finds no slot. -/
theorem slots_of_isBare (h : list.IsBare) : list.slots = [] := by
  rw [slots, slotsFrom_eq false false (slotElements_of_isBare h), nodesIn_of_isBare h]
  rfl

end Placed

open Placed

/-! ## reading slot by slot -/

theorem readsSlots_append_iff {slots slots' : List (Option Placed)} {args : List Expr} :
    ReadsSlots (slots ++ slots') args ↔
      ∃ as bs, ReadsSlots slots as ∧ ReadsSlots slots' bs ∧ args = as ++ bs := by
  induction slots generalizing args with
  | nil => simp [readsSlots_nil_iff]
  | cons slot slots ih =>
      cases slot with
      | none =>
          simp only [List.cons_append, readsSlots_none_cons_iff, ih]
          constructor
          · rintro ⟨_, rfl, as, bs, has, hbs, rfl⟩
            exact ⟨.skipped :: as, bs, ⟨as, rfl, has⟩, hbs, rfl⟩
          · rintro ⟨_, bs, ⟨as, rfl, has⟩, hbs, rfl⟩
            exact ⟨as ++ bs, rfl, as, bs, has, hbs, rfl⟩
      | some c =>
          simp only [List.cons_append, readsSlots_some_cons_iff, ih]
          constructor
          · rintro ⟨e, _, rfl, he, as, bs, has, hbs, rfl⟩
            exact ⟨e :: as, bs, ⟨e, as, rfl, he, has⟩, hbs, rfl⟩
          · rintro ⟨_, bs, ⟨e, as, rfl, he, has⟩, hbs, rfl⟩
            exact ⟨e, as ++ bs, rfl, he, as, bs, has, hbs, rfl⟩

/-- Nodes are read one by one. -/
theorem readsSlots_map_some_iff {cs : List Placed} {args : List Expr} :
    ReadsSlots (cs.map some) args ↔ List.Forall₂ (fun c e => c.expression = .ok e) cs args := by
  induction cs generalizing args with
  | nil => simp [readsSlots_nil_iff]
  | cons c cs ih =>
      rw [List.map_cons, readsSlots_some_cons_iff, List.forall₂_cons_left_iff]
      simp only [ih, reads_iff]
      constructor
      · rintro ⟨e, rest, rfl, he, hrest⟩
        exact ⟨e, rest, he, hrest, rfl⟩
      · rintro ⟨e, rest, he, hrest, rfl⟩
        exact ⟨e, rest, rfl, he, hrest⟩

theorem readsSlots_foundIn_iff {slot : List Placed} {args : List Expr} :
    ReadsSlots (foundIn slot) args ↔ Fills slot args := by
  unfold foundIn Fills
  split
  · simp [readsSlots_none_cons_iff, readsSlots_nil_iff]
  · exact readsSlots_map_some_iff

theorem readsSlots_flatMap_iff {slots : List (List Placed)} {args : List Expr} :
    ReadsSlots (slots.flatMap foundIn) args ↔
      ∃ parts, List.Forall₂ Fills slots parts ∧ args = parts.flatten := by
  induction slots generalizing args with
  | nil => simp [readsSlots_nil_iff]
  | cons slot slots ih =>
      rw [List.flatMap_cons, readsSlots_append_iff]
      simp only [readsSlots_foundIn_iff, ih]
      constructor
      · rintro ⟨part, _, hpart, ⟨parts, hparts, rfl⟩, rfl⟩
        exact ⟨part :: parts, .cons hpart hparts, rfl⟩
      · rintro ⟨_, hparts, rfl⟩
        cases hparts with
        | @cons _ part _ parts hpart hparts =>
            exact ⟨part, parts.flatten, hpart, ⟨parts, hparts, rfl⟩, rfl⟩

/-- Slots read as arguments unless there is a node that reads as nothing. -/
theorem exists_readsSlots_iff {slots : List (Option Placed)} :
    (∃ args, ReadsSlots slots args) ↔ ∀ c ∈ slots.reduceOption, ∃ e, Reads c e := by
  induction slots with
  | nil => simp [readsSlots_nil_iff]
  | cons slot slots ih =>
      cases slot with
      | none =>
          rw [List.reduceOption_cons_of_none, ← ih]
          simp [readsSlots_none_cons_iff]
      | some c =>
          rw [List.reduceOption_cons_of_some, List.forall_mem_cons, ← ih]
          simp only [readsSlots_some_cons_iff]
          constructor
          · rintro ⟨_, e, rest, rfl, he, hrest⟩
            exact ⟨⟨e, he⟩, rest, hrest⟩
          · rintro ⟨⟨e, he⟩, rest, hrest⟩
            exact ⟨e :: rest, e, rest, rfl, he, hrest⟩

/-! ## arguments -/

section Arguments

variable {list : Placed} {args : List Expr}

theorem arguments_eq_ok_iff_reads : list.arguments = .ok args ↔ ReadsSlots list.slots args :=
  Expr.lowerArguments_eq_ok_iff list.start false false list.tree.elements args

/-- **The arguments are those of the slots**, in order; a bare list has none. -/
theorem arguments_eq_ok_iff :
    list.arguments = .ok args ↔ list.GivenBySlots args := by
  rw [arguments_eq_ok_iff_reads, GivenBySlots]
  by_cases hbare : list.IsBare
  · simp [slots_of_isBare hbare, readsSlots_nil_iff, hbare]
  · simp [slots_eq hbare, readsSlots_flatMap_iff, hbare]

theorem exists_error_iff {α : Type} {x : Except Refusal α} :
    (∃ refusal, x = .error refusal) ↔ ¬ ∃ a, x = .ok a := by
  cases x <;> simp

/-- There are arguments unless a node in some slot stands for nothing. -/
theorem arguments_eq_error_iff :
    (∃ refusal, list.arguments = .error refusal) ↔
      ∃ c ∈ list.childNodes, c.kind ≠ .comma ∧ ∃ refusal, c.expression = .error refusal := by
  have hnodes : list.slots.reduceOption = list.childNodes.filter fun c => c.kind ≠ .comma :=
    reduceOption_slotsFrom false false list.elements
  simp only [exists_error_iff, arguments_eq_ok_iff_reads, exists_readsSlots_iff, hnodes, reads_iff]
  simp

/-- A slot without a second node gives one argument, which is left out if there is
no node at all. -/
theorem Placed.Fills.exists_eq_singleton {slot : List Placed} (h : Fills slot args)
    (hone : (nodesIn slot).length ≤ 1) :
    ∃ e, args = [e] ∧ (e = .skipped ↔ nodesIn slot = []) := by
  unfold Fills at h
  match hslot : nodesIn slot with
  | [] =>
      rw [if_pos hslot] at h
      exact ⟨.skipped, h, by simp⟩
  | [c] =>
      rw [hslot, if_neg (List.cons_ne_nil c []), List.forall₂_cons_left_iff] at h
      obtain ⟨e, rest, he, hrest, rfl⟩ := h
      obtain rfl := List.forall₂_nil_left_iff.mp hrest
      exact ⟨e, rfl, by simp [(reads_iff.mpr he).ne_skipped]⟩
  | c :: d :: rest => simp [hslot] at hone

/-- Without a second node in any slot there is one argument for each. -/
theorem forall₂_flatten {slots : List (List Placed)} {parts : List (List Expr)}
    (h : List.Forall₂ Fills slots parts) (hone : ∀ slot ∈ slots, (nodesIn slot).length ≤ 1) :
    List.Forall₂ (fun slot e => e = .skipped ↔ nodesIn slot = []) slots parts.flatten := by
  induction h with
  | nil => exact .nil
  | @cons slot part slots parts hpart _ ih =>
      obtain ⟨hslot, hslots⟩ := List.forall_mem_cons.mp hone
      obtain ⟨e, rfl, he⟩ := hpart.exists_eq_singleton hslot
      exact .cons he (ih hslots)

end Arguments

/-- **Arguments and slots.**  Lowering an argument list never comes to a violation,
and it is refused exactly if one of its nodes is that is no comma.  Otherwise it
gives the arguments of its slots, in order, and none if it is bare.  Where no slot
has two nodes and there are arguments at all, they are one more than the commas,
and left out are just those whose slots have no node. -/
theorem arguments_slots (list : Placed) :
    Fits list.arguments ∧
    ((∃ refusal, list.arguments = .error refusal) ↔
      ∃ c ∈ list.childNodes, c.kind ≠ .comma ∧ ∃ refusal, c.expression = .error refusal) ∧
    (∀ args, list.arguments = .ok args ↔ list.GivenBySlots args) ∧
    ((∀ slot ∈ list.slotElements, (nodesIn slot).length ≤ 1) →
      ∀ args, list.arguments = .ok args →
        args = [] ∨ args.length = list.elements.countP isComma + 1 ∧
          List.Forall₂ (fun slot e => e = .skipped ↔ nodesIn slot = []) list.slotElements
            args) := by
  refine ⟨Expr.fits_lowerArguments _ _ _ _, arguments_eq_error_iff,
    fun _ => arguments_eq_ok_iff, fun hone args hargs => ?_⟩
  obtain ⟨-, hnone⟩ | ⟨-, parts, hparts, rfl⟩ := arguments_eq_ok_iff.mp hargs
  · exact .inl hnone
  · have hmatch := forall₂_flatten hparts hone
    exact .inr ⟨by rw [← hmatch.length_eq, length_slotElements], hmatch⟩

/-- `(, "x", )` -/
def gappedList : SyntaxTree :=
  .node .argList [.token .lParen "(", .token .comma ",", .token .whitespace " ",
    .node .literal [.token .string "\"x\""], .token .comma ",", .token .whitespace " ",
    .token .rParen ")"]

theorem arguments_slots_gappedList :
    (∀ slot ∈ gappedList.root.slotElements, (nodesIn slot).length ≤ 1) ∧
    ∃ args, gappedList.root.arguments = .ok args ∧ args.length = 3 ∧
      List.Forall₂ (fun slot e => e = .skipped ↔ nodesIn slot = []) gappedList.root.slotElements
        args := by
  have hone : ∀ slot ∈ gappedList.root.slotElements, (nodesIn slot).length ≤ 1 := by decide
  obtain ⟨-, -, -, hmatch⟩ := arguments_slots gappedList.root
  obtain hnone | ⟨hlength, hmatch⟩ := hmatch hone _ rfl
  · contradiction
  · exact ⟨hone, _, rfl, hlength, hmatch⟩

end BslNav
