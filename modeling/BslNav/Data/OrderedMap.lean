/-!
# BslNav.Data.OrderedMap

Finite maps that remember where their entries stand.

A new key goes to the end and keeps its place when its value is replaced.
Removing a key does not shift the others: the last entry takes the freed
place.  No key occurs twice, which the type guarantees, so that a map is
determined entry by entry:

* `get?_eq_some_iff` — the value of a key is that of the entry that carries it;
* `get?_insert` and `get?_erase` — what the two updates do to every key.
-/

namespace BslNav

/-- A map from `κ` to `α` with its entries in a fixed order. -/
structure OrderedMap (κ : Type u) (α : Type v) where
  entries : List (κ × α)
  nodup : (entries.map Prod.fst).Nodup

namespace OrderedMap

variable {κ : Type u} {α : Type v} [DecidableEq κ]

/-- The map without entries. -/
def empty : OrderedMap κ α := ⟨[], List.nodup_nil⟩

instance : EmptyCollection (OrderedMap κ α) := ⟨empty⟩

instance : Inhabited (OrderedMap κ α) := ⟨empty⟩

/-- The value of a key. -/
def get? (m : OrderedMap κ α) (k : κ) : Option α :=
  (m.entries.find? fun e => e.1 = k).map Prod.snd

/-- The keys in order. -/
def keys (m : OrderedMap κ α) : List κ := m.entries.map Prod.fst

/-- The values in order. -/
def values (m : OrderedMap κ α) : List α := m.entries.map Prod.snd

/-- The number of entries. -/
def size (m : OrderedMap κ α) : Nat := m.entries.length

def isEmpty (m : OrderedMap κ α) : Bool := m.entries.isEmpty

/-! ## entries with distinct keys -/

/-- Give the key a value: in its place if it has one, at the end otherwise. -/
def insertEntry (k : κ) (v : α) : List (κ × α) → List (κ × α)
  | [] => [(k, v)]
  | e :: es => if e.1 = k then (k, v) :: es else e :: insertEntry k v es

/-- Drop the key; the last entry takes its place. -/
def eraseEntry (k : κ) : List (κ × α) → List (κ × α)
  | [] => []
  | e :: es =>
      if e.1 = k then
        match es.getLast? with
        | some last => last :: es.dropLast
        | none => []
      else e :: eraseEntry k es

theorem map_fst_insertEntry (k : κ) (v : α) (es : List (κ × α)) :
    (insertEntry k v es).map Prod.fst =
      if k ∈ es.map Prod.fst then es.map Prod.fst else es.map Prod.fst ++ [k] := by
  induction es with
  | nil => simp [insertEntry]
  | cons e es ih =>
      by_cases h : e.1 = k
      · simp [insertEntry, h]
      · simp only [insertEntry, h, if_false, List.map_cons, ih, List.mem_cons, Ne.symm h,
          false_or]
        split <;> simp

/-- Filling the gap from the end only changes the order. -/
theorem eraseEntry_perm (k : κ) (es : List (κ × α)) :
    (eraseEntry k es).Perm (es.eraseP fun e => e.1 = k) := by
  induction es with
  | nil => exact .nil
  | cons e es ih =>
      by_cases h : e.1 = k
      · simp only [eraseEntry, h, if_true, List.eraseP_cons, decide_true, cond_true]
        cases hl : es.getLast? with
        | none => simp [List.getLast?_eq_none_iff.1 hl]
        | some last =>
            have hes : es.dropLast ++ [last] = es := by
              obtain ⟨init, rfl⟩ := List.getLast?_eq_some_iff.1 hl
              simp
            exact hes ▸ (by simpa using (List.perm_append_singleton last es.dropLast).symm)
      · simp only [eraseEntry, h, if_false, List.eraseP_cons, decide_false, cond_false]
        exact ih.cons e

theorem nodup_insertEntry {k : κ} {v : α} {es : List (κ × α)} (h : (es.map Prod.fst).Nodup) :
    ((insertEntry k v es).map Prod.fst).Nodup := by
  rw [map_fst_insertEntry]
  split <;> rename_i hk
  · exact h
  · exact List.nodup_append.2 ⟨h, by simp, by grind⟩

theorem nodup_eraseEntry {k : κ} {es : List (κ × α)} (h : (es.map Prod.fst).Nodup) :
    ((eraseEntry k es).map Prod.fst).Nodup := by
  refine ((eraseEntry_perm k es).map Prod.fst).nodup_iff.2 (h.sublist ?_)
  exact List.eraseP_sublist.map Prod.fst

/-- The map with `v` as the value of `k`. -/
def insert (m : OrderedMap κ α) (k : κ) (v : α) : OrderedMap κ α :=
  ⟨insertEntry k v m.entries, nodup_insertEntry m.nodup⟩

/-- The map without `k`. -/
def erase (m : OrderedMap κ α) (k : κ) : OrderedMap κ α :=
  ⟨eraseEntry k m.entries, nodup_eraseEntry m.nodup⟩

/-! ## what a key has after an update -/

theorem find?_eq_some_iff_mem {k : κ} {v : α} {es : List (κ × α)}
    (h : (es.map Prod.fst).Nodup) :
    (es.find? fun e => e.1 = k).map Prod.snd = some v ↔ (k, v) ∈ es := by
  induction es with
  | nil => simp
  | cons e es ih =>
      simp only [List.map_cons, List.nodup_cons] at h
      by_cases hk : e.1 = k <;> grind

theorem get?_eq_some_iff {m : OrderedMap κ α} {k : κ} {v : α} :
    m.get? k = some v ↔ (k, v) ∈ m.entries := find?_eq_some_iff_mem m.nodup

theorem get?_eq_none_iff {m : OrderedMap κ α} {k : κ} : m.get? k = none ↔ k ∉ m.keys := by
  simp only [get?, keys, Option.map_eq_none_iff, List.find?_eq_none, List.mem_map]
  grind

theorem mem_values_iff {m : OrderedMap κ α} {v : α} : v ∈ m.values ↔ ∃ k, m.get? k = some v := by
  simp only [values, List.mem_map, get?_eq_some_iff, Prod.exists, exists_eq_right]

omit [DecidableEq κ] in
@[simp] theorem length_values (m : OrderedMap κ α) : m.values.length = m.size := by
  simp [values, size]

@[simp] theorem get?_empty (k : κ) : (∅ : OrderedMap κ α).get? k = none := rfl

theorem get?_insert (m : OrderedMap κ α) (k j : κ) (v : α) :
    (m.insert k v).get? j = if k = j then some v else m.get? j := by
  simp only [get?, insert]
  generalize m.entries = es
  induction es with
  | nil => by_cases h : k = j <;> simp [insertEntry, h]
  | cons e es ih =>
      by_cases hk : e.1 = k <;> by_cases hj : k = j <;> by_cases he : e.1 = j <;>
        simp_all [insertEntry]

theorem get?_erase (m : OrderedMap κ α) (k j : κ) :
    (m.erase k).get? j = if k = j then none else m.get? j := by
  have hmem : ∀ v, (m.erase k).get? j = some v ↔ k ≠ j ∧ m.get? j = some v := by
    intro v
    rw [get?_eq_some_iff, get?_eq_some_iff]
    show (j, v) ∈ eraseEntry k m.entries ↔ _
    rw [(eraseEntry_perm k m.entries).mem_iff]
    have hn := m.nodup
    generalize m.entries = es at hn
    induction es with
    | nil => simp
    | cons e es ih =>
        simp only [List.map_cons, List.nodup_cons] at hn
        by_cases hk : e.1 = k <;> grind
  by_cases h : k = j
  · rw [if_pos h]
    exact Option.eq_none_iff_forall_ne_some.2 fun v hv => ((hmem v).1 hv).1 h
  · rw [if_neg h]
    exact Option.ext fun v => by simp [hmem v, h]

end OrderedMap

end BslNav
