import BslNav.Json.Outline

/-!
# BslNav.Proofs.Json.Keys

The keys of the objects in a value.

While a text is read, a member takes its place among the keys read before, or
replaces the value of a repeated key.  So no object of a value that comes from a
text repeats a key, however deep it lies, and its keys are in order:

* `Json.ordered_of_ofText?` — the value of a text is `Ordered`.
-/

namespace BslNav

namespace Json

/-! ## members by key -/

/-- The value of a key, the first if there are several. -/
def memberOf (ms : Members) (key : String) : Option Json := List.lookup key ms

@[simp] theorem memberOf_nil (key : String) : memberOf [] key = none := rfl

theorem memberOf_cons (k : String) (v : Json) (ms : Members) (key : String) :
    memberOf ((k, v) :: ms) key = if key = k then some v else memberOf ms key := by
  unfold memberOf
  rw [List.lookup_cons]
  by_cases h : key = k
  · rw [if_pos h, beq_iff_eq.mpr h]
  · rw [if_neg h, beq_eq_false_iff_ne.mpr h]

theorem mem_of_memberOf {ms : Members} {key : String} {v : Json} (h : memberOf ms key = some v) :
    (key, v) ∈ ms := by
  obtain ⟨before, after, rfl, -⟩ := List.lookup_eq_some_iff.mp h
  simp

theorem memberOf_eq_none {ms : Members} {key : String} (h : key ∉ ms.map Prod.fst) :
    memberOf ms key = none := by
  cases hv : memberOf ms key with
  | none => rfl
  | some v => exact absurd (List.mem_map_of_mem (mem_of_memberOf hv)) h

/-- Where no key is repeated, every member is the value of its key. -/
theorem memberOf_of_mem {ms : Members} {key : String} {v : Json}
    (hms : (ms.map Prod.fst).Nodup) (h : (key, v) ∈ ms) : memberOf ms key = some v := by
  induction ms with
  | nil => simp at h
  | cons m ms ih =>
      obtain ⟨k, w⟩ := m
      obtain ⟨hk, hms⟩ := List.nodup_cons.mp hms
      rw [memberOf_cons]
      obtain heq | hmem := List.mem_cons.mp h
      · cases heq
        exact if_pos rfl
      · have hkey : key ∈ ms.map Prod.fst := List.mem_map_of_mem hmem
        have hne : key ≠ k := fun heq => hk (heq ▸ hkey)
        rw [if_neg hne, ih hms hmem]

/-! ## keys in order -/

/-- The keys of every object in the value strictly ascend. -/
inductive Ordered : Json → Prop
  | null : Ordered .null
  | bool (b : Bool) : Ordered (.bool b)
  | number (n : Number) : Ordered (.number n)
  | string (s : String) : Ordered (.string s)
  | array {items : List Json} (items_ordered : ∀ v ∈ items, v.Ordered) : Ordered (.array items)
  | object {members : Members} (sorted : Sorted members)
      (values_ordered : ∀ m ∈ members, m.2.Ordered) : Ordered (.object members)

theorem Ordered.of_mem_array {items : List Json} (h : (Json.array items).Ordered) :
    ∀ v ∈ items, v.Ordered := by
  cases h with
  | array items_ordered => exact items_ordered

theorem Ordered.sorted {members : Members} (h : (Json.object members).Ordered) : Sorted members := by
  cases h with
  | object sorted _ => exact sorted

theorem Ordered.of_mem_object {members : Members} (h : (Json.object members).Ordered) :
    ∀ m ∈ members, m.2.Ordered := by
  cases h with
  | object _ values_ordered => exact values_ordered

/-- No key is repeated among keys that ascend. -/
theorem Sorted.nodup {members : Members} (h : Sorted members) :
    (members.map Prod.fst).Nodup := List.Pairwise.imp Std.ne_of_lt h

theorem mem_setMember {key : String} {value : Json} {ms : Members} {m : String × Json}
    (h : m ∈ setMember key value ms) : m = (key, value) ∨ m ∈ ms := by
  induction ms with
  | nil => exact .inl (List.mem_singleton.mp h)
  | cons n ms ih =>
      obtain ⟨k, v⟩ := n
      unfold setMember at h
      split at h
      · exact List.mem_cons.mp h
      · split at h
        · obtain rfl | hm := List.mem_cons.mp h
          · exact .inl rfl
          · exact .inr (List.mem_cons_of_mem _ hm)
        · obtain rfl | hm := List.mem_cons.mp h
          · exact .inr List.mem_cons_self
          · exact (ih hm).imp id (List.mem_cons_of_mem _)

/-- A key above all others takes the last place. -/
theorem setMember_of_lt {key : String} {value : Json} {ms : Members}
    (h : ∀ k ∈ ms.map Prod.fst, k < key) : setMember key value ms = ms ++ [(key, value)] := by
  induction ms with
  | nil => rfl
  | cons m ms ih =>
      obtain ⟨k, v⟩ := m
      have hk : k < key := h k (by simp)
      have hrest : setMember key value ms = ms ++ [(key, value)] :=
        ih fun l hl => h l (List.mem_cons_of_mem _ hl)
      unfold setMember
      rw [if_neg (Std.not_lt.mpr (Std.le_of_lt hk)), if_neg (Std.ne_of_lt hk).symm, hrest]
      rfl

end Json

/-! ## values of texts -/

namespace Outline

open Json

mutual

/-- The value of an outline has its keys in order. -/
theorem ordered_toJson? (depth : Nat) : ∀ (o : Outline) {value : Json},
    o.toJson? depth = some value → value.Ordered
  | .null, _, h => by
      rw [toJson?, Option.some.injEq] at h
      exact h ▸ .null
  | .bool b, _, h => by
      rw [toJson?, Option.some.injEq] at h
      exact h ▸ .bool b
  | .number n, _, h => by
      rw [toJson?] at h
      obtain ⟨n, -, rfl⟩ := Option.map_eq_some_iff.mp h
      exact .number n
  | .string s, _, h => by
      rw [toJson?] at h
      obtain ⟨s, -, rfl⟩ := Option.map_eq_some_iff.mp h
      exact .string s
  | .array items closed, _, h => by
      cases depth with
      | zero => simp [toJson?] at h
      | succ depth =>
          cases closed with
          | false => simp [toJson?] at h
          | true =>
              rw [toJson?, if_pos rfl] at h
              obtain ⟨values, hvalues, rfl⟩ := Option.map_eq_some_iff.mp h
              exact .array (ordered_itemsToJson? depth items hvalues)
  | .object members closed, _, h => by
      cases depth with
      | zero => simp [toJson?] at h
      | succ depth =>
          cases closed with
          | false => simp [toJson?] at h
          | true =>
              rw [toJson?, if_pos rfl] at h
              obtain ⟨ms, hms, rfl⟩ := Option.map_eq_some_iff.mp h
              obtain ⟨hsorted, hvalues⟩ :=
                ordered_membersToJson? depth members sorted_nil (by simp) hms
              exact .object hsorted hvalues
  | .broken, _, h => by simp [toJson?] at h

theorem ordered_itemsToJson? (depth : Nat) : ∀ (items : List Outline) {values : List Json},
    itemsToJson? depth items = some values → ∀ v ∈ values, v.Ordered
  | [], _, h => by
      rw [itemsToJson?, Option.some.injEq] at h
      simp [← h]
  | item :: items, _, h => by
      rw [itemsToJson?] at h
      obtain ⟨value, hvalue, h⟩ := Option.bind_eq_some_iff.mp h
      obtain ⟨values, hvalues, h⟩ := Option.bind_eq_some_iff.mp h
      cases h
      intro v hv
      obtain rfl | hv := List.mem_cons.mp hv
      · exact ordered_toJson? depth item hvalue
      · exact ordered_itemsToJson? depth items hvalues v hv

theorem ordered_membersToJson? (depth : Nat) : ∀ (members : List (Option String × Outline))
    {before after : Members}, Sorted before → (∀ m ∈ before, m.2.Ordered) →
      membersToJson? depth before members = some after →
        Sorted after ∧ ∀ m ∈ after, m.2.Ordered
  | [], _, _, hsorted, hvalues, h => by
      rw [membersToJson?, Option.some.injEq] at h
      subst h
      exact ⟨hsorted, hvalues⟩
  | (key, item) :: members, before, after, hsorted, hvalues, h => by
      rw [membersToJson?] at h
      obtain ⟨key, -, h⟩ := Option.bind_eq_some_iff.mp h
      obtain ⟨value, hvalue, h⟩ := Option.bind_eq_some_iff.mp h
      refine ordered_membersToJson? depth members (sorted_setMember hsorted) ?_ h
      intro m hm
      obtain rfl | hm := mem_setMember hm
      · exact ordered_toJson? depth item hvalue
      · exact hvalues m hm

end

end Outline

/-- The value of a text has its keys in order. -/
theorem Json.ordered_of_ofText? {text : String} {value : Json} (h : ofText? text = some value) :
    value.Ordered := by
  unfold ofText? at h
  split at h
  · next outline _ => exact outline.ordered_toJson? maxDepth h
  · contradiction

end BslNav
