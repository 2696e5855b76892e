import BslNav.Json.Number

/-!
# BslNav.Json.Value

JSON values.

The members of an object are kept in the order of their keys, code point by
code point, and `Json.setMember` keeps them so.  Equality of values is
decidable.
-/

namespace BslNav

/-- A JSON value. -/
inductive Json where
  | null
  | bool (value : Bool)
  | number (value : Number)
  | string (value : String)
  | array (items : List Json)
  | object (members : List (String × Json))
deriving Repr

/-- The members of an object. -/
abbrev Members := List (String × Json)

namespace Json

instance : Inhabited Json := ⟨.null⟩

/-- Give a key a value; it takes its place among the sorted keys, where it
replaces an earlier value. -/
def setMember (key : String) (value : Json) : Members → Members
  | [] => [(key, value)]
  | (k, v) :: ms =>
      if key < k then (key, value) :: (k, v) :: ms
      else if key = k then (key, value) :: ms
      else (k, v) :: setMember key value ms

/-- The keys strictly ascend: none is repeated. -/
def Sorted (members : Members) : Prop := (members.map Prod.fst).Pairwise (· < ·)

theorem sorted_nil : Sorted [] := List.Pairwise.nil

theorem mem_keys_setMember {key k : String} {value : Json} {ms : Members} :
    k ∈ (setMember key value ms).map Prod.fst ↔ k = key ∨ k ∈ ms.map Prod.fst := by
  induction ms with
  | nil => simp [setMember]
  | cons m ms ih =>
      obtain ⟨l, v⟩ := m
      unfold setMember
      split
      · simp
      · split <;> rename_i h
        · simp [h]
        · rw [List.map_cons, List.mem_cons, ih, List.map_cons, List.mem_cons]
          exact or_left_comm

/-- Setting a member keeps the keys in order. -/
theorem sorted_setMember {key : String} {value : Json} {ms : Members} (h : Sorted ms) :
    Sorted (setMember key value ms) := by
  induction ms with
  | nil => simp [Sorted, setMember]
  | cons m ms ih =>
      obtain ⟨l, v⟩ := m
      have hms : Sorted ms := (List.pairwise_cons.1 h).2
      have hl : ∀ k ∈ ms.map Prod.fst, l < k := (List.pairwise_cons.1 h).1
      unfold setMember
      split <;> rename_i hlt
      · refine List.pairwise_cons.2 ⟨fun k hk => ?_, h⟩
        rcases List.mem_cons.1 hk with rfl | hk
        · exact hlt
        · exact String.lt_trans hlt (hl k hk)
      · split <;> rename_i heq
        · exact List.pairwise_cons.2 ⟨heq ▸ hl, hms⟩
        · refine List.pairwise_cons.2 ⟨fun k hk => ?_, ih hms⟩
          rcases mem_keys_setMember.1 hk with rfl | hk
          · exact Std.lt_of_le_of_ne (Std.not_lt.1 hlt) (Ne.symm heq)
          · exact hl k hk

/-! ## equality -/

mutual

/-- The two values agree. -/
def same : Json → Json → Bool
  | .null, .null => true
  | .bool a, .bool b => a == b
  | .number m, .number n => m == n
  | .string s, .string t => s == t
  | .array xs, .array ys => sameItems xs ys
  | .object ms, .object ns => sameMembers ms ns
  | _, _ => false

/-- The two lists agree item by item. -/
def sameItems : List Json → List Json → Bool
  | [], [] => true
  | x :: xs, y :: ys => same x y && sameItems xs ys
  | _, _ => false

/-- The two lists agree member by member, keys included. -/
def sameMembers : List (String × Json) → List (String × Json) → Bool
  | [], [] => true
  | (k, x) :: ms, (l, y) :: ns => k == l && same x y && sameMembers ms ns
  | _, _ => false

end

mutual

theorem same_iff (a b : Json) : same a b = true ↔ a = b := by
  cases a <;> cases b <;> simp [same, sameItems_iff _ _, sameMembers_iff _ _]

theorem sameItems_iff (xs ys : List Json) : sameItems xs ys = true ↔ xs = ys := by
  cases xs <;> cases ys <;> simp [sameItems, same_iff _ _, sameItems_iff _ _]

theorem sameMembers_iff (ms ns : List (String × Json)) : sameMembers ms ns = true ↔ ms = ns := by
  match ms, ns with
  | [], [] => simp [sameMembers]
  | [], _ :: _ => simp [sameMembers]
  | _ :: _, [] => simp [sameMembers]
  | (k, x) :: ms, (l, y) :: ns =>
      simp [sameMembers, same_iff x y, sameMembers_iff ms ns, and_assoc]

end

instance : DecidableEq Json := fun a b => decidable_of_iff _ (same_iff a b)

end Json

/-- An object by itself: a map from keys to values. -/
structure JsonMap where
  members : Members
  sorted : Json.Sorted members
deriving DecidableEq, Repr

namespace JsonMap

/-- The object without members. -/
def empty : JsonMap := ⟨[], Json.sorted_nil⟩

instance : EmptyCollection JsonMap := ⟨empty⟩

instance : Inhabited JsonMap := ⟨empty⟩

/-- The object with `value` as the value of `key`. -/
def insert (m : JsonMap) (key : String) (value : Json) : JsonMap :=
  ⟨Json.setMember key value m.members, Json.sorted_setMember m.sorted⟩

def toJson (m : JsonMap) : Json := .object m.members

end JsonMap

end BslNav
