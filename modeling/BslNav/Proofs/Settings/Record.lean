import BslNav.Data.Except
import BslNav.Proofs.Json.Keys
import BslNav.Settings.Decode

/-!
# BslNav.Proofs.Settings.Record

What a record holds that was read from a JSON value.

Reading goes through the members of an object in the order in which they stand,
or through the items of an array.  What comes out depends on neither: `Assembles`
takes the fields in the order of declaration and gives each its part, which is
the member of its key, or its item (`members?`).  For fields that keep out of
each other's way,

* `read_eq_ok_iff` — a value reads as a record exactly if it has members and the
  record is assembled from them.
-/

namespace BslNav

open Json

/-- What a part says of a value: what it means if it is there, and else that the
value is `base`. -/
def Given {α : Type} (means : Json → α → Prop) (base : α) : Option Json → α → Prop
  | none, a => a = base
  | some v, a => means v a

namespace Field

variable {σ α α' : Type}

/-- Values can be stored in the two fields in one order exactly if they can in
the other, with the same result. -/
def Commutes (f g : Field Json σ) : Prop :=
  ∀ v w s s', (∃ t, f.store v s = .ok t ∧ g.store w t = .ok s') ↔
    ∃ t, g.store w s = .ok t ∧ f.store v t = .ok s'

theorem store_of_eq_ok_iff {key : String} {read : Json → Except DecodeError α} {set : α → σ → σ}
    {v : Json} {s s' : σ} :
    (Field.of key read set).store v s = .ok s' ↔ ∃ a, read v = .ok a ∧ s' = set a s :=
  map_eq_ok_iff

/-- Fields that set different parts of a record keep out of each other's way. -/
theorem commutes_of {key key' : String} {read : Json → Except DecodeError α}
    {read' : Json → Except DecodeError α'} {set : α → σ → σ} {set' : α' → σ → σ}
    (h : ∀ a a' s, set' a' (set a s) = set a (set' a' s)) :
    (Field.of key read set).Commutes (Field.of key' read' set') := by
  intro v w s s'
  simp only [store_of_eq_ok_iff]
  constructor
  · rintro ⟨t, ⟨a, ha, rfl⟩, a', ha', rfl⟩
    exact ⟨_, ⟨a', ha', rfl⟩, a, ha, h a a' s⟩
  · rintro ⟨t, ⟨a', ha', rfl⟩, a, ha, rfl⟩
    exact ⟨_, ⟨a, ha, rfl⟩, a', ha', (h a a' s).symm⟩

/-- The field takes its part, if there is one. -/
def Takes (f : Field Json σ) (s : σ) : Option Json → σ → Prop :=
  Given (fun v t => f.store v s = .ok t) s

/-- A field that stores what `get` shows takes a part exactly if the part gives
the value. -/
theorem takes_of_iff {key : String} {read : Json → Except DecodeError α} {set : α → σ → σ}
    {means : Json → α → Prop} {part : Option Json} {s t : σ} (get : σ → α)
    (hget : set (get s) s = s) (hread : ∀ v, part = some v → ∀ a, read v = .ok a ↔ means v a) :
    (Field.of key read set).Takes s part t ↔ ∃ a, Given means (get s) part a ∧ t = set a s := by
  cases part with
  | none => simp [Takes, Given, hget]
  | some v => simp [Takes, Given, store_of_eq_ok_iff, hread v rfl]

end Field

namespace Record

variable {σ : Type} {fields fs : List (Field Json σ)} {s s' : σ}

/-- The members of a record's JSON form.  Keys name the items of an array, as
far as it goes. -/
def members? (keys : List String) : Json → Option Members
  | .object members => some members
  | .array items => if items.length ≤ keys.length then some (keys.zip items) else none
  | _ => none

/-- The record `s'` comes of `s` when each field takes its part, in the order of
declaration. -/
def Assembles (part : String → Option Json) : List (Field Json σ) → σ → σ → Prop
  | [], s, s' => s' = s
  | f :: fs, s, s' => ∃ t, f.Takes s (part f.key) t ∧ Assembles part fs t s'

theorem assembles_congr {part part' : String → Option Json}
    (h : ∀ f ∈ fs, part f.key = part' f.key) : Assembles part fs s s' ↔ Assembles part' fs s s' := by
  induction fs generalizing s with
  | nil => rfl
  | cons f fs ih =>
      have hrest : ∀ g ∈ fs, part g.key = part' g.key := fun g hg => h g (List.mem_cons_of_mem f hg)
      simp only [Assembles, h f List.mem_cons_self, ih hrest]

/-- Without parts the record stays. -/
theorem assembles_none_iff : Assembles (fun _ => none) fs s s' ↔ s' = s := by
  induction fs generalizing s with
  | nil => rfl
  | cons f fs ih => simp [Assembles, Field.Takes, Given, ih]

/-- A part that is stored before all others may as well be stored in its turn. -/
theorem assembles_first_iff {part : String → Option Json} {f : Field Json σ} {v : Json}
    (hf : f ∈ fs) (hkeys : (fs.map Field.key).Nodup) (hcomm : fs.Pairwise Field.Commutes)
    (hnone : part f.key = none) :
    (∃ t, f.store v s = .ok t ∧ Assembles part fs t s') ↔
      Assembles (fun key => if key = f.key then some v else part key) fs s s' := by
  induction fs generalizing s with
  | nil => simp at hf
  | cons g fs ih =>
      obtain ⟨hg, hkeys⟩ := List.nodup_cons.mp hkeys
      obtain ⟨hgcomm, hcomm⟩ := List.pairwise_cons.mp hcomm
      obtain rfl | hf := List.mem_cons.mp hf
      · -- the field is at the front, and no other has its key
        have hrest : ∀ h ∈ fs, part h.key = if h.key = f.key then some v else part h.key := by
          intro h hh
          have hmem : h.key ∈ fs.map Field.key := List.mem_map_of_mem hh
          have hne : h.key ≠ f.key := fun heq => hg (heq ▸ hmem)
          exact (if_neg hne).symm
        simp only [Assembles, hnone, Field.Takes, Given, ↓reduceIte, exists_eq_left]
        exact exists_congr fun t => and_congr_right fun _ => assembles_congr hrest
      · have hmem : f.key ∈ fs.map Field.key := List.mem_map_of_mem hf
        have hne : g.key ≠ f.key := fun heq => hg (heq ▸ hmem)
        simp only [Assembles, if_neg hne, ← ih hf hkeys hcomm]
        cases part g.key with
        | none => simp [Field.Takes, Given]
        | some w =>
            have hswap := hgcomm f hf w v s
            simp only [Field.Takes, Given]
            constructor
            · rintro ⟨t, ht, u, hu, hs'⟩
              obtain ⟨t', ht', hu'⟩ := (hswap u).mpr ⟨t, ht, hu⟩
              exact ⟨t', ht', u, hu', hs'⟩
            · rintro ⟨t, ht, u, hu, hs'⟩
              obtain ⟨t', ht', hu'⟩ := (hswap u).mp ⟨t, ht, hu⟩
              exact ⟨t', ht', u, hu', hs'⟩

/-- Members without a repeated key give the record they assemble. -/
theorem ofMembers_eq_ok_iff {seen : List String} {ms : Members}
    (hkeys : (fields.map Field.key).Nodup) (hcomm : fields.Pairwise Field.Commutes)
    (hms : (ms.map Prod.fst).Nodup) (hseen : ∀ key ∈ ms.map Prod.fst, key ∉ seen) :
    ofMembers true fields seen (ms.map fun (k, v) => (some k, v)) s = .ok s' ↔
      Assembles (memberOf ms) fields s s' := by
  induction ms generalizing seen s with
  | nil =>
      have hnone : memberOf [] = fun _ => none := rfl
      rw [hnone, assembles_none_iff]
      simp [ofMembers, eq_comm]
  | cons m ms ih =>
      obtain ⟨k, v⟩ := m
      obtain ⟨hk, hnodup⟩ := List.nodup_cons.mp hms
      have hrest : ∀ key ∈ ms.map Prod.fst, key ∉ seen :=
        fun key hkey => hseen key (List.mem_cons_of_mem _ hkey)
      have hnew : k ∉ seen := hseen k (by simp)
      rw [List.map_cons, ofMembers]
      cases hfind : fields.find? (·.key = k) with
      | none =>
          have hne : ∀ f ∈ fields, f.key ≠ k := by simpa using hfind
          simp only [ih hnodup hrest]
          refine assembles_congr fun f hf => ?_
          rw [memberOf_cons, if_neg (hne f hf)]
      | some f =>
          have hf := List.mem_of_find?_eq_some hfind
          obtain rfl : f.key = k := by simpa using List.find?_some hfind
          have hseen' : ∀ key ∈ ms.map Prod.fst, key ∉ f.key :: seen := by
            intro key hkey hmem
            obtain rfl | hmem := List.mem_cons.mp hmem
            · exact hk hkey
            · exact hrest key hkey hmem
          simp only [if_neg hnew, bind_eq_ok_iff, ih hnodup hseen']
          rw [assembles_first_iff hf hkeys hcomm (memberOf_eq_none hk)]
          exact assembles_congr fun g _ => (memberOf_cons ..).symm

/-- Items that are no more than the fields give the record they assemble. -/
theorem ofItems_eq_ok_iff {items : List Json} (hkeys : (fields.map Field.key).Nodup) :
    ofItems true fields items s = .ok s' ↔
      items.length ≤ fields.length ∧
        Assembles (memberOf ((fields.map Field.key).zip items)) fields s s' := by
  induction fields generalizing items s with
  | nil =>
      cases items with
      | nil => simp [ofItems, Assembles, eq_comm]
      | cons v items => simp [ofItems]
  | cons f fields ih =>
      obtain ⟨hf, hkeys⟩ := List.nodup_cons.mp hkeys
      cases items with
      | nil =>
          have hnone : memberOf ((List.map Field.key (f :: fields)).zip []) = fun _ => none := by
            simp [funext_iff]
          rw [hnone, assembles_none_iff]
          simp [ofItems, eq_comm]
      | cons v items =>
          have hrest : ∀ g ∈ fields, memberOf ((fields.map Field.key).zip items) g.key =
              memberOf (((f :: fields).map Field.key).zip (v :: items)) g.key := by
            intro g hg
            have hmem : g.key ∈ fields.map Field.key := List.mem_map_of_mem hg
            have hne : g.key ≠ f.key := fun heq => hf (heq ▸ hmem)
            rw [List.map_cons, List.zip_cons_cons, memberOf_cons, if_neg hne]
          have hfirst : memberOf (((f :: fields).map Field.key).zip (v :: items)) f.key = some v := by
            rw [List.map_cons, List.zip_cons_cons, memberOf_cons, if_pos rfl]
          simp only [ofItems, bind_eq_ok_iff, ih hkeys, Assembles, hfirst, Field.Takes, Given,
            assembles_congr hrest, List.length_cons, Nat.add_le_add_iff_right]
          constructor
          · rintro ⟨t, ht, hlen, hs'⟩
            exact ⟨hlen, t, ht, hs'⟩
          · rintro ⟨hlen, t, ht, hs'⟩
            exact ⟨t, ht, hlen, hs'⟩

/-- A value reads as a record exactly if the record is assembled from its
members. -/
theorem read_eq_ok_iff {value : Json} (hkeys : (fields.map Field.key).Nodup)
    (hcomm : fields.Pairwise Field.Commutes) (hvalue : value.Ordered) :
    read fields s value = .ok s' ↔
      ∃ ms, members? (fields.map Field.key) value = some ms ∧
        Assembles (memberOf ms) fields s s' := by
  cases value with
  | object ms =>
      have hread : ofMembers true fields [] (ms.map fun (k, v) => (some k, v)) s = .ok s' ↔ _ :=
        ofMembers_eq_ok_iff hkeys hcomm hvalue.sorted.nodup (by simp)
      simpa [members?, read, Readable.view] using hread
  | array items =>
      have hread : ofItems true fields items s = .ok s' ↔ _ := ofItems_eq_ok_iff hkeys
      simpa [members?, read, Readable.view, and_assoc] using hread
  | null => simp [members?, read, Readable.view]
  | bool b => simp [members?, read, Readable.view]
  | number n => simp [members?, read, Readable.view]
  | string t => simp [members?, read, Readable.view]

/-- The parts of a value with ordered keys have ordered keys. -/
theorem ordered_of_memberOf {keys : List String} {value part : Json} {ms : Members} {key : String}
    (h : value.Ordered) (hms : members? keys value = some ms) (hpart : memberOf ms key = some part) :
    part.Ordered := by
  have hmem := mem_of_memberOf hpart
  unfold members? at hms
  split at hms
  · cases hms
    exact h.of_mem_object _ hmem
  · split at hms
    · cases hms
      exact h.of_mem_array _ (List.of_mem_zip hmem).2
    · contradiction
  · contradiction

end Record

end BslNav
