import BslNav.Proofs.Document.Analysis
import Mathlib.Data.List.Induction
import Mathlib.Data.List.Nodup

/-!
# BslNav.Proofs.Symbol.Filling

What a table holds after any sequence of insertions.

A table keeps its symbols by slot and its slots by lower-cased name, and refuses
symbols of other documents.  Whatever it is asked, the answer is that of the plain
list of the symbols it did not refuse:

* `run_insertion` — a refusal comes before any change;
* `Declares.getD_slots` — the slots under a name are those of the symbols so named;
* `contents_filled` — the ids that are returned, and what is found by id, by name
  and by listing.
-/

namespace BslNav.SymbolTable

/-- An insertion in its steps: the owner is checked, the slot is entered under the
name, the symbol is stored.  A failure leaves the table as the steps before it made
it. -/
def insertion (s : SourceSymbol) : EStateM Violation SymbolTable DefId := do
  let t ← get
  if s.owner ≠ t.document then
    throw (.foreignSymbol s.name)
  let slot := t.size
  let key := lowerCase s.name
  modify fun t => { t with slots := t.slots.insert key ((t.slots.get? key).getD [] ++ [slot]) }
  modify fun t => { t with symbols := t.symbols.push s }
  return t.defId slot

/-- The table after an attempt to insert a symbol. -/
def after (t : SymbolTable) (s : SourceSymbol) : SymbolTable :=
  match t.insert s with
  | .ok (_, t') => t'
  | .error _ => t

/-- A new table after attempts to insert symbols one after the other. -/
def filled (version : Version) (symbols : List SourceSymbol) : SymbolTable :=
  symbols.foldl after (empty version)

/-- Those of the symbols that the document of the version owns. -/
def owned (version : Version) (symbols : List SourceSymbol) : List SourceSymbol :=
  symbols.filter fun s => decide (s.owner = version.document)

/-! ## one insertion -/

section Insertion

variable {t t' : SymbolTable} {s : SourceSymbol} {d : DefId}

/-- The insertion is its steps, and one that fails has changed nothing. -/
theorem run_insertion (t : SymbolTable) (s : SourceSymbol) :
    (insertion s).run t =
      match t.insert s with
      | .ok (d, t') => .ok d t'
      | .error v => .error v t := by
  by_cases h : s.owner = t.document <;> simp [insertion, insert, h, -bind_pure_comp]

theorem insert_of_owned (h : s.owner = t.document) :
    t.insert s = .ok (t.defId t.size, t.after s) := by
  simp [after, insert, h]

theorem insert_of_foreign (h : s.owner ≠ t.document) :
    t.insert s = .error (.foreignSymbol s.name) := by
  simp [insert, h]

theorem after_of_foreign (h : s.owner ≠ t.document) : t.after s = t := by
  simp [after, insert, h]

/-- The next slot joins those under the name of the symbol. -/
theorem getD_slots_of_insert (h : t.insert s = .ok (d, t')) (key : String) :
    (t'.slots.get? key).getD [] =
      (t.slots.get? key).getD [] ++ if lowerCase s.name = key then [t.size] else [] := by
  unfold insert at h
  split at h
  · simp only [Except.ok.injEq, Prod.mk.injEq] at h
    obtain ⟨-, rfl⟩ := h
    rw [OrderedMap.get?_insert]
    split
    · next hkey => rw [hkey, Option.getD_some]
    · rw [List.append_nil]
  · contradiction

end Insertion

/-! ## ids -/

theorem isCurrentFor_version_iff {t : SymbolTable} {d : DefId} :
    d.isCurrentFor t.version = true ↔ d.document = t.document ∧ d.generation = t.generation := by
  rw [DefId.isCurrentFor_iff, DefId.ownerVersion, document, generation, Version.mk.injEq]

theorem resolve_eq_none_iff {t : SymbolTable} {d : DefId} : t.resolve d = none ↔
    ¬ (d.document = t.document ∧ d.generation = t.generation ∧ d.slot < t.size) := by
  rw [← and_assoc, ← isCurrentFor_version_iff, resolve]
  by_cases h : d.isCurrentFor t.version = true <;> simp [h, get?, size]

/-! ## the declared symbols by slot and by name -/

section Declares

variable {t : SymbolTable} {declared : List SourceSymbol}

theorem Declares.toList_eq (h : t.Declares declared) :
    t.toList = declared.mapIdx fun slot s => (t.defId slot, s) := by
  rw [toList, h.symbols_eq, List.mapIdx_eq_zipIdx_map]

theorem Declares.resolve_eq_some_iff (h : t.Declares declared) {d : DefId} {s : SourceSymbol} :
    t.resolve d = some s ↔
      d.document = t.document ∧ d.generation = t.generation ∧ declared[d.slot]? = some s := by
  rw [← h.get?_eq, ← and_assoc, ← isCurrentFor_version_iff, resolve]
  simp

/-- The slots under a name are those of the symbols with this name, in order. -/
theorem Declares.getD_slots (h : t.Declares declared) (key : String) :
    (t.slots.get? key).getD [] =
      (declared.zipIdx.filter fun e => decide (lowerCase e.1.name = key)).map Prod.snd := by
  induction h with
  | empty version => rfl
  | @insert t t' declared s d hdeclares hinsert ih =>
      rw [getD_slots_of_insert hinsert, ih, hdeclares.size_eq, List.zipIdx_append,
        List.filter_append, List.map_append]
      by_cases hkey : lowerCase s.name = key <;> simp [hkey]

theorem Declares.lookup_eq (h : t.Declares declared) (name : String) :
    t.lookup name =
      (t.toList.filter fun e => decide (lowerCase e.2.name = lowerCase name)).map Prod.fst := by
  rw [lookup, h.getD_slots, toList, h.symbols_eq, List.filter_map, List.map_map, List.map_map]
  rfl

/-- No two symbols have the same id. -/
theorem nodup_map_fst_toList (t : SymbolTable) : (t.toList.map Prod.fst).Nodup := by
  have hslots : (t.symbols.toList.zipIdx.map Prod.snd).Nodup := by
    rw [List.zipIdx_map_snd]
    exact List.nodup_range'
  have hids : t.toList.map Prod.fst = (t.symbols.toList.zipIdx.map Prod.snd).map t.defId := by
    rw [toList, List.map_map, List.map_map]
    rfl
  rw [hids]
  exact hslots.map fun a b hab => congrArg DefId.slot hab

theorem nodup_lookup (h : t.Declares declared) (name : String) : (t.lookup name).Nodup := by
  rw [h.lookup_eq]
  exact t.nodup_map_fst_toList.sublist (List.filter_sublist.map Prod.fst)

end Declares

/-! ## any sequence of insertions -/

section Filling

variable (version : Version) (symbols : List SourceSymbol)

theorem filled_append_singleton (s : SourceSymbol) :
    filled version (symbols ++ [s]) = (filled version symbols).after s :=
  List.foldl_concat ..

theorem owned_append (more : List SourceSymbol) :
    owned version (symbols ++ more) = owned version symbols ++ owned version more :=
  List.filter_append ..

theorem owned_singleton (s : SourceSymbol) :
    owned version [s] = if s.owner = version.document then [s] else [] := by
  simp [owned, List.filter_cons]

theorem version_after (t : SymbolTable) (s : SourceSymbol) : (t.after s).version = t.version := by
  by_cases h : s.owner = t.document
  · exact (insert_eq_ok (insert_of_owned h)).2.1
  · rw [after_of_foreign h]

@[simp] theorem version_filled : (filled version symbols).version = version := by
  induction symbols using List.reverseRecOn with
  | nil => rfl
  | append_singleton symbols s ih => rw [filled_append_singleton, version_after, ih]

@[simp] theorem document_filled : (filled version symbols).document = version.document := by
  rw [document, version_filled]

@[simp] theorem generation_filled : (filled version symbols).generation = version.generation := by
  rw [generation, version_filled]

/-- A filled table declares the symbols that its document owns, and no others. -/
theorem declares_filled : (filled version symbols).Declares (owned version symbols) := by
  induction symbols using List.reverseRecOn with
  | nil => exact .empty version
  | append_singleton symbols s ih =>
      rw [filled_append_singleton, owned_append, owned_singleton]
      by_cases h : s.owner = version.document
      · have hinsert := insert_of_owned (t := filled version symbols) (by rwa [document_filled])
        rw [if_pos h]
        exact .insert ih hinsert
      · rw [after_of_foreign (by rwa [document_filled]), if_neg h, List.append_nil]
        exact ih

theorem defId_filled (slot : Nat) :
    (filled version symbols).defId slot = ⟨version.document, version.generation, slot⟩ := by
  rw [defId, document_filled, generation_filled]

/-- **A table holds what was put in.**  After any attempts to insert symbols a table
gives the next symbol of its document the id of the next slot, refuses any other and
does so before it changes anything; an id leads to the symbol in its slot if document
and generation are those of the table; the listing shows all symbols with their ids in
the order of insertion; a name leads to each symbol that has it, letter case aside,
once and in this order; and what an id leads to, it leads to ever after. -/
theorem contents_filled :
    (∀ s, (insertion s).run (filled version symbols) =
      match (filled version symbols).insert s with
      | .ok (d, t) => .ok d t
      | .error v => .error v (filled version symbols)) ∧
    (∀ s, s.owner = version.document → (filled version symbols).insert s =
      .ok (⟨version.document, version.generation, (owned version symbols).length⟩,
        filled version (symbols ++ [s]))) ∧
    (∀ s, s.owner ≠ version.document →
      (filled version symbols).insert s = .error (.foreignSymbol s.name) ∧
      filled version (symbols ++ [s]) = filled version symbols) ∧
    (filled version symbols).size = (owned version symbols).length ∧
    (∀ d s, (filled version symbols).resolve d = some s ↔
      d.document = version.document ∧ d.generation = version.generation ∧
        (owned version symbols)[d.slot]? = some s) ∧
    (∀ d, (filled version symbols).resolve d = none ↔
      ¬ (d.document = version.document ∧ d.generation = version.generation ∧
        d.slot < (filled version symbols).size)) ∧
    (filled version symbols).toList = (owned version symbols).mapIdx (fun slot s =>
      (⟨version.document, version.generation, slot⟩, s)) ∧
    (∀ name, (filled version symbols).lookup name =
        ((filled version symbols).toList.filter fun e =>
          decide (lowerCase e.2.name = lowerCase name)).map Prod.fst ∧
      ((filled version symbols).lookup name).Nodup) ∧
    ∀ more d s, (filled version symbols).resolve d = some s →
      (filled version (symbols ++ more)).resolve d = some s := by
  have hdeclares := declares_filled version symbols
  refine ⟨fun s => run_insertion _ s, ?_, ?_, hdeclares.size_eq, ?_, ?_, ?_, ?_, ?_⟩
  · intro s h
    rw [filled_append_singleton, insert_of_owned (by rwa [document_filled]), defId_filled,
      hdeclares.size_eq]
  · intro s h
    have hforeign : s.owner ≠ (filled version symbols).document := by rwa [document_filled]
    rw [filled_append_singleton]
    exact ⟨insert_of_foreign hforeign, after_of_foreign hforeign⟩
  · intro d s
    rw [hdeclares.resolve_eq_some_iff, document_filled, generation_filled]
  · intro d
    rw [resolve_eq_none_iff, document_filled, generation_filled]
  · simp only [hdeclares.toList_eq, defId_filled]
  · intro name
    exact ⟨hdeclares.lookup_eq name, nodup_lookup hdeclares name⟩
  · intro more d s h
    rw [hdeclares.resolve_eq_some_iff] at h
    obtain ⟨hdocument, hgeneration, hslot⟩ := h
    rw [(declares_filled version (symbols ++ more)).resolve_eq_some_iff, owned_append]
    rw [document_filled, generation_filled] at *
    rw [List.getElem?_append_left (List.getElem?_eq_some_iff.mp hslot).1]
    exact ⟨hdocument, hgeneration, hslot⟩

/-- A method of the document with this number. -/
def methodOf (owner : Nat) (name : String) : SourceSymbol :=
  ⟨name, .method, ⟨owner⟩, ⟨⟨0, 0⟩, ⟨1, 0⟩⟩, ⟨⟨0, 4⟩, ⟨0, 8⟩⟩, rfl⟩

/-- A refused symbol takes no slot. -/
theorem contents_filled_mixedOwners :
    (methodOf 0 "MAIN").owner = ⟨0⟩ ∧ (methodOf 1 "Main").owner ≠ ⟨0⟩ ∧
    (filled ⟨⟨0⟩, ⟨3⟩⟩ [methodOf 0 "Main", methodOf 1 "Main"]).insert (methodOf 0 "MAIN") =
      .ok (⟨⟨0⟩, ⟨3⟩, 1⟩,
        filled ⟨⟨0⟩, ⟨3⟩⟩ [methodOf 0 "Main", methodOf 1 "Main", methodOf 0 "MAIN"]) ∧
    filled ⟨⟨0⟩, ⟨3⟩⟩ [methodOf 0 "Main", methodOf 1 "Main"] =
      filled ⟨⟨0⟩, ⟨3⟩⟩ [methodOf 0 "Main"] := by
  have howned : (methodOf 0 "MAIN").owner = ⟨0⟩ := rfl
  have hforeign : (methodOf 1 "Main").owner ≠ ⟨0⟩ := by decide
  exact ⟨howned, hforeign,
    (contents_filled ⟨⟨0⟩, ⟨3⟩⟩ [methodOf 0 "Main", methodOf 1 "Main"]).2.1 _ howned,
    ((contents_filled ⟨⟨0⟩, ⟨3⟩⟩ [methodOf 0 "Main"]).2.2.1 _ hforeign).2⟩

end Filling

end BslNav.SymbolTable
