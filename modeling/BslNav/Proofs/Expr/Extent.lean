import BslNav.Document.Snapshot
import BslNav.Proofs.Expr.Linking
import BslNav.Proofs.Text.Lines
import BslNav.Text.Range

/-!
# BslNav.Proofs.Expr.Extent

How far expressions reach in the text.

The bytes of a node lie within those of every node around it, and nodes side by
side follow each other.  Direct sub-expressions are read from seats that are in
order, so their bytes are in order too, unless a type name is written after the
arguments; and since lines keep the order of offsets, what holds of bytes holds
of the ranges that are shown, whether the text is that of the tree or not.

* `span_of_mem_nodes` — nodes inside a node;
* `pairwise_seats` — seats in order;
* `rangeOf_nested` — ranges of sub-expressions, nested and in order.
-/

namespace BslNav

namespace Placed

/-! ## bytes -/

mutual

theorem span_of_mem_nodesOf {m : Placed} (start : Nat) (t : SyntaxTree)
    (h : m ∈ nodesOf start t) : start ≤ m.span.start ∧ m.span.stop ≤ start + t.width := by
  cases t with
  | token kind text => simp [nodesOf] at h
  | node kind es =>
      obtain rfl | h := List.mem_cons.mp h
      · exact ⟨Nat.le_refl _, Nat.le_refl _⟩
      · exact span_of_mem_nodesOfList start es h

theorem span_of_mem_nodesOfList {m : Placed} (start : Nat) (es : List SyntaxTree)
    (h : m ∈ nodesOfList start es) :
    start ≤ m.span.start ∧ m.span.stop ≤ start + SyntaxTree.widthOfList es := by
  cases es with
  | nil => simp [nodesOfList] at h
  | cons e es =>
      rw [nodesOfList] at h
      rw [SyntaxTree.widthOfList]
      obtain h | h := List.mem_append.mp h
      · have hspan := span_of_mem_nodesOf start e h
        omega
      · have hspan := span_of_mem_nodesOfList (start + e.width) es h
        omega

end

/-- The bytes of a node lie within those of the node around it. -/
theorem span_of_mem_nodes {p m : Placed} (h : m ∈ p.nodes) :
    p.span.start ≤ m.span.start ∧ m.span.stop ≤ p.span.stop :=
  span_of_mem_nodesOf p.start p.tree h

/-- The one tree ends before the other begins. -/
def Precedes (a b : Placed) : Prop := a.span.stop ≤ b.span.start

theorem start_le_of_mem_sideBySide {start : Nat} {es : List SyntaxTree} {c : Placed}
    (h : c ∈ sideBySide start es) : start ≤ c.span.start := by
  induction es generalizing start with
  | nil => simp [sideBySide] at h
  | cons e es ih =>
      obtain rfl | h := List.mem_cons.mp h
      · exact Nat.le_refl _
      · exact Nat.le_trans (Nat.le_add_right _ _) (ih h)

theorem pairwise_sideBySide (start : Nat) (es : List SyntaxTree) :
    (sideBySide start es).Pairwise Precedes := by
  induction es generalizing start with
  | nil => exact .nil
  | cons e es ih => exact .cons (fun _ => start_le_of_mem_sideBySide) (ih _)

theorem pairwise_childNodes (p : Placed) : p.childNodes.Pairwise Precedes :=
  (pairwise_sideBySide p.start p.tree.elements).filter _

/-! ## seats in order -/

/-- If there are both, the first type name stands before the first argument
list. -/
def TypeNameFirst (p : Placed) : Prop :=
  (p.childOf .typeName).isSome → (p.childOf .argList).isSome →
    p.childNodes.findIdx (fun c => c.kind = .typeName) <
      p.childNodes.findIdx (fun c => c.kind = .argList)

instance (p : Placed) : Decidable p.TypeNameFirst :=
  inferInstanceAs (Decidable (_ → _ → _))

theorem TypeNameFirst.precedes {p typeNode list : Placed} (h : p.TypeNameFirst)
    (htype : p.childOf .typeName = some typeNode) (hlist : p.childOf .argList = some list) :
    typeNode.Precedes list := by
  have hlt := h (by simp [htype]) (by simp [hlist])
  rw [childOf, List.find?_eq_getElem?_findIdx] at htype hlist
  obtain ⟨hi, rfl⟩ := List.getElem?_eq_some_iff.mp htype
  obtain ⟨hj, rfl⟩ := List.getElem?_eq_some_iff.mp hlist
  exact List.pairwise_iff_getElem.mp p.pairwise_childNodes _ _ hi hj hlt

theorem pairwise_argumentSlots (p : Placed) : p.argumentSlots.reduceOption.Pairwise Precedes := by
  rw [reduceOption_argumentSlots]
  cases p.childOf .argList with
  | none => exact .nil
  | some list => simpa using list.pairwise_childNodes.filter _

/-- What is in the seats is in order. -/
theorem pairwise_seats {p : Placed} (h : p.kind = .newExpr → p.TypeNameFirst) :
    p.seats.reduceOption.Pairwise Precedes := by
  have hchild : ∀ n, ((p.childNodes.take n).map some).reduceOption.Pairwise Precedes := by
    intro n
    have hsome : ((p.childNodes.take n).map some).reduceOption = p.childNodes.take n := by
      simp [List.reduceOption, List.filterMap_map]
    rw [hsome]
    exact p.pairwise_childNodes.sublist (List.take_sublist n _)
  unfold seats
  split
  · exact hchild 2
  · exact hchild 1
  · exact p.pairwise_argumentSlots
  · next kind =>
      cases htype : p.childOf .typeName with
      | none => exact p.pairwise_argumentSlots
      | some typeNode =>
          refine .cons (fun c hc => ?_) p.pairwise_argumentSlots
          obtain ⟨list, hlist, hc⟩ := exists_list_of_mem_argumentSlots hc
          have hle : typeNode.Precedes list := (h kind).precedes htype hlist
          exact Nat.le_trans hle (start_le_of_mem_sideBySide (List.mem_of_mem_filter hc))
  · exact .nil

end Placed

/-- A seat whose holder is linked is not left out. -/
theorem Seated.exists_node {seat : Option Placed} {role : Expr.Role} {e : Expr} {link : NodeLink}
    (h : Seated seat (role, e)) (hlink : e.link? = some link) :
    ∃ c, seat = some c ∧ ∃ m ∈ c.nodes, link = m.link := by
  cases seat with
  | none =>
      cases h
      contradiction
  | some c =>
      obtain ⟨m, hm, horigin⟩ := h.exists_origin
      exact ⟨c, rfl, m, hm, Option.some.inj (hlink.symm.trans horigin.link?_eq)⟩

/-- Holders of seats in order are linked to bytes in order. -/
theorem Seated.stop_le_start {seat seat' : Option Placed} {role role' : Expr.Role} {a b : Expr}
    {k l : NodeLink} (ha : Seated seat (role, a)) (hb : Seated seat' (role', b))
    (h : ∀ c, seat = some c → ∀ d, seat' = some d → c.Precedes d) (hk : a.link? = some k)
    (hl : b.link? = some l) : k.span.stop ≤ l.span.start := by
  obtain ⟨c, hc, m, hm, rfl⟩ := ha.exists_node hk
  obtain ⟨d, hd, n, hn, rfl⟩ := hb.exists_node hl
  calc m.span.stop ≤ c.span.stop := (Placed.span_of_mem_nodes hm).2
    _ ≤ d.span.start := h c hc d hd
    _ ≤ n.span.start := (Placed.span_of_mem_nodes hn).1

/-- If the first of two lists matched one by one is in order, so is the second. -/
theorem pairwise_of_forall₂ {α β : Type} {R : α → β → Prop} {S : α → α → Prop} {T : β → β → Prop}
    (hT : ∀ a a' b b', R a b → R a' b' → S a a' → T b b') {as : List α} {bs : List β}
    (h : List.Forall₂ R as bs) (hS : as.Pairwise S) : bs.Pairwise T := by
  induction h with
  | nil => exact .nil
  | cons hab htail ih =>
      obtain ⟨hfirst, hrest⟩ := List.pairwise_cons.mp hS
      refine .cons (fun b' hb' => ?_) (ih hrest)
      obtain ⟨a', ha', hab'⟩ := exists_of_forall₂ htail hb'
      exact hT _ _ _ _ hab hab' (hfirst a' ha')

/-! ## ranges -/

namespace Snapshot

variable (s : Snapshot)

/-- The lines and columns of the node that an expression is linked to. -/
def rangeOf? (e : Expr) : Option Range := e.link?.map s.rangeOf

theorem position_le {a b : Nat} (h : a ≤ b) : s.lines.position a ≤ s.lines.position b := by
  rw [s.lines_eq]
  exact LineIndex.position_mono s.text h

theorem containsRange_rangeOf {outer inner : NodeLink} (hstart : outer.span.start ≤ inner.span.start)
    (hstop : inner.span.stop ≤ outer.span.stop) :
    (s.rangeOf outer).containsRange (s.rangeOf inner) = true :=
  Range.containsRange_iff.mpr ⟨s.position_le hstart, s.position_le hstop⟩

end Snapshot

/-- **Ranges are nested and in order**: every sub-expression reaches as far as its
direct sub-expressions do at least, skipped arguments apart, and of these each
ends before the next begins, if no type name is written after the arguments. -/
theorem rangeOf_nested (s : Snapshot) {p : Placed} {e outer : Expr} {role : Expr.Role}
    (h : p.expression = .ok e) (houter : e.Occurs role outer) :
    (∀ c ∈ outer.children, c ≠ .skipped → ∃ r t, s.rangeOf? outer = some r ∧
      s.rangeOf? c = some t ∧ r.containsRange t = true) ∧
    ((∀ m ∈ p.nodes, m.kind = .newExpr → m.TypeNameFirst) →
      outer.children.Pairwise fun a b =>
        ∀ r ∈ s.rangeOf? a, ∀ t ∈ s.rangeOf? b, r.stop ≤ t.start) := by
  rw [← Expr.map_snd_roles]
  obtain ⟨rfl, -⟩ | ⟨m, hm, horigin⟩ := (reads_iff.mpr h).exists_origin houter
  · simp [Expr.roles]
  constructor
  · intro c hc hgiven
    obtain ⟨⟨part, c⟩, hmem, rfl⟩ := List.mem_map.mp hc
    obtain ⟨rfl, -⟩ | ⟨n, hn, hinner⟩ := horigin.of_mem_roles hmem
    · contradiction
    · have hspan := Placed.span_of_mem_nodes hn
      refine ⟨s.rangeOf m.link, s.rangeOf n.link, ?_, ?_, ?_⟩
      · rw [Snapshot.rangeOf?, horigin.link?_eq, Option.map_some]
      · rw [Snapshot.rangeOf?, hinner.link?_eq, Option.map_some]
      · exact s.containsRange_rangeOf hspan.1 hspan.2
  · intro hfirst
    have hseats := List.pairwise_filterMap.mp (Placed.pairwise_seats (hfirst m hm))
    rw [List.pairwise_map]
    refine pairwise_of_forall₂ (fun seat seat' held held' hheld hheld' hseat => ?_)
      horigin.seated hseats
    intro r hr t ht
    obtain ⟨k, hk, rfl⟩ := Option.map_eq_some_iff.mp hr
    obtain ⟨l, hl, rfl⟩ := Option.map_eq_some_iff.mp ht
    exact s.position_le (hheld.stop_le_start hheld' hseat hk hl)

/-- The tree of `(New Map(x,))` with a text that ends after `New` and a line
break. -/
def extentSample : Snapshot where
  version := ⟨⟨0⟩, ⟨0⟩⟩
  uri := "a.bsl"
  editorVersion := 0
  text := "(New\n"
  lines := .ofText "(New\n"
  tree := linkedSample
  table := .empty ⟨⟨0⟩, ⟨0⟩⟩
  occurrences := .empty
  lines_eq := rfl
  table_version := rfl

theorem rangeOf_nested_extentSample : ∃ e, extentSample.tree.root.expression = .ok e ∧
    (∀ m ∈ extentSample.tree.root.nodes, m.kind = .newExpr → m.TypeNameFirst) ∧
    extentSample.rangeOf? e = some ⟨⟨0, 1⟩, ⟨1, 7⟩⟩ ∧
    (∀ c ∈ e.children, c ≠ .skipped → ∃ r t, extentSample.rangeOf? e = some r ∧
      extentSample.rangeOf? c = some t ∧ r.containsRange t = true) ∧
    e.children.Pairwise fun a b =>
      ∀ r ∈ extentSample.rangeOf? a, ∀ t ∈ extentSample.rangeOf? b, r.stop ≤ t.start := by
  have hfirst : ∀ m ∈ linkedSample.root.nodes, m.kind = .newExpr → m.TypeNameFirst := by decide
  have hnested := rangeOf_nested extentSample (p := linkedSample.root) rfl .whole
  exact ⟨_, rfl, hfirst, by decide +kernel, hnested.1, hnested.2 hfirst⟩

end BslNav
