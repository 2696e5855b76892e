import BslNav.Proofs.Expr.Reading
import Mathlib.Data.List.ReduceOption
import Mathlib.Logic.Relation

/-!
# BslNav.Proofs.Expr.Account

What becomes of the child nodes of the nodes that are lowered.

A node is read from its `parts`, which are picked among its child nodes by their
number or their kind; what is left is its `surplus`.  Lowering does not look at
the surplus, and does not refuse it either: with a third operand, `a + b + c` in
one node is lowered to `a + b`.  An expression `Covers` its node if nothing was
passed over like that, in the node or in any node it was read through.

* `parts_append_surplus` — parts and surplus together are the child nodes;
* `expression_covers_iff` — an expression covers its node exactly if no node
  read through has a surplus;
* `expression_append` — elements added at the end of a node leave its expression
  as it was.
-/

namespace BslNav

open SyntaxTree

/-! ## taking out the first hit of a search -/

/-- The first hit and the list without it are the list. -/
theorem find?_append_eraseP {α : Type} (hit : α → Bool) (l : List α) :
    ((l.find? hit).toList ++ l.eraseP hit).Perm l := by
  induction l with
  | nil => rfl
  | cons a l ih =>
      by_cases ha : hit a
      · simp [ha]
      · simp only [Bool.not_eq_true] at ha
        rw [List.find?_cons_of_neg (by simp [ha]), List.eraseP_cons_of_neg (by simp [ha])]
        exact List.perm_middle.trans (ih.cons a)

/-- Taking out the first hit of one search does not disturb another. -/
theorem find?_eraseP {α : Type} {hit other : α → Bool}
    (hdisjoint : ∀ a, hit a = true → other a = false) (l : List α) :
    (l.eraseP hit).find? other = l.find? other := by
  induction l with
  | nil => rfl
  | cons a l ih =>
      by_cases ha : hit a
      · simp [ha, hdisjoint a ha]
      · rw [List.eraseP_cons_of_neg ha, List.find?_cons, List.find?_cons, ih]

/-! ## parts and surplus -/

namespace Placed

/-- The child nodes that a node of its kind is read from. -/
def parts (p : Placed) : List Placed :=
  match p.kind with
  | .parenExpr | .prefixExpr => p.childNodes.take 1
  | .binExpr => p.childNodes.take 2
  | .callExpr => (p.childOf .argList).toList
  | .newExpr => (p.childOf .argList).toList ++ (p.childOf .typeName).toList
  | .argList => p.childNodes.filter fun c => c.kind ≠ .comma
  | _ => []

/-- The child nodes that a node of its kind is not read from. -/
def surplus (p : Placed) : List Placed :=
  match p.kind with
  | .parenExpr | .prefixExpr => p.childNodes.drop 1
  | .binExpr => p.childNodes.drop 2
  | .callExpr => p.childNodes.eraseP fun c => c.kind = .argList
  | .newExpr =>
      (p.childNodes.eraseP fun c => c.kind = .argList).eraseP fun c => c.kind = .typeName
  | .argList => p.childNodes.filter fun c => c.kind = .comma
  | _ => p.childNodes

theorem parts_append_surplus (p : Placed) : (p.parts ++ p.surplus).Perm p.childNodes := by
  unfold parts surplus
  cases p.kind with
  | parenExpr | prefixExpr | binExpr => simp only [List.take_append_drop, List.Perm.refl]
  | callExpr => exact find?_append_eraseP _ _
  | newExpr =>
      have hargs := find?_append_eraseP (fun c : Placed => c.kind = .argList) p.childNodes
      have hname := find?_append_eraseP (fun c : Placed => c.kind = .typeName)
        (p.childNodes.eraseP fun c => c.kind = .argList)
      rw [find?_eraseP (by simp +contextual)] at hname
      simp only [List.append_assoc]
      exact (hname.append_left _).trans hargs
  | argList =>
      have hsplit := List.filter_append_perm (fun c : Placed => c.kind ≠ .comma) p.childNodes
      simpa using hsplit
  | _ => simp only [List.nil_append, List.Perm.refl]

/-- Without a surplus the child nodes are the parts, perhaps in another order. -/
theorem parts_perm {p : Placed} (h : p.surplus = []) : p.parts.Perm p.childNodes := by
  have hperm := p.parts_append_surplus
  rwa [h, List.append_nil] at hperm

theorem mem_childNodes_of_mem_parts {p c : Placed} (h : c ∈ p.parts) : c ∈ p.childNodes :=
  p.parts_append_surplus.subset (List.mem_append_left _ h)

/-- If there are as many parts as child nodes, nothing is left. -/
theorem surplus_eq_nil {p : Placed} (h : p.childNodes.length ≤ p.parts.length) :
    p.surplus = [] := by
  have hlength := p.parts_append_surplus.length_eq
  rw [List.length_append] at hlength
  exact List.eq_nil_of_length_eq_zero (by omega)

/-! ## nodes read through -/

/-- To read the node `p`, the node `q` is read: it is `p`, a part of it, a part of
a part, and so on. -/
def ReadThrough : Placed → Placed → Prop :=
  Relation.ReflTransGen fun p q => q ∈ p.parts

/-- No node read through has a surplus. -/
def Tidy (p : Placed) : Prop := ∀ q, p.ReadThrough q → q.surplus = []

theorem tidy_iff {p : Placed} : p.Tidy ↔ p.surplus = [] ∧ ∀ c ∈ p.parts, c.Tidy := by
  constructor
  · intro h
    exact ⟨h p .refl, fun c hc q hq => h q (.head hc hq)⟩
  · rintro ⟨hsurplus, hparts⟩ q hq
    obtain rfl | ⟨c, hc, hcq⟩ := hq.cases_head
    · exact hsurplus
    · exact hparts c hc q hcq

theorem Tidy.surplus_eq_nil {p : Placed} (h : p.Tidy) : p.surplus = [] := h p .refl

theorem Tidy.of_mem {p c : Placed} (h : p.Tidy) (hc : c ∈ p.parts) : c.Tidy :=
  (tidy_iff.mp h).2 c hc

theorem tidy_of_childNodes {p : Placed} (hlength : p.childNodes.length ≤ p.parts.length)
    (h : ∀ c ∈ p.childNodes, c.Tidy) : p.Tidy :=
  tidy_iff.mpr ⟨surplus_eq_nil hlength, fun c hc => h c (mem_childNodes_of_mem_parts hc)⟩

end Placed

/-! ## covering -/

mutual

/-- The expression accounts for all child nodes of the node, and so do its
operands and arguments for those of the nodes they come from: each child node is
what one operand was read from, perhaps in parentheses, or the argument list or
the type name of a call. -/
inductive Covers : Placed → Expr → Prop
  | terminal {p : Placed} {value : Terminal} (kind : p.kind = .literal ∨ p.kind = .nameRef)
      (children : p.childNodes = []) : Covers p (.terminal value (some p.link))
  | paren {p inner : Placed} {e : Expr} (kind : p.kind = .parenExpr)
      (children : p.childNodes = [inner]) (cover : Covers inner e) : Covers p e
  | binary {p left right : Placed} {l r : Expr} {op : BinaryOp} (kind : p.kind = .binExpr)
      (children : p.childNodes = [left, right]) (coverLeft : Covers left l)
      (coverRight : Covers right r) : Covers p (.binary op l r (some p.link))
  | unary {p operand : Placed} {e : Expr} {op : UnaryOp} (kind : p.kind = .prefixExpr)
      (children : p.childNodes = [operand]) (cover : Covers operand e) :
      Covers p (.unary op e (some p.link))
  | call {p : Placed} {list : Option Placed} {name : String} {args : List Expr}
      (kind : p.kind = .callExpr) (children : p.childNodes = list.toList)
      (cover : CoversList list args) : Covers p (.call name args (some p.link))
  /-- Type name and argument list may come in either order. -/
  | static {p typeNode : Placed} {list : Option Placed} {name : String} {args : List Expr}
      (kind : p.kind = .newExpr) (typeKind : typeNode.kind = .typeName)
      (typeChildren : typeNode.childNodes = [])
      (children : (list.toList ++ [typeNode]).Perm p.childNodes) (cover : CoversList list args) :
      Covers p (.construct (.terminal (.literal .typeName name) (some typeNode.link)) args
        (some p.link))
  | dynamic {p : Placed} {list : Option Placed} {t : Expr} {args : List Expr}
      (kind : p.kind = .newExpr) (children : p.childNodes = list.toList)
      (cover : CoversList list (t :: args)) : Covers p (.construct t args (some p.link))

/-- The arguments account for all child nodes of the argument list.  Without a
list there are no arguments. -/
inductive CoversList : Option Placed → List Expr → Prop
  | none : CoversList none []
  | some {list : Placed} {args : List Expr} (kind : list.kind = .argList)
      (cover : CoversArguments list.childNodes args) : CoversList (some list) args

/-- The arguments that are not skipped account for the nodes, one by one. -/
inductive CoversArguments : List Placed → List Expr → Prop
  | nil : CoversArguments [] []
  | skipped {nodes : List Placed} {args : List Expr} (cover : CoversArguments nodes args) :
      CoversArguments nodes (.skipped :: args)
  | given {c : Placed} {e : Expr} {nodes : List Placed} {args : List Expr}
      (first : Covers c e) (cover : CoversArguments nodes args) :
      CoversArguments (c :: nodes) (e :: args)

end

theorem Covers.kind_ne_comma : ∀ {p : Placed} {e : Expr}, Covers p e → p.kind ≠ .comma
  | _, _, .terminal (.inl kind) _ | _, _, .terminal (.inr kind) _ => by simp [kind]
  | _, _, .paren kind .. | _, _, .binary kind .. | _, _, .unary kind .. | _, _, .call kind ..
  | _, _, .static kind .. | _, _, .dynamic kind .. => by simp [kind]

/-! ## what covers its node is read from all of it -/

namespace Placed

variable {p : Placed} {list : Option Placed}

/-- If there is a child node of the kind, the search for one finds it or another. -/
theorem length_le_childOf {kind : SyntaxKind}
    (h : ∀ c ∈ list.toList, c ∈ p.childNodes ∧ c.kind = kind) :
    list.toList.length ≤ (p.childOf kind).toList.length := by
  cases list with
  | none => simp
  | some c =>
      obtain ⟨hc, hkind⟩ := h c (by simp)
      cases hfind : p.childOf kind with
      | some other => simp
      | none => simpa [hkind] using List.find?_eq_none.mp hfind c hc

theorem tidy_of_callExpr (kind : p.kind = .callExpr) (children : p.childNodes = list.toList)
    (hlist : ∀ c ∈ list.toList, c.Tidy ∧ c.kind = .argList) : p.Tidy := by
  apply tidy_of_childNodes
  · have hlength := length_le_childOf (p := p) fun c hc => ⟨children ▸ hc, (hlist c hc).2⟩
    simpa only [parts, kind, children] using hlength
  · rw [children]
    exact fun c hc => (hlist c hc).1

theorem tidy_of_newExpr (name : Option Placed) (kind : p.kind = .newExpr)
    (children : (list.toList ++ name.toList).Perm p.childNodes)
    (hlist : ∀ c ∈ list.toList, c.Tidy ∧ c.kind = .argList)
    (hname : ∀ c ∈ name.toList, c.Tidy ∧ c.kind = .typeName) : p.Tidy := by
  apply tidy_of_childNodes
  · have hlists := length_le_childOf (p := p) fun c hc =>
      ⟨children.subset (List.mem_append_left _ hc), (hlist c hc).2⟩
    have hnames := length_le_childOf (p := p) fun c hc =>
      ⟨children.subset (List.mem_append_right _ hc), (hname c hc).2⟩
    rw [← children.length_eq]
    simp only [parts, kind, List.length_append]
    omega
  · intro c hc
    obtain hc | hc := List.mem_append.mp (children.mem_iff.mpr hc)
    · exact (hlist c hc).1
    · exact (hname c hc).1

theorem tidy_of_argList {list : Placed} (kind : list.kind = .argList)
    (h : ∀ c ∈ list.childNodes, c.Tidy ∧ c.kind ≠ .comma) : list.Tidy := by
  have hkeep : (list.childNodes.filter fun c => c.kind ≠ .comma) = list.childNodes :=
    List.filter_eq_self.mpr fun c hc => by simpa using (h c hc).2
  apply tidy_of_childNodes
  · simp only [parts, kind, hkeep, Nat.le_refl]
  · exact fun c hc => (h c hc).1

end Placed

-- on how the expression covers the node; each rule leaves as many parts as child nodes
mutual

theorem Covers.tidy : ∀ {p : Placed} {e : Expr}, Covers p e → p.Tidy
  | _, _, .terminal kind children =>
      Placed.tidy_of_childNodes (by simp [children]) (by simp [children])
  | _, _, .paren kind children cover =>
      have htidy := cover.tidy
      Placed.tidy_of_childNodes (by simp [Placed.parts, kind, children]) (by simpa [children])
  | _, _, .binary kind children coverLeft coverRight =>
      have htidy := And.intro coverLeft.tidy coverRight.tidy
      Placed.tidy_of_childNodes (by simp [Placed.parts, kind, children]) (by simpa [children])
  | _, _, .unary kind children cover =>
      have htidy := cover.tidy
      Placed.tidy_of_childNodes (by simp [Placed.parts, kind, children]) (by simpa [children])
  | _, _, .call kind children cover => Placed.tidy_of_callExpr kind children cover.tidy
  | _, _, @Covers.static _ typeNode _ _ _ kind typeKind typeChildren children cover =>
      have htype : typeNode.Tidy :=
        Placed.tidy_of_childNodes (by simp [typeChildren]) (by simp [typeChildren])
      Placed.tidy_of_newExpr (some typeNode) kind children cover.tidy
        (by simpa using ⟨htype, typeKind⟩)
  | _, _, .dynamic kind children cover =>
      Placed.tidy_of_newExpr none kind (by simp [children]) cover.tidy (by simp)

theorem CoversList.tidy : ∀ {list : Option Placed} {args : List Expr},
    CoversList list args → ∀ c ∈ list.toList, c.Tidy ∧ c.kind = .argList
  | _, _, .none => by simp
  | _, _, .some kind cover => by simpa using ⟨Placed.tidy_of_argList kind cover.tidy, kind⟩

theorem CoversArguments.tidy : ∀ {nodes : List Placed} {args : List Expr},
    CoversArguments nodes args → ∀ c ∈ nodes, c.Tidy ∧ c.kind ≠ .comma
  | _, _, .nil => by simp
  | _, _, .skipped cover => cover.tidy
  | _, _, .given first cover =>
      List.forall_mem_cons.mpr ⟨⟨first.tidy, first.kind_ne_comma⟩, cover.tidy⟩

end

/-! ## what is read from all of a node covers it -/

namespace Placed

/-- The nodes in the slots are the nodes among the elements, less the commas. -/
theorem reduceOption_slotsFrom (filled delimited : Bool) (cs : List Placed) :
    (slotsFrom filled delimited cs).reduceOption =
      (cs.filter fun c => c.tree.isNode).filter fun c => c.kind ≠ .comma := by
  induction cs generalizing filled delimited with
  | nil => cases filled <;> cases delimited <;> rfl
  | cons c cs ih =>
      rw [slotsFrom]
      by_cases hcomma : c.kind = .comma
      · cases filled <;> cases hnode : c.tree.isNode <;>
          simp [hcomma, hnode, ih, List.reduceOption_cons_of_none]
      · cases hnode : c.tree.isNode <;>
          simp [hcomma, hnode, ih, List.reduceOption_cons_of_some]

theorem reduceOption_slots {list : Placed} (kind : list.kind = .argList) (h : list.surplus = []) :
    list.slots.reduceOption = list.childNodes := by
  have hcomma : ∀ c ∈ list.childNodes, c.kind ≠ .comma := by
    simpa [surplus, kind] using h
  rw [slots, reduceOption_slotsFrom]
  exact List.filter_eq_self.mpr fun c hc => by simpa using hcomma c hc

theorem childNodes_eq_singleton {p c : Placed} (first : p.childNodes[0]? = some c)
    (h : p.childNodes.drop 1 = []) : p.childNodes = [c] := by
  cases hnodes : p.childNodes with
  | nil => simp [hnodes] at first
  | cons d ds => simp_all

theorem childNodes_eq_pair {p c d : Placed} (first : p.childNodes[0]? = some c)
    (second : p.childNodes[1]? = some d) (h : p.childNodes.drop 2 = []) :
    p.childNodes = [c, d] := by
  cases hnodes : p.childNodes with
  | nil => simp [hnodes] at first
  | cons a as =>
      cases as with
      | nil => simp [hnodes] at second
      | cons b bs => simp_all

/-- A call is read from its argument list, and so is a constructor call without a
type name. -/
theorem childNodes_eq_argList {p : Placed}
    (kind : p.kind = .callExpr ∨ p.kind = .newExpr ∧ p.childOf .typeName = none)
    (h : p.surplus = []) : p.childNodes = (p.childOf .argList).toList := by
  have hparts : p.parts = (p.childOf .argList).toList := by
    obtain kind | ⟨kind, unwritten⟩ := kind
    · simp [parts, kind]
    · simp [parts, kind, unwritten]
  have hperm := parts_perm h
  rw [hparts] at hperm
  cases hlist : p.childOf .argList with
  | none => rw [hlist] at hperm; exact List.nil_perm.mp hperm
  | some list => rw [hlist] at hperm; exact (List.singleton_perm.mp hperm).symm

end Placed

/-- Where the argument list has no surplus, arguments that account for the nodes
in its slots account for all its child nodes. -/
theorem coversList_of_readsSlots {p : Placed} {args : List Expr}
    (htidy : ∀ list, p.childOf .argList = some list → list.Tidy)
    (read : ReadsSlots p.argumentSlots args)
    (h : (∀ c ∈ p.argumentSlots.reduceOption, c.Tidy) →
      CoversArguments p.argumentSlots.reduceOption args) :
    CoversList (p.childOf .argList) args := by
  unfold Placed.argumentSlots at h read
  cases hlist : p.childOf .argList with
  | none =>
      rw [hlist] at read
      obtain rfl := readsSlots_nil_iff.mp read
      exact .none
  | some list =>
      have kind := Placed.kind_of_childOf hlist
      have hlistTidy := htidy list hlist
      have hslots := Placed.reduceOption_slots kind hlistTidy.surplus_eq_nil
      rw [hlist, Option.map_some, Option.getD_some, hslots] at h
      refine .some kind (h fun c hc => hlistTidy.of_mem ?_)
      exact (Placed.parts_perm hlistTidy.surplus_eq_nil).mem_iff.mpr hc

-- on how the node reads as the expression; the arguments keep to the nodes in the
-- slots, which `coversList_of_readsSlots` turns into all child nodes of their list
mutual

theorem Reads.covers : ∀ {p : Placed} {e : Expr}, Reads p e → p.Tidy → Covers p e
  | _, _, .literal kind _, h =>
      .terminal (.inl kind) (by simpa [Placed.surplus, kind] using h.surplus_eq_nil)
  | _, _, .name kind _, h =>
      .terminal (.inr kind) (by simpa [Placed.surplus, kind] using h.surplus_eq_nil)
  | _, _, .paren kind first read, h => by
      have children := Placed.childNodes_eq_singleton first
        (by simpa [Placed.surplus, kind] using h.surplus_eq_nil)
      exact .paren kind children (read.covers (h.of_mem (by simp [Placed.parts, kind, children])))
  | _, _, .binary kind first second _ readLeft readRight, h => by
      have children := Placed.childNodes_eq_pair first second
        (by simpa [Placed.surplus, kind] using h.surplus_eq_nil)
      exact .binary kind children
        (readLeft.covers (h.of_mem (by simp [Placed.parts, kind, children])))
        (readRight.covers (h.of_mem (by simp [Placed.parts, kind, children])))
  | _, _, .unary kind first _ read, h => by
      have children := Placed.childNodes_eq_singleton first
        (by simpa [Placed.surplus, kind] using h.surplus_eq_nil)
      exact .unary kind children (read.covers (h.of_mem (by simp [Placed.parts, kind, children])))
  | _, _, .call kind _ read, h => by
      have hlist := coversList_of_readsSlots
        (fun list hlist => h.of_mem (by simp [Placed.parts, kind, hlist])) read read.covers
      exact .call kind (Placed.childNodes_eq_argList (.inl kind) h.surplus_eq_nil) hlist
  | _, _, @Reads.static _ typeNode _ _ kind written _ read, h => by
      have hlist := coversList_of_readsSlots
        (fun list hlist => h.of_mem (by simp [Placed.parts, kind, hlist])) read read.covers
      have hperm := Placed.parts_perm h.surplus_eq_nil
      have hname : typeNode.Tidy := h.of_mem (by simp [Placed.parts, kind, written])
      have typeKind := Placed.kind_of_childOf written
      exact .static kind typeKind
        (by simpa [Placed.surplus, typeKind] using hname.surplus_eq_nil)
        (by simpa [Placed.parts, kind, written] using hperm) hlist
  | p, _, @Reads.dynamic _ _ _ t args kind unwritten first readName read, h => by
      -- the type takes the first slot, so the slots are all those of the list again
      have hslots := ReadsSlots.given readName read
      have hcovers : (∀ c ∈ p.argumentSlots.reduceOption, c.Tidy) →
          CoversArguments p.argumentSlots.reduceOption (t :: args) := by
        rw [first, List.reduceOption_cons_of_some]
        exact fun h => .given (readName.covers (h _ List.mem_cons_self))
          (read.covers fun c hc => h c (List.mem_cons_of_mem _ hc))
      rw [← first] at hslots
      have hlist := coversList_of_readsSlots
        (fun list hlist => h.of_mem (by simp [Placed.parts, kind, hlist])) hslots hcovers
      exact .dynamic kind
        (Placed.childNodes_eq_argList (.inr ⟨kind, unwritten⟩) h.surplus_eq_nil) hlist

theorem ReadsSlots.covers : ∀ {slots : List (Option Placed)} {args : List Expr},
    ReadsSlots slots args → (∀ c ∈ slots.reduceOption, c.Tidy) →
      CoversArguments slots.reduceOption args
  | _, _, .nil, _ => .nil
  | _, _, .skipped read, h => .skipped (read.covers h)
  | _, _, .given first read, h => by
      rw [List.reduceOption_cons_of_some] at h ⊢
      exact .given (first.covers (h _ List.mem_cons_self))
        (read.covers fun c hc => h c (List.mem_cons_of_mem _ hc))

end

/-- **What a lowered expression leaves out**: the expression accounts for all
child nodes, of the node and of those it was read through, exactly if none of
these has a surplus. -/
theorem expression_covers_iff {p : Placed} {e : Expr} (h : p.expression = .ok e) :
    Covers p e ↔ ∀ q, p.ReadThrough q → q.surplus = [] :=
  ⟨Covers.tidy, (reads_iff.mpr h).covers⟩

/-- `(a+f(b,))` -/
def coveredSample : SyntaxTree :=
  .node .parenExpr [.token .lParen "(",
    .node .binExpr [.node .nameRef [.token .ident "a"], .token .plus "+",
      .node .callExpr [.token .ident "f",
        .node .argList [.token .lParen "(", .node .nameRef [.token .ident "b"], .token .comma ",",
          .token .rParen ")"]]],
    .token .rParen ")"]

theorem expression_covers_coveredSample : ∃ e, coveredSample.root.expression = .ok e ∧
    ∀ q, coveredSample.root.ReadThrough q → q.surplus = [] := by
  refine ⟨_, rfl, (expression_covers_iff (p := coveredSample.root) rfl).mp ?_⟩
  have hargs : CoversList (some ⟨4, .node .argList [.token .lParen "(",
      .node .nameRef [.token .ident "b"], .token .comma ",", .token .rParen ")"]⟩)
      [.terminal (.identifier "b") (some ⟨.nameRef, 5, 6⟩), .skipped] :=
    .some rfl (.given (.terminal (.inr rfl) rfl) (.skipped .nil))
  exact .paren rfl rfl (.binary rfl rfl (.terminal (.inr rfl) rfl) (.call rfl rfl hargs))

/-- `a+b+c` as one node with three operands. -/
def threeOperands : SyntaxTree :=
  .node .binExpr [.node .nameRef [.token .ident "a"], .token .plus "+",
    .node .nameRef [.token .ident "b"], .token .plus "+", .node .nameRef [.token .ident "c"]]

/-- The third operand is left out, without a refusal. -/
theorem not_covers_threeOperands : ∃ e, threeOperands.root.expression = .ok e ∧
    e.unlinked = .binary .add (.terminal (.identifier "a") none) (.terminal (.identifier "b") none)
      none ∧ ¬ Covers threeOperands.root e := by
  refine ⟨_, rfl, rfl, fun h => ?_⟩
  have hsurplus : threeOperands.root.surplus = [] := h.tidy.surplus_eq_nil
  exact List.cons_ne_nil _ _ hsurplus

/-! ## what follows is passed over -/

section Append

variable {start : Nat} {kind : SyntaxKind} {es more : List SyntaxTree}

theorem literalIn?_append {value : Terminal} (h : literalIn? es = some value) :
    literalIn? (es ++ more) = some value := by
  unfold literalIn? at h ⊢
  rw [significantTokens_append]
  cases hes : significantTokens es with
  | nil => simp [hes] at h
  | cons t ts => simpa [hes] using h

theorem firstToken_append {text : String} (h : firstToken kind es = some text) :
    firstToken kind (es ++ more) = some text := by
  unfold firstToken at h ⊢
  obtain ⟨t, ht, rfl⟩ := Option.map_eq_some_iff.mp h
  rw [significantTokens_append, List.find?_append, ht, Option.some_or, Option.map_some]

theorem binaryOpIn?_append {op : BinaryOp} (h : binaryOpIn? es = some op) :
    binaryOpIn? (es ++ more) = some op := by
  unfold binaryOpIn? at h ⊢
  rw [significantTokens_append, List.findSome?_append, h, Option.some_or]

theorem unaryOpIn?_append {op : UnaryOp} (h : unaryOpIn? es = some op) :
    unaryOpIn? (es ++ more) = some op := by
  unfold unaryOpIn? at h ⊢
  rw [significantTokens_append, List.head?_append]
  cases hes : (significantTokens es).head? with
  | none => simp [hes] at h
  | some t => simpa [hes] using h

namespace Placed

variable (start kind es more)

theorem childNodes_append :
    (mk start (.node kind (es ++ more))).childNodes =
      (mk start (.node kind es)).childNodes ++ childrenFrom (start + widthOfList es) more := by
  have hsplit := congrArg (List.filter fun c => c.tree.isNode) (sideBySide_append start es more)
  rw [List.filter_append] at hsplit
  exact hsplit

variable {start kind es more}

theorem getElem?_childNodes_append {n : Nat} {c : Placed}
    (h : (mk start (.node kind es)).childNodes[n]? = some c) :
    (mk start (.node kind (es ++ more))).childNodes[n]? = some c := by
  obtain ⟨hn, -⟩ := List.getElem?_eq_some_iff.mp h
  rw [childNodes_append, List.getElem?_append_left hn, h]

theorem childOf_append {wanted : SyntaxKind} (hmore : ∀ t ∈ more, t.kind ≠ wanted) :
    (mk start (.node kind (es ++ more))).childOf wanted =
      (mk start (.node kind es)).childOf wanted := by
  have hnone : ((childrenFrom (start + widthOfList es) more).find? fun c => c.kind = wanted) =
      none := by
    rw [List.find?_eq_none]
    intro c hc hkind
    have htree := tree_mem_of_mem_sideBySide (List.mem_of_mem_filter hc)
    exact hmore c.tree htree (of_decide_eq_true hkind)
  rw [childOf, childNodes_append, List.find?_append, hnone, Option.or_none, childOf]

end Placed

/-- Whatever follows the elements that a node is read from, operands included, it
changes nothing but the link; only a further argument list or type name could. -/
theorem expression_append {e : Expr} (h : (Placed.mk start (.node kind es)).expression = .ok e)
    (hmore : ∀ t ∈ more, t.kind ≠ .argList ∧ t.kind ≠ .typeName) :
    ∃ e', (Placed.mk start (.node kind (es ++ more))).expression = .ok e' ∧
      e'.unlinked = e.unlinked := by
  have hname : (Placed.mk start (.node kind (es ++ more))).childOf .typeName =
      (Placed.mk start (.node kind es)).childOf .typeName :=
    Placed.childOf_append fun t ht => (hmore t ht).2
  have hslots : (Placed.mk start (.node kind (es ++ more))).argumentSlots =
      (Placed.mk start (.node kind es)).argumentSlots := by
    rw [Placed.argumentSlots, Placed.childOf_append fun t ht => (hmore t ht).1,
      Placed.argumentSlots]
  simp only [← reads_iff] at h ⊢
  cases h with
  | literal kind token => exact ⟨_, .literal kind (literalIn?_append token), rfl⟩
  | name kind token => exact ⟨_, .name kind (firstToken_append token), rfl⟩
  | paren kind first read =>
      exact ⟨e, .paren kind (Placed.getElem?_childNodes_append first) read, rfl⟩
  | binary kind first second token readLeft readRight =>
      exact ⟨_, .binary kind (Placed.getElem?_childNodes_append first)
        (Placed.getElem?_childNodes_append second) (binaryOpIn?_append token) readLeft readRight,
        rfl⟩
  | unary kind first token read =>
      exact ⟨_, .unary kind (Placed.getElem?_childNodes_append first) (unaryOpIn?_append token)
        read, rfl⟩
  | call kind token read => exact ⟨_, .call kind (firstToken_append token) (hslots ▸ read), rfl⟩
  | static kind written token read =>
      exact ⟨_, .static kind (hname.trans written) token (hslots ▸ read), rfl⟩
  | dynamic kind unwritten first readName read =>
      exact ⟨_, .dynamic kind (hname.trans unwritten) (hslots.trans first) readName read, rfl⟩

end Append

end BslNav
