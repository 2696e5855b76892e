import BslNav.Proofs.Expr.Account
import Mathlib.Data.List.Forall2

/-!
# BslNav.Proofs.Expr.Linking

Where the parts of a lowered expression come from.

A node other than one in parentheses has a seat for every direct sub-expression
of what it reads as (`Placed.seats`), and each sub-expression is read from the
node in its seat; a seat without a node is that of a skipped argument.  Going
down seat by seat, every sub-expression at any depth has an `Origin` among the
nodes that were lowered: the node it is linked to, which stands for just this
sub-expression.

* `Reads.exists_source` — parentheses are passed through to the node inside;
* `Reads.seated` — the direct sub-expressions and the seats, one by one;
* `Reads.exists_origin` — sub-expressions at any depth;
* `expression_linked` — every sub-expression is linked to its origin.
-/

namespace BslNav

open SyntaxTree

/-! ## sub-expressions -/

/-- The kind of the nodes that expressions of a type are written as. -/
def NodeType.kind? : NodeType → Option SyntaxKind
  | .literal => some .literal
  | .identifier => some .nameRef
  | .binaryOp => some .binExpr
  | .unaryOp => some .prefixExpr
  | .call => some .callExpr
  | .constructorCall => some .newExpr
  | .skippedArgument => none

namespace Expr

/-- The part that an expression plays in the one around it. -/
inductive Role where
  /-- Nothing is around it. -/
  | whole
  | operand
  /-- It names the type that a constructor call makes. -/
  | typeName
  | argument
deriving DecidableEq, Repr

/-- The direct sub-expressions and the parts they play, in source order. -/
def roles : Expr → List (Role × Expr)
  | .terminal .. => []
  | .binary _ l r _ => [(.operand, l), (.operand, r)]
  | .unary _ e _ => [(.operand, e)]
  | .call _ args _ => args.map (Prod.mk .argument)
  | .construct t args _ => (.typeName, t) :: args.map (Prod.mk .argument)
  | .skipped => []

theorem map_snd_roles (e : Expr) : e.roles.map Prod.snd = e.children := by
  cases e <;> simp [roles, children, Function.comp_def]

/-- The expression stands in `whole` at some depth and plays the part there. -/
inductive Occurs (whole : Expr) : Role → Expr → Prop
  | whole : Occurs whole .whole whole
  | part {outer s : Expr} {role part : Role} (around : Occurs whole role outer)
      (member : (part, s) ∈ outer.roles) : Occurs whole part s

end Expr

/-! ## nodes inside nodes -/

namespace Placed

theorem nodes_node (start : Nat) (kind : SyntaxKind) (es : List SyntaxTree) :
    (mk start (.node kind es)).nodes = ⟨start, .node kind es⟩ :: nodesOfList start es := rfl

theorem mem_nodes_self {p : Placed} (h : p.tree.isNode = true) : p ∈ p.nodes := by
  obtain ⟨start, tree⟩ := p
  cases tree with
  | token kind text => contradiction
  | node kind es => exact List.mem_cons_self

theorem nodes_subset_nodesOfList {start : Nat} {es : List SyntaxTree} {c : Placed}
    (h : c ∈ sideBySide start es) : c.nodes ⊆ nodesOfList start es := by
  induction es generalizing start with
  | nil => simp [sideBySide] at h
  | cons e es ih =>
      rw [nodesOfList]
      obtain rfl | h := List.mem_cons.mp h
      · exact List.subset_append_left _ _
      · exact List.subset_append_of_subset_right _ (ih h)

theorem nodes_subset_of_mem_childNodes {p c : Placed} (h : c ∈ p.childNodes) :
    c.nodes ⊆ p.nodes := by
  obtain ⟨start, tree⟩ := p
  have hc := List.mem_of_mem_filter h
  cases tree with
  | token kind text => simp [elements, SyntaxTree.elements, sideBySide] at hc
  | node kind es =>
      rw [nodes_node]
      exact List.subset_cons_of_subset _ (nodes_subset_nodesOfList hc)

mutual

theorem nodes_subset_nodesOf {m : Placed} (start : Nat) (t : SyntaxTree)
    (h : m ∈ nodesOf start t) : m.nodes ⊆ nodesOf start t := by
  cases t with
  | token kind text => simp [nodesOf] at h
  | node kind es =>
      obtain rfl | h := List.mem_cons.mp h
      · exact List.Subset.refl _
      · exact List.subset_cons_of_subset _ (nodes_subset_of_mem_nodesOfList start es h)

theorem nodes_subset_of_mem_nodesOfList {m : Placed} (start : Nat) (es : List SyntaxTree)
    (h : m ∈ nodesOfList start es) : m.nodes ⊆ nodesOfList start es := by
  cases es with
  | nil => simp [nodesOfList] at h
  | cons e es =>
      rw [nodesOfList] at h ⊢
      obtain h | h := List.mem_append.mp h
      · exact List.subset_append_of_subset_left _ (nodes_subset_nodesOf start e h)
      · exact List.subset_append_of_subset_right _ (nodes_subset_of_mem_nodesOfList _ es h)

end

/-- The nodes inside a node of the tree are nodes of the tree. -/
theorem nodes_subset {p m : Placed} (h : m ∈ p.nodes) : m.nodes ⊆ p.nodes :=
  nodes_subset_nodesOf p.start p.tree h

theorem mem_childNodes_of_childOf {p c : Placed} {kind : SyntaxKind}
    (h : p.childOf kind = some c) : c ∈ p.childNodes :=
  List.mem_of_find?_eq_some h

/-! ## seats -/

/-- The nodes in the slots of the argument list. -/
theorem reduceOption_argumentSlots (p : Placed) :
    p.argumentSlots.reduceOption =
      (p.childOf .argList).toList.flatMap fun list =>
        list.childNodes.filter fun c => c.kind ≠ .comma := by
  rw [argumentSlots]
  cases p.childOf .argList with
  | none => rfl
  | some list =>
      have hslots := reduceOption_slotsFrom false false list.elements
      simpa [slots, childNodes] using hslots

/-- What is in a slot is a child node of the argument list. -/
theorem exists_list_of_mem_argumentSlots {p c : Placed} (h : c ∈ p.argumentSlots.reduceOption) :
    ∃ list, p.childOf .argList = some list ∧ c ∈ list.childNodes := by
  rw [reduceOption_argumentSlots] at h
  obtain ⟨list, hlist, hc⟩ := List.mem_flatMap.mp h
  exact ⟨list, Option.mem_toList.mp hlist, List.mem_of_mem_filter hc⟩

/-- Where the direct sub-expressions of what a node reads as are read from, in
their order: a node, or none for a slot that is left out. -/
def seats (p : Placed) : List (Option Placed) :=
  match p.kind with
  | .binExpr => (p.childNodes.take 2).map some
  | .prefixExpr => (p.childNodes.take 1).map some
  | .callExpr => p.argumentSlots
  | .newExpr => (p.childOf .typeName).toList.map some ++ p.argumentSlots
  | _ => []

/-- What is in the seats is inside the node. -/
theorem nodes_subset_of_mem_seats {p c : Placed} (h : some c ∈ p.seats) : c.nodes ⊆ p.nodes := by
  have hslots : some c ∈ p.argumentSlots → c.nodes ⊆ p.nodes := by
    intro hc
    obtain ⟨list, hlist, hc⟩ := exists_list_of_mem_argumentSlots (List.reduceOption_mem_iff.mpr hc)
    exact List.Subset.trans (nodes_subset_of_mem_childNodes hc)
      (nodes_subset_of_mem_childNodes (mem_childNodes_of_childOf hlist))
  have hchild : ∀ n, some c ∈ (p.childNodes.take n).map some → c.nodes ⊆ p.nodes := by
    intro n hc
    obtain ⟨d, hd, hdc⟩ := List.mem_map.mp hc
    obtain rfl := Option.some.inj hdc
    exact nodes_subset_of_mem_childNodes (List.mem_of_mem_take hd)
  unfold seats at h
  split at h
  · exact hchild 2 h
  · exact hchild 1 h
  · exact hslots h
  · obtain h | h := List.mem_append.mp h
    · exact nodes_subset_of_mem_childNodes (mem_childNodes_of_childOf (by simpa using h))
    · exact hslots h
  · contradiction

end Placed

/-- What a seat may hold: an argument that is left out, an expression read from
the node there, or the type name that the node is. -/
inductive Seated : Option Placed → Expr.Role × Expr → Prop
  | skipped : Seated none (.argument, .skipped)
  | read {c : Placed} {role : Expr.Role} {e : Expr} (read : Reads c e) : Seated (some c) (role, e)
  | named {c : Placed} {name : String} (kind : c.kind = .typeName)
      (token : firstToken .ident c.tree.elements = some name) :
      Seated (some c) (.typeName, .terminal (.literal .typeName name) (some c.link))

theorem ReadsSlots.seated : ∀ {slots : List (Option Placed)} {args : List Expr},
    ReadsSlots slots args → List.Forall₂ Seated slots (args.map (Prod.mk .argument))
  | _, _, .nil => .nil
  | _, _, .skipped read => .cons .skipped read.seated
  | _, _, .given first read => .cons (.read first) read.seated

/-- Each direct sub-expression is read from its seat. -/
theorem Reads.seated {p : Placed} {e : Expr} (h : Reads p e) (hparen : p.kind ≠ .parenExpr) :
    List.Forall₂ Seated p.seats e.roles := by
  cases h with
  | literal kind token => simp [Placed.seats, kind, Expr.roles]
  | name kind token => simp [Placed.seats, kind, Expr.roles]
  | paren kind first read => contradiction
  | binary kind first second token readLeft readRight =>
      simp only [Placed.seats, kind, Expr.roles, List.take_add_one, first, second]
      exact .cons (.read readLeft) (.cons (.read readRight) .nil)
  | unary kind first token read =>
      simp only [Placed.seats, kind, Expr.roles, List.take_add_one, first]
      exact .cons (.read read) .nil
  | call kind token read =>
      simpa only [Placed.seats, kind, Expr.roles] using read.seated
  | static kind written token read =>
      simp only [Placed.seats, kind, Expr.roles, written]
      exact .cons (.named (Placed.kind_of_childOf written) token) read.seated
  | dynamic kind unwritten first readName read =>
      simp only [Placed.seats, kind, Expr.roles, unwritten, first]
      exact .cons (.read readName) read.seated

/-! ## parentheses -/

namespace Placed

/-- Through parentheses, each time to the first node inside, one comes from the
node to the inner one. -/
def Encloses : Placed → Placed → Prop :=
  Relation.ReflTransGen fun p c => p.kind = .parenExpr ∧ p.childNodes[0]? = some c

theorem Encloses.nodes_subset {p m : Placed} (h : p.Encloses m) : m.nodes ⊆ p.nodes := by
  induction h with
  | refl => exact List.Subset.refl _
  | tail _ step ih =>
      exact List.Subset.trans (nodes_subset_of_mem_childNodes (List.mem_of_getElem? step.2)) ih

end Placed

/-- An expression is read from a node without parentheses around it. -/
theorem Reads.exists_source : ∀ {p : Placed} {e : Expr}, Reads p e →
    ∃ m, p.Encloses m ∧ m.kind ≠ .parenExpr ∧ Reads m e
  | _, _, .paren kind first read =>
      have ⟨m, hm, hparen, hread⟩ := read.exists_source
      ⟨m, .head ⟨kind, first⟩ hm, hparen, hread⟩
  | p, _, .literal kind h => ⟨p, .refl, by simp [kind], .literal kind h⟩
  | p, _, .name kind h => ⟨p, .refl, by simp [kind], .name kind h⟩
  | p, _, .binary kind first second h readLeft readRight =>
      ⟨p, .refl, by simp [kind], .binary kind first second h readLeft readRight⟩
  | p, _, .unary kind first h read => ⟨p, .refl, by simp [kind], .unary kind first h read⟩
  | p, _, .call kind h read => ⟨p, .refl, by simp [kind], .call kind h read⟩
  | p, _, .static kind written h read => ⟨p, .refl, by simp [kind], .static kind written h read⟩
  | p, _, .dynamic kind unwritten first readName read =>
      ⟨p, .refl, by simp [kind], .dynamic kind unwritten first readName read⟩

/-! ## origins -/

/-- The node is where the expression comes from: the expression is linked to it,
and it stands for the expression by itself.  The type name of a static
constructor call comes from a node that is no expression. -/
inductive Origin (m : Placed) : Expr.Role → Expr → Prop
  | read {role : Expr.Role} {e : Expr} (expression : m.expression = .ok e)
      (link : e.link? = some m.link) (kind : e.nodeType.kind? = some m.kind)
      (other : ∀ name, e.literal? ≠ some (.typeName, name)) : Origin m role e
  | named {name : String} (kind : m.kind = .typeName)
      (token : firstToken .ident m.tree.elements = some name) :
      Origin m .typeName (.terminal (.literal .typeName name) (some m.link))

theorem LiteralKind.ofToken?_ne_typeName (token : SyntaxKind) :
    LiteralKind.ofToken? token ≠ some .typeName := by
  cases token <;> simp [LiteralKind.ofToken?]

theorem literalIn?_eq_some_iff {es : List SyntaxTree} {value : Terminal} :
    literalIn? es = some value ↔
      ∃ token text kind, (significantTokens es).head? = some (token, text) ∧
        LiteralKind.ofToken? token = some kind ∧ value = .literal kind text := by
  unfold literalIn?
  cases significantTokens es with
  | nil => simp
  | cons t ts =>
      obtain ⟨token, text⟩ := t
      simp [Option.map_eq_some_iff, @eq_comm _ value]

theorem isNode_of_firstToken {t : SyntaxTree} {kind : SyntaxKind} {text : String}
    (h : firstToken kind t.elements = some text) : t.isNode = true := by
  cases t with
  | token k s => simp [SyntaxTree.elements, firstToken, significantTokens] at h
  | node k es => rfl

/-- Outside parentheses, the node itself is the origin of what it reads as. -/
theorem Reads.origin {m : Placed} {e : Expr} (h : Reads m e) (hparen : m.kind ≠ .parenExpr)
    (role : Expr.Role) : Origin m role e := by
  have hexpression := reads_iff.mp h
  cases h with
  | paren => contradiction
  | literal kind h =>
      obtain ⟨token, text, literal, -, hliteral, rfl⟩ := literalIn?_eq_some_iff.mp h
      refine .read hexpression rfl (by rw [kind]; rfl) ?_
      rintro name ⟨⟩
      exact LiteralKind.ofToken?_ne_typeName token hliteral
  | name kind | binary kind | unary kind | call kind | static kind | dynamic kind =>
      exact .read hexpression rfl (by rw [kind]; rfl) (by simp [Expr.literal?])

/-- Whatever sits in a node has its origin inside that node. -/
theorem Seated.exists_origin {c : Placed} {role : Expr.Role} {e : Expr}
    (h : Seated (some c) (role, e)) : ∃ m ∈ c.nodes, Origin m role e := by
  cases h with
  | read read =>
      obtain ⟨m, hm, hparen, hread⟩ := read.exists_source
      exact ⟨m, hm.nodes_subset (Placed.mem_nodes_self hread.isNode), hread.origin hparen role⟩
  | named kind token =>
      exact ⟨c, Placed.mem_nodes_self (isNode_of_firstToken token), .named kind token⟩

/-- The second of two lists matched one by one has nothing that the first has no
match for. -/
theorem exists_of_forall₂ {α β : Type} {R : α → β → Prop} {as : List α} {bs : List β}
    (h : List.Forall₂ R as bs) {b : β} (hb : b ∈ bs) : ∃ a ∈ as, R a b := by
  induction h with
  | nil => contradiction
  | @cons a b' as bs hab _ ih =>
      obtain rfl | hb := List.mem_cons.mp hb
      · exact ⟨a, List.mem_cons_self, hab⟩
      · obtain ⟨a', ha', hr⟩ := ih hb
        exact ⟨a', List.mem_cons_of_mem a ha', hr⟩

namespace Origin

variable {m : Placed} {role : Expr.Role} {e : Expr}

theorem link?_eq (h : Origin m role e) : e.link? = some m.link := by
  cases h with
  | read expression link => exact link
  | named => rfl

/-- The direct sub-expressions are read from the seats of the origin. -/
theorem seated (h : Origin m role e) : List.Forall₂ Seated m.seats e.roles := by
  cases h with
  | named kind token => simp [Placed.seats, kind, Expr.roles]
  | read expression link kind other =>
      refine (reads_iff.mpr expression).seated fun hparen => ?_
      rw [hparen] at kind
      cases htype : e.nodeType <;> simp [htype, NodeType.kind?] at kind

/-- Going down one step: a direct sub-expression comes from inside the origin. -/
theorem of_mem_roles {part : Expr.Role} {s : Expr} (h : Origin m role e)
    (hs : (part, s) ∈ e.roles) :
    (s = .skipped ∧ part = .argument) ∨ ∃ c ∈ m.nodes, Origin c part s := by
  obtain ⟨seat, hseat, hs⟩ := exists_of_forall₂ h.seated hs
  cases seat with
  | none =>
      cases hs
      exact .inl ⟨rfl, rfl⟩
  | some c =>
      obtain ⟨origin, horigin, h⟩ := hs.exists_origin
      exact .inr ⟨origin, Placed.nodes_subset_of_mem_seats hseat horigin, h⟩

end Origin

/-- Every sub-expression of what a node reads as is an argument that is skipped,
or has its origin among the nodes in and under that node. -/
theorem Reads.exists_origin {p : Placed} {e s : Expr} {role : Expr.Role} (h : Reads p e)
    (hs : e.Occurs role s) :
    (s = .skipped ∧ role = .argument) ∨ ∃ m ∈ p.nodes, Origin m role s := by
  -- on the way from the whole down to the sub-expression
  induction hs with
  | whole =>
      obtain ⟨m, hm, hparen, hread⟩ := h.exists_source
      exact .inr ⟨m, hm.nodes_subset (Placed.mem_nodes_self hread.isNode),
        hread.origin hparen .whole⟩
  | part around member ih =>
      obtain ⟨rfl, -⟩ | ⟨m, hm, horigin⟩ := ih
      · simp [Expr.roles] at member
      · refine (horigin.of_mem_roles member).imp_right fun ⟨c, hc, h⟩ => ?_
        exact ⟨c, Placed.nodes_subset hm hc, h⟩

/-- **Links are faithful**: what is lowered is no skipped argument, and every
sub-expression is an argument that is skipped, or linked to its origin among the
nodes in and under the lowered one. -/
theorem expression_linked {p : Placed} {e : Expr} (h : p.expression = .ok e) :
    e ≠ .skipped ∧ ∀ role s, e.Occurs role s →
      (s = .skipped ∧ role = .argument) ∨ ∃ m ∈ p.nodes, Origin m role s := by
  have hread := reads_iff.mpr h
  exact ⟨hread.ne_skipped, fun _ _ hs => hread.exists_origin hs⟩

/-- `(New Map(x,))` -/
def linkedSample : SyntaxTree :=
  .node .parenExpr [.token .lParen "(",
    .node .newExpr [.token .newKw "New", .token .whitespace " ",
      .node .typeName [.token .ident "Map"],
      .node .argList [.token .lParen "(", .node .nameRef [.token .ident "x"], .token .comma ",",
        .token .rParen ")"]],
    .token .rParen ")"]

/-- `Map` in `(New Map(x,))` -/
def linkedName : Expr := .terminal (.literal .typeName "Map") (some ⟨.typeName, 5, 8⟩)

theorem expression_linked_linkedSample : ∃ e, linkedSample.root.expression = .ok e ∧
    e.Occurs .typeName linkedName ∧ ∃ m ∈ linkedSample.root.nodes, Origin m .typeName linkedName := by
  have hname : Expr.Occurs (.construct linkedName
      [.terminal (.identifier "x") (some ⟨.nameRef, 9, 10⟩), .skipped] (some ⟨.newExpr, 1, 12⟩))
      .typeName linkedName := .part .whole List.mem_cons_self
  have hlinked := (expression_linked (p := linkedSample.root) rfl).2 _ _ hname
  exact ⟨_, rfl, hname, hlinked.resolve_left (by simp [linkedName])⟩

end BslNav
