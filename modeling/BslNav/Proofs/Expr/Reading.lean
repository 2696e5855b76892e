import BslNav.Data.Except
import BslNav.Expr.Lowering

/-!
# BslNav.Proofs.Expr.Reading

What the nodes of a parse tree stand for, as a relation.

`Reads` says which nodes of a tree an expression is read from, one rule for each
kind of node, in terms of the child nodes at their places; `ReadsSlots` does the
same for the slots of an argument list.  Lowering computes this relation:

* `reads_iff` — a node is lowered to an expression exactly if it reads as it.

Statements about lowered expressions are proved by induction on the relation.
-/

namespace BslNav

open SyntaxTree

/-! ## places -/

namespace Placed

/-- The child nodes among elements that begin at `start`. -/
def childrenFrom (start : Nat) (es : List SyntaxTree) : List Placed :=
  (sideBySide start es).filter fun c => c.tree.isNode

@[simp] theorem childrenFrom_nil (start : Nat) : childrenFrom start [] = [] := rfl

@[simp] theorem childrenFrom_token (start : Nat) (kind : SyntaxKind) (text : String)
    (es : List SyntaxTree) :
    childrenFrom start (.token kind text :: es) = childrenFrom (start + text.utf8ByteSize) es := rfl

@[simp] theorem childrenFrom_node (start : Nat) (kind : SyntaxKind) (inner es : List SyntaxTree) :
    childrenFrom start (.node kind inner :: es) =
      ⟨start, .node kind inner⟩ :: childrenFrom (start + widthOfList inner) es := rfl

/-- The first child node of a kind. -/
def childOf (p : Placed) (kind : SyntaxKind) : Option Placed :=
  p.childNodes.find? fun c => c.kind = kind

theorem kind_of_childOf {p c : Placed} {kind : SyntaxKind} (h : p.childOf kind = some c) :
    c.kind = kind := by
  simpa using List.find?_some h

/-- What is in the slots of an argument list, in order: every node that is there,
and `none` for a slot without one.  Elements of kind comma delimit the slots;
`filled` says that the present slot has a node, `delimited` that a comma came
before. -/
def slotsFrom (filled delimited : Bool) : List Placed → List (Option Placed)
  | [] => if delimited && !filled then [none] else []
  | c :: cs =>
      if c.kind = .comma then
        if filled then slotsFrom false true cs else none :: slotsFrom false true cs
      else if c.tree.isNode then some c :: slotsFrom true delimited cs
      else slotsFrom filled delimited cs

/-- The slots of an argument list. -/
def slots (list : Placed) : List (Option Placed) := slotsFrom false false list.elements

/-- The slots of the first argument list among the child nodes, none if there is
no list. -/
def argumentSlots (p : Placed) : List (Option Placed) :=
  ((p.childOf .argList).map slots).getD []

end Placed

/-! ## the relation -/

mutual

/-- The node reads as the expression. -/
inductive Reads : Placed → Expr → Prop
  | literal {p : Placed} {value : Terminal} (kind : p.kind = .literal)
      (token : literalIn? p.tree.elements = some value) :
      Reads p (.terminal value (some p.link))
  | name {p : Placed} {name : String} (kind : p.kind = .nameRef)
      (token : firstToken .ident p.tree.elements = some name) :
      Reads p (.terminal (.identifier name) (some p.link))
  | paren {p inner : Placed} {e : Expr} (kind : p.kind = .parenExpr)
      (first : p.childNodes[0]? = some inner) (read : Reads inner e) : Reads p e
  | binary {p left right : Placed} {l r : Expr} {op : BinaryOp} (kind : p.kind = .binExpr)
      (first : p.childNodes[0]? = some left) (second : p.childNodes[1]? = some right)
      (token : binaryOpIn? p.tree.elements = some op) (readLeft : Reads left l)
      (readRight : Reads right r) : Reads p (.binary op l r (some p.link))
  | unary {p operand : Placed} {e : Expr} {op : UnaryOp} (kind : p.kind = .prefixExpr)
      (first : p.childNodes[0]? = some operand) (token : unaryOpIn? p.tree.elements = some op)
      (read : Reads operand e) : Reads p (.unary op e (some p.link))
  | call {p : Placed} {name : String} {args : List Expr} (kind : p.kind = .callExpr)
      (token : firstToken .ident p.tree.elements = some name)
      (read : ReadsSlots p.argumentSlots args) : Reads p (.call name args (some p.link))
  /-- The type name is written after the word for `New`. -/
  | static {p typeNode : Placed} {name : String} {args : List Expr} (kind : p.kind = .newExpr)
      (written : p.childOf .typeName = some typeNode)
      (token : firstToken .ident typeNode.tree.elements = some name)
      (read : ReadsSlots p.argumentSlots args) :
      Reads p (.construct (.terminal (.literal .typeName name) (some typeNode.link)) args
        (some p.link))
  /-- The type is named by the first argument. -/
  | dynamic {p typeNode : Placed} {slots : List (Option Placed)} {t : Expr} {args : List Expr}
      (kind : p.kind = .newExpr) (unwritten : p.childOf .typeName = none)
      (first : p.argumentSlots = some typeNode :: slots) (readName : Reads typeNode t)
      (read : ReadsSlots slots args) : Reads p (.construct t args (some p.link))

/-- The slots read as the arguments, one by one. -/
inductive ReadsSlots : List (Option Placed) → List Expr → Prop
  | nil : ReadsSlots [] []
  | skipped {slots : List (Option Placed)} {args : List Expr} (read : ReadsSlots slots args) :
      ReadsSlots (none :: slots) (.skipped :: args)
  | given {c : Placed} {e : Expr} {slots : List (Option Placed)} {args : List Expr}
      (first : Reads c e) (read : ReadsSlots slots args) :
      ReadsSlots (some c :: slots) (e :: args)

end

/-- No node reads as an argument that is left out. -/
theorem Reads.ne_skipped : ∀ {p : Placed} {e : Expr}, Reads p e → e ≠ .skipped
  | _, _, .paren _ _ read => read.ne_skipped
  | _, _, .literal .. | _, _, .name .. | _, _, .binary .. | _, _, .unary .. | _, _, .call ..
  | _, _, .static .. | _, _, .dynamic .. => by simp

/-- Tokens stand for nothing, whatever their kind. -/
theorem Reads.isNode {p : Placed} {e : Expr} (h : Reads p e) : p.tree.isNode = true := by
  obtain ⟨start, tree⟩ := p
  cases tree with
  | node kind es => rfl
  | token kind text =>
      have hchildren : (Placed.mk start (.token kind text)).childNodes = [] := rfl
      cases h with
      | literal _ token => simp [SyntaxTree.elements, literalIn?, significantTokens] at token
      | name _ token => simp [SyntaxTree.elements, firstToken, significantTokens] at token
      | paren _ first => simp [hchildren] at first
      | binary _ first => simp [hchildren] at first
      | unary _ first => simp [hchildren] at first
      | call _ token => simp [SyntaxTree.elements, firstToken, significantTokens] at token
      | static _ written => simp [Placed.childOf, hchildren] at written
      | dynamic _ _ first => simp [Placed.argumentSlots, Placed.childOf, hchildren] at first

/-! ## one kind of node at a time -/

section Kinds

variable {p : Placed} {e : Expr}

theorem reads_literal_iff (h : p.kind = .literal) :
    Reads p e ↔
      ∃ value, literalIn? p.tree.elements = some value ∧ e = .terminal value (some p.link) := by
  constructor
  · intro hread
    cases hread with
    | literal _ token => exact ⟨_, token, rfl⟩
    | _ => simp_all
  · rintro ⟨value, token, rfl⟩
    exact .literal h token

theorem reads_nameRef_iff (h : p.kind = .nameRef) :
    Reads p e ↔ ∃ name, firstToken .ident p.tree.elements = some name ∧
      e = .terminal (.identifier name) (some p.link) := by
  constructor
  · intro hread
    cases hread with
    | name _ token => exact ⟨_, token, rfl⟩
    | _ => simp_all
  · rintro ⟨name, token, rfl⟩
    exact .name h token

theorem reads_parenExpr_iff (h : p.kind = .parenExpr) :
    Reads p e ↔ ∃ inner, p.childNodes[0]? = some inner ∧ Reads inner e := by
  constructor
  · intro hread
    cases hread with
    | paren _ first read => exact ⟨_, first, read⟩
    | _ => simp_all
  · rintro ⟨inner, first, read⟩
    exact .paren h first read

theorem reads_binExpr_iff (h : p.kind = .binExpr) :
    Reads p e ↔ ∃ l r op, (∃ left, p.childNodes[0]? = some left ∧ Reads left l) ∧
      (∃ right, p.childNodes[1]? = some right ∧ Reads right r) ∧
      binaryOpIn? p.tree.elements = some op ∧ e = .binary op l r (some p.link) := by
  constructor
  · intro hread
    cases hread with
    | binary _ first second token readLeft readRight =>
        exact ⟨_, _, _, ⟨_, first, readLeft⟩, ⟨_, second, readRight⟩, token, rfl⟩
    | _ => simp_all
  · rintro ⟨l, r, op, ⟨left, first, readLeft⟩, ⟨right, second, readRight⟩, token, rfl⟩
    exact .binary h first second token readLeft readRight

theorem reads_prefixExpr_iff (h : p.kind = .prefixExpr) :
    Reads p e ↔ ∃ e' op, (∃ operand, p.childNodes[0]? = some operand ∧ Reads operand e') ∧
      unaryOpIn? p.tree.elements = some op ∧ e = .unary op e' (some p.link) := by
  constructor
  · intro hread
    cases hread with
    | unary _ first token read => exact ⟨_, _, ⟨_, first, read⟩, token, rfl⟩
    | _ => simp_all
  · rintro ⟨e', op, ⟨operand, first, read⟩, token, rfl⟩
    exact .unary h first token read

theorem reads_callExpr_iff (h : p.kind = .callExpr) :
    Reads p e ↔ ∃ name args, firstToken .ident p.tree.elements = some name ∧
      ReadsSlots p.argumentSlots args ∧ e = .call name args (some p.link) := by
  constructor
  · intro hread
    cases hread with
    | call _ token read => exact ⟨_, _, token, read, rfl⟩
    | _ => simp_all
  · rintro ⟨name, args, token, read, rfl⟩
    exact .call h token read

/-- A constructor call is static if it has a type name. -/
theorem reads_newExpr_iff (h : p.kind = .newExpr) :
    Reads p e ↔
      (∃ typeNode name args, p.childOf .typeName = some typeNode ∧
        firstToken .ident typeNode.tree.elements = some name ∧ ReadsSlots p.argumentSlots args ∧
        e = .construct (.terminal (.literal .typeName name) (some typeNode.link)) args
          (some p.link)) ∨
      (p.childOf .typeName = none ∧ ∃ t args, t ≠ .skipped ∧
        ReadsSlots p.argumentSlots (t :: args) ∧ e = .construct t args (some p.link)) := by
  constructor
  · intro hread
    cases hread with
    | static _ written token read => exact .inl ⟨_, _, _, written, token, read, rfl⟩
    | dynamic _ unwritten first readName read =>
        have hslots := ReadsSlots.given readName read
        rw [← first] at hslots
        exact .inr ⟨unwritten, _, _, readName.ne_skipped, hslots, rfl⟩
    | _ => simp_all
  · rintro (⟨typeNode, name, args, written, token, read, rfl⟩ | ⟨unwritten, t, args, ht, read, rfl⟩)
    · exact .static h written token read
    · generalize hslots : p.argumentSlots = slots at read
      cases read with
      | skipped read => contradiction
      | given first read => exact .dynamic h unwritten hslots first read

/-- The kinds of nodes that stand for expressions. -/
theorem Reads.kind_mem (h : Reads p e) :
    p.kind ∈ [SyntaxKind.literal, .nameRef, .parenExpr, .binExpr, .prefixExpr, .callExpr,
      .newExpr] := by
  cases h with
  | _ => simp_all

theorem Reads.kind_ne_comma (h : Reads p e) : p.kind ≠ .comma := by
  intro hkind
  have hmem := h.kind_mem
  simp [hkind] at hmem

end Kinds

theorem readsSlots_nil_iff {args : List Expr} : ReadsSlots [] args ↔ args = [] := by
  constructor
  · rintro ⟨⟩
    rfl
  · rintro rfl
    exact .nil

theorem readsSlots_none_cons_iff {slots : List (Option Placed)} {args : List Expr} :
    ReadsSlots (none :: slots) args ↔ ∃ rest, args = .skipped :: rest ∧ ReadsSlots slots rest := by
  constructor
  · rintro (_ | ⟨read⟩)
    exact ⟨_, rfl, read⟩
  · rintro ⟨rest, rfl, read⟩
    exact .skipped read

theorem readsSlots_some_cons_iff {c : Placed} {slots : List (Option Placed)} {args : List Expr} :
    ReadsSlots (some c :: slots) args ↔
      ∃ e rest, args = e :: rest ∧ Reads c e ∧ ReadsSlots slots rest := by
  constructor
  · rintro (_ | _ | ⟨first, read⟩)
    exact ⟨_, _, rfl, first, read⟩
  · rintro ⟨e, rest, rfl, first, read⟩
    exact .given first read

namespace Expr

/-! ## lowering, one kind of node at a time -/

section Kinds

variable {start : Nat} {es : List SyntaxTree} {e : Expr}

theorem link_node (start : Nat) (kind : SyntaxKind) (es : List SyntaxTree) :
    (Placed.mk start (.node kind es)).link = ⟨kind, start, start + widthOfList es⟩ := by
  simp only [Placed.link, Placed.span, Placed.kind, SyntaxTree.kind, width]

theorem lower_literal_eq_ok_iff :
    lower start (.node .literal es) = .ok e ↔
      ∃ value, literalIn? es = some value ∧
        e = .terminal value (some (Placed.mk start (.node .literal es)).link) := by
  rw [lower, link_node]
  cases literalIn? es <;> simp [eq_comm]

theorem lower_nameRef_eq_ok_iff :
    lower start (.node .nameRef es) = .ok e ↔
      ∃ name, firstToken .ident es = some name ∧
        e = .terminal (.identifier name) (some (Placed.mk start (.node .nameRef es)).link) := by
  rw [lower, link_node]
  cases firstToken .ident es <;> simp [eq_comm]

theorem lower_parenExpr :
    lower start (.node .parenExpr es) = lowerChild .parenExpr 0 start es := by rw [lower]

theorem lower_binExpr_eq_ok_iff :
    lower start (.node .binExpr es) = .ok e ↔
      ∃ l r op, lowerChild .binExpr 0 start es = .ok l ∧ lowerChild .binExpr 1 start es = .ok r ∧
        binaryOpIn? es = some op ∧
        e = .binary op l r (some (Placed.mk start (.node .binExpr es)).link) := by
  rw [lower, link_node]
  cases lowerChild .binExpr 0 start es <;> cases lowerChild .binExpr 1 start es <;>
    cases binaryOpIn? es <;> simp [bind, Except.bind, eq_comm]

theorem lower_prefixExpr_eq_ok_iff :
    lower start (.node .prefixExpr es) = .ok e ↔
      ∃ operand op, lowerChild .prefixExpr 0 start es = .ok operand ∧ unaryOpIn? es = some op ∧
        e = .unary op operand (some (Placed.mk start (.node .prefixExpr es)).link) := by
  rw [lower, link_node]
  cases unaryOpIn? es <;> cases lowerChild .prefixExpr 0 start es <;>
    simp [bind, Except.bind, eq_comm]

theorem lower_callExpr_eq_ok_iff :
    lower start (.node .callExpr es) = .ok e ↔
      ∃ name args, firstToken .ident es = some name ∧ lowerArgList start es = .ok args ∧
        e = .call name args (some (Placed.mk start (.node .callExpr es)).link) := by
  rw [lower, link_node]
  cases firstToken .ident es <;> cases lowerArgList start es <;>
    simp [bind, Except.bind, eq_comm]

/-- With a type name among the elements all arguments are kept, otherwise the
first one names the type. -/
theorem ofConstructor_eq_ok_iff {args : List Expr} :
    ofConstructor start es args = .ok e ↔
      (∃ typeNode name, firstNode .typeName start es = some typeNode ∧
        firstToken .ident typeNode.tree.elements = some name ∧
        e = .construct (.terminal (.literal .typeName name) (some typeNode.link)) args none) ∨
      (firstNode .typeName start es = none ∧
        ∃ t rest, args = t :: rest ∧ t ≠ .skipped ∧ e = .construct t rest none) := by
  unfold ofConstructor
  cases firstNode .typeName start es with
  | some typeNode =>
      cases hname : firstToken .ident typeNode.tree.elements <;>
        simp [hname, constructStatic, Terminal.isLiteral, eq_comm]
  | none =>
      cases args with
      | nil => simp
      | cons t rest => cases t <;> simp [constructDynamic, and_assoc, @eq_comm _ e]

theorem lower_newExpr_eq_ok_iff :
    lower start (.node .newExpr es) = .ok e ↔
      (∃ typeNode name args, firstNode .typeName start es = some typeNode ∧
        firstToken .ident typeNode.tree.elements = some name ∧ lowerArgList start es = .ok args ∧
        e = .construct (.terminal (.literal .typeName name) (some typeNode.link)) args
          (some (Placed.mk start (.node .newExpr es)).link)) ∨
      (firstNode .typeName start es = none ∧ ∃ t args, t ≠ .skipped ∧
        lowerArgList start es = .ok (t :: args) ∧
        e = .construct t args (some (Placed.mk start (.node .newExpr es)).link)) := by
  have hsteps : lower start (.node .newExpr es) = .ok e ↔
      ∃ args e', lowerArgList start es = .ok args ∧ ofConstructor start es args = .ok e' ∧
        e = e'.withLink (Placed.mk start (.node .newExpr es)).link := by
    rw [lower, link_node]
    simp only [bind_eq_ok_iff, Except.ok.injEq, exists_and_left, @eq_comm _ e]
  simp only [hsteps, ofConstructor_eq_ok_iff]
  constructor
  · rintro ⟨args, e', read, (⟨typeNode, name, written, token, rfl⟩ |
      ⟨unwritten, t, rest, rfl, ht, rfl⟩), rfl⟩
    · exact .inl ⟨typeNode, name, args, written, token, read, rfl⟩
    · exact .inr ⟨unwritten, t, rest, ht, read, rfl⟩
  · rintro (⟨typeNode, name, args, written, token, read, rfl⟩ |
      ⟨unwritten, t, rest, ht, read, rfl⟩)
    · exact ⟨args, _, read, .inl ⟨typeNode, name, written, token, rfl⟩, rfl⟩
    · exact ⟨t :: rest, _, read, .inr ⟨unwritten, t, rest, rfl, ht, rfl⟩, rfl⟩

end Kinds

theorem firstNode_eq (kind : SyntaxKind) (start : Nat) (es : List SyntaxTree) :
    firstNode kind start es = (Placed.childrenFrom start es).find? fun c => c.kind = kind := by
  induction es generalizing start with
  | nil => rfl
  | cons e es ih =>
      cases e with
      | token k text => simp [firstNode, SyntaxTree.isNode, ih, width]
      | node k inner =>
          by_cases hkind : k = kind <;>
            simp [firstNode, SyntaxTree.isNode, SyntaxTree.kind, Placed.kind, hkind, ih, width]

/-- At a comma a slot without a node is a skipped argument. -/
theorem endSlot_eq_ok_iff {lowered : Except Refusal (List Expr)} {slots : List (Option Placed)}
    (ih : ∀ args, lowered = .ok args ↔ ReadsSlots slots args) (filled : Bool) (args : List Expr) :
    (do let rest ← lowered; Except.ok (if filled then rest else .skipped :: rest)) = .ok args ↔
      ReadsSlots (if filled then slots else none :: slots) args := by
  simp only [bind_eq_ok_iff, Except.ok.injEq, ih]
  cases filled with
  | true => simp
  | false => simp [readsSlots_none_cons_iff, and_comm, eq_comm]

/-! ## lowering computes the relation -/

-- along the recursion of `lower`: the parts of a node are looked for among its
-- elements one by one, and each look-up ends at a smaller tree
mutual

theorem lower_eq_ok_iff (start : Nat) (t : SyntaxTree) (e : Expr) :
    lower start t = .ok e ↔ Reads ⟨start, t⟩ e := by
  cases t with
  | token kind text =>
      rw [lower_token]
      simp only [reduceCtorEq, false_iff]
      intro h
      exact Bool.false_ne_true h.isNode
  | node kind es =>
      have hchild := fun outer n e => lowerChild_eq_ok_iff outer n start es e
      have hargs := fun args => lowerArgList_eq_ok_iff start es args
      cases kind with
      | literal => rw [lower_literal_eq_ok_iff, reads_literal_iff rfl]; rfl
      | nameRef => rw [lower_nameRef_eq_ok_iff, reads_nameRef_iff rfl]; rfl
      | parenExpr => rw [lower_parenExpr, hchild, reads_parenExpr_iff rfl]; rfl
      | binExpr =>
          rw [lower_binExpr_eq_ok_iff, reads_binExpr_iff rfl]
          simp only [hchild]
          rfl
      | prefixExpr =>
          rw [lower_prefixExpr_eq_ok_iff, reads_prefixExpr_iff rfl]
          simp only [hchild]
          rfl
      | callExpr =>
          rw [lower_callExpr_eq_ok_iff, reads_callExpr_iff rfl]
          simp only [hargs]
          rfl
      | newExpr =>
          rw [lower_newExpr_eq_ok_iff, reads_newExpr_iff rfl]
          simp only [hargs, firstNode_eq]
          rfl
      | _ =>
          simp only [lower, reduceCtorEq, false_iff]
          intro h
          have hmem := h.kind_mem
          simp [Placed.kind, SyntaxTree.kind] at hmem

theorem lowerChild_eq_ok_iff (outer : SyntaxKind) (n start : Nat) (es : List SyntaxTree)
    (e : Expr) :
    lowerChild outer n start es = .ok e ↔
      ∃ c, (Placed.childrenFrom start es)[n]? = some c ∧ Reads c e := by
  cases es with
  | nil => simp [lowerChild]
  | cons t es =>
      cases t with
      | token kind text =>
          rw [lowerChild, lowerChild_eq_ok_iff outer n _ es e, Placed.childrenFrom_token]
      | node kind inner =>
          cases n with
          | zero =>
              rw [lowerChild, lower_eq_ok_iff start (.node kind inner) e, Placed.childrenFrom_node]
              simp
          | succ n =>
              rw [lowerChild, lowerChild_eq_ok_iff outer n _ es e, Placed.childrenFrom_node,
                List.getElem?_cons_succ]

theorem lowerArgList_eq_ok_iff (start : Nat) (es : List SyntaxTree) (args : List Expr) :
    lowerArgList start es = .ok args ↔
      ReadsSlots ((((Placed.childrenFrom start es).find? fun c => c.kind = .argList).map
        Placed.slots).getD []) args := by
  cases es with
  | nil => simp [lowerArgList, readsSlots_nil_iff, eq_comm]
  | cons t es =>
      cases t with
      | token kind text =>
          rw [lowerArgList, lowerArgList_eq_ok_iff _ es args, Placed.childrenFrom_token]
      | node kind inner =>
          rw [lowerArgList, Placed.childrenFrom_node, List.find?_cons]
          by_cases hkind : kind = .argList
          · rw [if_pos hkind, lowerArguments_eq_ok_iff start false false inner args]
            simp only [Placed.kind, SyntaxTree.kind, hkind]
            rfl
          · rw [if_neg hkind, lowerArgList_eq_ok_iff _ es args]
            simp only [Placed.kind, SyntaxTree.kind, hkind, decide_false]

theorem lowerArguments_eq_ok_iff (start : Nat) (filled delimited : Bool) (es : List SyntaxTree)
    (args : List Expr) :
    lowerArguments start filled delimited es = .ok args ↔
      ReadsSlots (Placed.slotsFrom filled delimited (Placed.sideBySide start es)) args := by
  cases es with
  | nil =>
      rw [lowerArguments, Placed.sideBySide, Placed.slotsFrom]
      split <;> simp [readsSlots_none_cons_iff, readsSlots_nil_iff, eq_comm]
  | cons t es =>
      cases t with
      | token kind text =>
          have ih := fun filled delimited args => lowerArguments_eq_ok_iff
            (start + text.utf8ByteSize) filled delimited es args
          rw [lowerArguments, Placed.sideBySide, Placed.slotsFrom, width]
          by_cases hkind : kind = .comma
          · subst hkind
            exact endSlot_eq_ok_iff (ih false true) filled args
          · simp only [Placed.kind, SyntaxTree.kind, SyntaxTree.isNode, hkind, if_false,
              Bool.false_eq_true]
            exact ih filled delimited args
      | node kind inner =>
          have ih := fun filled delimited args => lowerArguments_eq_ok_iff
            (start + widthOfList inner) filled delimited es args
          have hnode := fun e => lower_eq_ok_iff start (.node kind inner) e
          rw [lowerArguments, Placed.sideBySide, Placed.slotsFrom, width]
          by_cases hkind : kind = .comma
          · subst hkind
            exact endSlot_eq_ok_iff (ih false true) filled args
          · simp only [Placed.kind, SyntaxTree.kind, SyntaxTree.isNode, hkind, if_false, if_true,
              bind_eq_ok_iff, readsSlots_some_cons_iff, Except.ok.injEq, ih, hnode]
            constructor
            · rintro ⟨e, he, rest, hrest, rfl⟩
              exact ⟨e, rest, rfl, he, hrest⟩
            · rintro ⟨e, rest, rfl, he, hrest⟩
              exact ⟨e, he, rest, hrest, rfl⟩

end

end Expr

/-- A placed node is lowered to an expression exactly if it reads as it. -/
theorem reads_iff {p : Placed} {e : Expr} : Reads p e ↔ p.expression = .ok e :=
  (Expr.lower_eq_ok_iff p.start p.tree e).symm

end BslNav
