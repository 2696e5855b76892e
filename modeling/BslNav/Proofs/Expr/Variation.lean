import BslNav.Proofs.Expr.Linking

/-!
# BslNav.Proofs.Expr.Variation

Ways of writing the same expression.

Blanks and comments may stand anywhere in a node, and operands and arguments may
stand in parentheses.  A `Revision` of a tree puts in or takes out one such token,
or puts one node in parentheses; two trees that some revisions turn into each
other have the same meaning: both are lowered to the same expression, links
apart, or neither is lowered at all.

One revision leaves the tree `Alike`: node by node and token by token the same,
up to the trivia and the parentheses.  Lowering goes through two trees that are
alike in step.

* `Alike.meaning_eq` — trees that are alike have the same meaning;
* `Revision.alike` — what one revision does;
* `meaning_eq_of_revisions` — what any number of revisions does.
-/

namespace BslNav

open SyntaxTree

/-! ## meaning -/

namespace Expr

/-- What was read, links apart; nothing if it was refused. -/
def meaning (lowered : Except Refusal Expr) : Option Expr := lowered.toOption.map unlinked

/-- What was read of the arguments, links apart; nothing if one was refused. -/
def meanings (lowered : Except Refusal (List Expr)) : Option (List Expr) :=
  lowered.toOption.map unlinkedList

section Equations

variable (start : Nat) (es : List SyntaxTree)

theorem meaning_literal : meaning (lower start (.node .literal es)) =
    (literalIn? es).map (Expr.terminal · none) := by
  rw [lower]
  cases literalIn? es <;> rfl

theorem meaning_nameRef : meaning (lower start (.node .nameRef es)) =
    (firstToken .ident es).map fun name => .terminal (.identifier name) none := by
  rw [lower]
  cases firstToken .ident es <;> rfl

theorem meaning_binExpr : meaning (lower start (.node .binExpr es)) =
    (meaning (lowerChild .binExpr 0 start es)).bind fun l =>
      (meaning (lowerChild .binExpr 1 start es)).bind fun r =>
        (binaryOpIn? es).map fun op => .binary op l r none := by
  rw [lower]
  cases lowerChild .binExpr 0 start es <;> cases lowerChild .binExpr 1 start es <;>
    cases binaryOpIn? es <;> rfl

theorem meaning_prefixExpr : meaning (lower start (.node .prefixExpr es)) =
    (meaning (lowerChild .prefixExpr 0 start es)).bind fun e =>
      (unaryOpIn? es).map fun op => .unary op e none := by
  rw [lower]
  cases lowerChild .prefixExpr 0 start es <;> cases unaryOpIn? es <;> rfl

theorem meaning_callExpr : meaning (lower start (.node .callExpr es)) =
    (firstToken .ident es).bind fun name =>
      (meanings (lowerArgList start es)).map fun args => .call name args none := by
  rw [lower]
  cases firstToken .ident es <;> cases lowerArgList start es <;> rfl

/-- The constructor call with the given type name, if one is written and whether
it has a name, or with the first argument for its type. -/
def constructed (name : Option (Option String)) (args : List Expr) : Option Expr :=
  match name, args with
  | some name, args =>
      name.map fun name => .construct (.terminal (.literal .typeName name) none) args none
  | none, [] | none, .skipped :: _ => none
  | none, t :: rest => some (.construct t rest none)

theorem meaning_ofConstructor (args : List Expr) (link : NodeLink) :
    meaning ((ofConstructor start es args).map (withLink link)) =
      constructed ((firstNode .typeName start es).map fun c => firstToken .ident c.tree.elements)
        (unlinkedList args) := by
  unfold ofConstructor
  cases firstNode .typeName start es with
  | some typeNode =>
      cases hname : firstToken .ident typeNode.tree.elements <;> simp [hname, constructed] <;> rfl
  | none =>
      cases args with
      | nil => rfl
      | cons t rest => cases t <;> rfl

theorem meaning_newExpr : meaning (lower start (.node .newExpr es)) =
    (meanings (lowerArgList start es)).bind
      (constructed ((firstNode .typeName start es).map fun c =>
        firstToken .ident c.tree.elements)) := by
  rw [lower]
  cases lowerArgList start es with
  | error refusal => rfl
  | ok args => exact meaning_ofConstructor start es args _

end Equations

end Expr

/-! ## trees that are alike -/

/-- In a node of the kind `outer` a child node of one kind may stand for one of the
other: their kinds agree, or the kind does not matter there. -/
def Exchangeable (outer kind kind' : SyntaxKind) : Prop :=
  kind = kind' ∨ outer = .binExpr ∨ outer = .prefixExpr ∨ outer = .parenExpr ∨
    outer = .argList ∧ kind ≠ .comma ∧ kind' ≠ .comma

mutual

/-- The second node is the first one with other trivia and with parentheses around
itself and what is in it. -/
inductive Alike : SyntaxTree → SyntaxTree → Prop
  | node {kind : SyntaxKind} {es es' : List SyntaxTree} (elements : AlikeElements kind es es') :
      Alike (.node kind es) (.node kind es')
  | paren {t : SyntaxTree} {kind : SyntaxKind} {before inner after : List SyntaxTree}
      (tokens : ∀ s ∈ before, s.isNode = false) (inside : Alike t (.node kind inner)) :
      Alike t (.node .parenExpr (before ++ .node kind inner :: after))

/-- The elements of two nodes of the kind `outer` are alike, one by one but for the
trivia. -/
inductive AlikeElements : SyntaxKind → List SyntaxTree → List SyntaxTree → Prop
  | nil {outer : SyntaxKind} : AlikeElements outer [] []
  | inserted {outer kind : SyntaxKind} {text : String} {es es' : List SyntaxTree}
      (trivia : kind.isTrivia = true) (rest : AlikeElements outer es es') :
      AlikeElements outer es (.token kind text :: es')
  | deleted {outer kind : SyntaxKind} {text : String} {es es' : List SyntaxTree}
      (trivia : kind.isTrivia = true) (rest : AlikeElements outer es es') :
      AlikeElements outer (.token kind text :: es) es'
  | token {outer kind : SyntaxKind} {text : String} {es es' : List SyntaxTree}
      (rest : AlikeElements outer es es') :
      AlikeElements outer (.token kind text :: es) (.token kind text :: es')
  | node {outer kind kind' : SyntaxKind} {inner inner' es es' : List SyntaxTree}
      (exchangeable : Exchangeable outer kind kind')
      (first : Alike (.node kind inner) (.node kind' inner')) (rest : AlikeElements outer es es') :
      AlikeElements outer (.node kind inner :: es) (.node kind' inner' :: es')

end

/-! ### tokens -/

theorem significantTokens_cons (e : SyntaxTree) (es : List SyntaxTree) :
    significantTokens (e :: es) = significantTokens [e] ++ significantTokens es :=
  significantTokens_append [e] es

theorem significantTokens_trivia {kind : SyntaxKind} (h : kind.isTrivia = true) (text : String)
    (es : List SyntaxTree) : significantTokens (.token kind text :: es) = significantTokens es := by
  rw [significantTokens, if_pos h]

theorem AlikeElements.significantTokens_eq : ∀ {outer : SyntaxKind} {es es' : List SyntaxTree},
    AlikeElements outer es es' → significantTokens es = significantTokens es'
  | _, _, _, .nil => rfl
  | _, _, _, .inserted trivia rest => by
      rw [rest.significantTokens_eq, significantTokens_trivia trivia]
  | _, _, _, .deleted trivia rest => by
      rw [← rest.significantTokens_eq, significantTokens_trivia trivia]
  | _, _, _, .token rest => by
      rw [significantTokens_cons, rest.significantTokens_eq, ← significantTokens_cons]
  | _, _, _, .node _ _ rest => rest.significantTokens_eq

theorem AlikeElements.firstToken_eq {outer : SyntaxKind} {es es' : List SyntaxTree}
    (h : AlikeElements outer es es') (kind : SyntaxKind) :
    firstToken kind es = firstToken kind es' := by
  rw [firstToken, firstToken, h.significantTokens_eq]

/-- A node of another kind than parentheses is alike element by element. -/
theorem Alike.elements {kind : SyntaxKind} {es es' : List SyntaxTree}
    (h : Alike (.node kind es) (.node kind es')) (hparen : kind ≠ .parenExpr) :
    AlikeElements kind es es' := by
  cases h with
  | node elements => exact elements
  | paren => contradiction

/-- In a constructor call only kinds that agree are exchangeable. -/
theorem Exchangeable.eq {outer kind kind' : SyntaxKind} (h : Exchangeable outer kind kind')
    (houter : outer = .callExpr ∨ outer = .newExpr) : kind = kind' := by
  unfold Exchangeable at h
  obtain rfl | rfl := houter <;> simpa using h

/-- In an argument list commas are exchangeable for commas only. -/
theorem Exchangeable.comma_iff {kind kind' : SyntaxKind} (h : Exchangeable .argList kind kind') :
    kind = .comma ↔ kind' = .comma := by
  unfold Exchangeable at h
  obtain rfl | h := h
  · exact Iff.rfl
  · simp_all

theorem map_firstNode_node (start : Nat) (kind : SyntaxKind) (inner es : List SyntaxTree) :
    ((firstNode .typeName start (.node kind inner :: es)).map fun c =>
        firstToken .ident c.tree.elements) =
      if kind = .typeName then some (firstToken .ident inner)
      else (firstNode .typeName (start + widthOfList inner) es).map fun c =>
        firstToken .ident c.tree.elements := by
  by_cases h : kind = .typeName <;>
    simp [firstNode, SyntaxTree.isNode, SyntaxTree.kind, SyntaxTree.elements, width, h]

/-- Type names are found at the same place, with the same name. -/
theorem AlikeElements.firstNode_eq : ∀ {outer : SyntaxKind} {es es' : List SyntaxTree},
    AlikeElements outer es es' → outer = .newExpr → ∀ start start',
      ((firstNode .typeName start es).map fun c => firstToken .ident c.tree.elements) =
        (firstNode .typeName start' es').map fun c => firstToken .ident c.tree.elements
  | _, _, _, .nil, _, _, _ => rfl
  | _, _, _, .inserted _ rest, houter, start, _ => rest.firstNode_eq houter start _
  | _, _, _, .deleted _ rest, houter, _, start' => rest.firstNode_eq houter _ start'
  | _, _, _, .token rest, houter, _, _ => rest.firstNode_eq houter _ _
  | _, _, _, .node exchangeable first rest, houter, start, start' => by
      obtain rfl := exchangeable.eq (.inr houter)
      rw [map_firstNode_node, map_firstNode_node, rest.firstNode_eq houter _ (start' + _)]
      split
      · next hkind =>
        rw [(first.elements (by rw [hkind]; decide)).firstToken_eq]
      · rfl

/-! ### lowering in step -/

namespace Expr

/-- Parentheses mean what is in them. -/
theorem lower_paren {before : List SyntaxTree} (tokens : ∀ s ∈ before, s.isNode = false)
    (start : Nat) (kind : SyntaxKind) (inner after : List SyntaxTree) :
    lower start (.node .parenExpr (before ++ .node kind inner :: after)) =
      lower (start + widthOfList before) (.node kind inner) := by
  rw [lower_parenExpr]
  induction before generalizing start with
  | nil => rw [List.nil_append, lowerChild, widthOfList, Nat.add_zero]
  | cons s before ih =>
      obtain ⟨hs, htokens⟩ := List.forall_mem_cons.mp tokens
      cases s with
      | node kind es => contradiction
      | token kind text =>
          rw [List.cons_append, lowerChild, ih htokens, widthOfList, width, Nat.add_assoc]

theorem lowerArguments_trivia {kind : SyntaxKind} (h : kind.isTrivia = true) (start : Nat)
    (filled delimited : Bool) (text : String) (es : List SyntaxTree) :
    lowerArguments start filled delimited (.token kind text :: es) =
      lowerArguments (start + text.utf8ByteSize) filled delimited es := by
  have hcomma : kind ≠ .comma := by
    rintro rfl
    contradiction
  rw [lowerArguments, if_neg hcomma]

/-- At a comma a slot without a node is a skipped argument. -/
theorem meanings_endSlot (filled : Bool) (lowered : Except Refusal (List Expr)) :
    meanings (do let rest ← lowered; Except.ok (if filled then rest else .skipped :: rest)) =
      (meanings lowered).map fun rest => if filled then rest else .skipped :: rest := by
  cases lowered <;> cases filled <;> rfl

theorem meanings_cons (first : Except Refusal Expr) (lowered : Except Refusal (List Expr)) :
    meanings (do let e ← first; let rest ← lowered; Except.ok (e :: rest)) =
      (meaning first).bind fun e => (meanings lowered).map (e :: ·) := by
  cases first <;> cases lowered <;> rfl

end Expr

open BslNav.Expr

mutual

theorem Alike.meaning_eq : ∀ {t t' : SyntaxTree}, Alike t t' → ∀ start start',
    meaning (lower start t) = meaning (lower start' t')
  | _, _, .paren tokens inside, start, start' => by
      rw [lower_paren tokens]
      exact inside.meaning_eq start _
  | _, _, @Alike.node kind es es' elements, start, start' => by
      have htokens := elements.significantTokens_eq
      have hchild := fun n => elements.meaning_lowerChild kind n start start'
      have hargs := fun houter => elements.meanings_lowerArgList houter start start'
      cases kind with
      | literal => simp only [meaning_literal, literalIn?, htokens]
      | nameRef => simp only [meaning_nameRef, firstToken, htokens]
      | parenExpr => rw [lower_parenExpr, lower_parenExpr, hchild]
      | binExpr => simp only [meaning_binExpr, binaryOpIn?, htokens, hchild]
      | prefixExpr => simp only [meaning_prefixExpr, unaryOpIn?, htokens, hchild]
      | callExpr => simp only [meaning_callExpr, firstToken, htokens, hargs (.inl rfl)]
      | newExpr =>
          rw [meaning_newExpr, meaning_newExpr, elements.firstNode_eq rfl start start',
            hargs (.inr rfl)]
      | _ => simp only [meaning, lower, Except.toOption]

theorem AlikeElements.meaning_lowerChild : ∀ {outer : SyntaxKind} {es es' : List SyntaxTree},
    AlikeElements outer es es' → ∀ kind n start start',
      meaning (lowerChild kind n start es) = meaning (lowerChild kind n start' es')
  | _, _, _, .nil, _, _, _, _ => rfl
  | _, _, _, .inserted _ rest, kind, n, start, _ => rest.meaning_lowerChild kind n start _
  | _, _, _, .deleted _ rest, kind, n, _, start' => rest.meaning_lowerChild kind n _ start'
  | _, _, _, .token rest, kind, n, _, _ => rest.meaning_lowerChild kind n _ _
  | _, _, _, .node _ first _, _, 0, start, start' => first.meaning_eq start start'
  | _, _, _, .node _ _ rest, kind, n + 1, _, _ => rest.meaning_lowerChild kind n _ _

theorem AlikeElements.meanings_lowerArgList : ∀ {outer : SyntaxKind} {es es' : List SyntaxTree},
    AlikeElements outer es es' → outer = .callExpr ∨ outer = .newExpr → ∀ start start',
      meanings (lowerArgList start es) = meanings (lowerArgList start' es')
  | _, _, _, .nil, _, _, _ => rfl
  | _, _, _, .inserted _ rest, houter, start, _ => rest.meanings_lowerArgList houter start _
  | _, _, _, .deleted _ rest, houter, _, start' => rest.meanings_lowerArgList houter _ start'
  | _, _, _, .token rest, houter, _, _ => rest.meanings_lowerArgList houter _ _
  | _, _, _, .node exchangeable (.paren _ _) rest, houter, start, start' => by
      obtain rfl := exchangeable.eq houter
      exact rest.meanings_lowerArgList houter _ _
  | _, _, _, @AlikeElements.node _ _ kind inner inner' es es' exchangeable (.node elements) rest,
      houter, start, start' => by
      have hrest := rest.meanings_lowerArgList houter (start + widthOfList inner)
        (start' + widthOfList inner')
      have hlist := fun hkind => elements.meanings_lowerArguments hkind false false start start'
      rw [lowerArgList, lowerArgList]
      by_cases hkind : kind = .argList
      · rw [if_pos hkind, if_pos hkind, hlist hkind]
      · rw [if_neg hkind, if_neg hkind, hrest]

theorem AlikeElements.meanings_lowerArguments : ∀ {outer : SyntaxKind} {es es' : List SyntaxTree},
    AlikeElements outer es es' → outer = .argList → ∀ filled delimited start start',
      meanings (lowerArguments start filled delimited es) =
        meanings (lowerArguments start' filled delimited es')
  | _, _, _, .nil, _, _, _, _, _ => rfl
  | _, _, _, .inserted trivia rest, houter, filled, delimited, start, start' => by
      rw [lowerArguments_trivia trivia]
      exact rest.meanings_lowerArguments houter filled delimited start _
  | _, _, _, .deleted trivia rest, houter, filled, delimited, start, start' => by
      rw [lowerArguments_trivia trivia]
      exact rest.meanings_lowerArguments houter filled delimited _ start'
  | _, _, _, @AlikeElements.token _ kind text es es' rest, houter, filled, delimited,
      start, start' => by
      have hrest := fun filled delimited => rest.meanings_lowerArguments houter filled delimited
        (start + text.utf8ByteSize) (start' + text.utf8ByteSize)
      rw [lowerArguments, lowerArguments]
      by_cases hkind : kind = .comma
      · rw [if_pos hkind, if_pos hkind, meanings_endSlot, meanings_endSlot, hrest]
      · rw [if_neg hkind, if_neg hkind, hrest]
  | _, _, _, @AlikeElements.node _ kind kind' inner inner' es es' exchangeable first rest, houter,
      filled, delimited, start, start' => by
      have hcomma : kind = .comma ↔ kind' = .comma := (houter ▸ exchangeable).comma_iff
      have hfirst := first.meaning_eq start start'
      have hrest := fun filled delimited => rest.meanings_lowerArguments houter filled delimited
        (start + widthOfList inner) (start' + widthOfList inner')
      rw [lowerArguments, lowerArguments]
      by_cases hkind : kind = .comma
      · rw [if_pos hkind, if_pos (hcomma.mp hkind), meanings_endSlot, meanings_endSlot, hrest]
      · rw [if_neg hkind, if_neg (mt hcomma.mpr hkind), meanings_cons, meanings_cons, hfirst, hrest]

end

/-! ## revisions -/

theorem AlikeElements.refl : ∀ (outer : SyntaxKind) (es : List SyntaxTree), AlikeElements outer es es
  | _, [] => .nil
  | outer, .token _ _ :: es => .token (refl outer es)
  | outer, .node kind inner :: es => .node (.inl rfl) (.node (refl kind inner)) (refl outer es)

/-- Elements before those that are alike. -/
theorem AlikeElements.prepend {outer : SyntaxKind} {es es' : List SyntaxTree}
    (before : List SyntaxTree) (h : AlikeElements outer es es') :
    AlikeElements outer (before ++ es) (before ++ es') := by
  induction before with
  | nil => exact h
  | cons s before ih =>
      cases s with
      | token kind text => exact .token ih
      | node kind inner => exact .node (.inl rfl) (.node (.refl kind inner)) ih

/-- One change to the elements of a node of the kind `outer`, or to those of a node
somewhere inside: a blank or a comment more or less, or parentheses around a child
node, where it is an operand, an argument or in parentheses already. -/
inductive Edit : SyntaxKind → List SyntaxTree → List SyntaxTree → Prop
  | insert {outer kind : SyntaxKind} (trivia : kind.isTrivia = true)
      (before : List SyntaxTree) (text : String) (after : List SyntaxTree) :
      Edit outer (before ++ after) (before ++ .token kind text :: after)
  | delete {outer kind : SyntaxKind} (trivia : kind.isTrivia = true)
      (before : List SyntaxTree) (text : String) (after : List SyntaxTree) :
      Edit outer (before ++ .token kind text :: after) (before ++ after)
  | paren {outer kind : SyntaxKind} {left inner right : List SyntaxTree}
      (allowed : outer ∈ [SyntaxKind.binExpr, .prefixExpr, .parenExpr] ∨
        outer = .argList ∧ kind ≠ .comma)
      (tokens : ∀ s ∈ left ++ right, s.isNode = false) (before after : List SyntaxTree) :
      Edit outer (before ++ .node kind inner :: after)
        (before ++ .node .parenExpr (left ++ .node kind inner :: right) :: after)
  | inside {outer kind : SyntaxKind} {inner inner' : List SyntaxTree}
      (edit : Edit kind inner inner') (before after : List SyntaxTree) :
      Edit outer (before ++ .node kind inner :: after) (before ++ .node kind inner' :: after)

/-- One change to a tree: an edit inside, or parentheses around the whole. -/
inductive Revision : SyntaxTree → SyntaxTree → Prop
  | edit {kind : SyntaxKind} {es es' : List SyntaxTree} (edit : Edit kind es es') :
      Revision (.node kind es) (.node kind es')
  | paren {kind : SyntaxKind} {left es right : List SyntaxTree}
      (tokens : ∀ s ∈ left ++ right, s.isNode = false) :
      Revision (.node kind es) (.node .parenExpr (left ++ .node kind es :: right))

theorem Edit.alikeElements {outer : SyntaxKind} {es es' : List SyntaxTree} (h : Edit outer es es') :
    AlikeElements outer es es' := by
  induction h with
  | insert trivia before text after => exact .prepend before (.inserted trivia (.refl _ after))
  | delete trivia before text after => exact .prepend before (.deleted trivia (.refl _ after))
  | @paren outer kind left inner right allowed tokens before after =>
      have hexchange : Exchangeable outer kind .parenExpr := by
        simpa [Exchangeable, or_assoc] using Or.inr allowed
      have hparen : Alike (.node kind inner) (.node .parenExpr (left ++ .node kind inner :: right)) :=
        .paren (fun s hs => tokens s (List.mem_append_left right hs)) (.node (.refl kind inner))
      exact .prepend before (.node hexchange hparen (.refl outer after))
  | inside edit before after ih =>
      exact .prepend before (.node (.inl rfl) (.node ih) (.refl _ after))

theorem Revision.alike {t t' : SyntaxTree} (h : Revision t t') : Alike t t' := by
  cases h with
  | edit edit => exact .node edit.alikeElements
  | @paren kind left es right tokens =>
      exact .paren (fun s hs => tokens s (List.mem_append_left right hs)) (.node (.refl kind es))

/-- **Trivia and parentheses carry no meaning**: after any number of revisions the
tree is lowered to the same expression, links apart, or still not at all. -/
theorem meaning_eq_of_revisions {t t' : SyntaxTree} (h : Relation.ReflTransGen Revision t t') :
    meaning t.root.expression = meaning t'.root.expression := by
  induction h with
  | refl => rfl
  | tail _ last ih => exact ih.trans (last.alike.meaning_eq 0 0)

/-- `a+b` -/
def plainSum : SyntaxTree :=
  .node .binExpr [.node .nameRef [.token .ident "a"], .token .plus "+",
    .node .nameRef [.token .ident "b"]]

/-- `a +b` -/
def spacedSum : SyntaxTree :=
  .node .binExpr [.node .nameRef [.token .ident "a"], .token .whitespace " ", .token .plus "+",
    .node .nameRef [.token .ident "b"]]

/-- `a +(b)` -/
def groupedSum : SyntaxTree :=
  .node .binExpr [.node .nameRef [.token .ident "a"], .token .whitespace " ", .token .plus "+",
    .node .parenExpr [.token .lParen "(", .node .nameRef [.token .ident "b"], .token .rParen ")"]]

theorem meaning_eq_of_revisions_plainSum : Relation.ReflTransGen Revision plainSum groupedSum ∧
    meaning plainSum.root.expression = meaning groupedSum.root.expression ∧
    (meaning plainSum.root.expression).isSome = true := by
  have hspaced : Revision plainSum spacedSum :=
    .edit (.insert rfl [.node .nameRef [.token .ident "a"]] " "
      [.token .plus "+", .node .nameRef [.token .ident "b"]])
  have htokens : ∀ s ∈ [SyntaxTree.token .lParen "("] ++ [.token .rParen ")"], s.isNode = false := by
    decide
  have hgrouped : Revision spacedSum groupedSum :=
    .edit (.paren (.inl (by decide)) htokens
      [.node .nameRef [.token .ident "a"], .token .whitespace " ", .token .plus "+"] [])
  have hrevised : Relation.ReflTransGen Revision plainSum groupedSum :=
    .tail (.single hspaced) hgrouped
  exact ⟨hrevised, meaning_eq_of_revisions hrevised, rfl⟩

end BslNav
