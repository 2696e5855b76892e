import BslNav.Proofs.Expr.Linking

/-!
# BslNav.Proofs.Expr.Typing

Constructor calls whose type is known before the program runs.

Lowering never puts together what does not fit: where it makes a static
constructor call, the type name is a literal.  Whether the type is known can be
seen at the node: it is if the type name is written out, or if the first argument
is a literal in any number of parentheses.  So can the name.  What is done to the
call later changes neither.

* `Expr.fits_lower` — no violation, whatever the tree;
* `Placed.NamesType` — the name of the type, read off the node;
* `construct_typing` — the two answers of a lowered constructor call.
-/

namespace BslNav

open SyntaxTree

/-! ## what fits together -/

/-- If there is a refusal, it is not for parts that do not fit together. -/
def Fits {α : Type} (lowered : Except Refusal α) : Prop :=
  ∀ v, lowered ≠ .error (.violation v)

section Fits

variable {α β : Type}

@[simp] theorem fits_ok (a : α) : Fits (.ok a) := by simp [Fits]

@[simp] theorem fits_unmodelled (kind : SyntaxKind) :
    Fits (.error (.unmodelled kind) : Except Refusal α) := by simp [Fits]

@[simp] theorem fits_malformed (kind : SyntaxKind) :
    Fits (.error (.malformed kind) : Except Refusal α) := by simp [Fits]

theorem Fits.bind {x : Except Refusal α} {f : α → Except Refusal β} (hx : Fits x)
    (hf : ∀ a, Fits (f a)) : Fits (x >>= f) := by
  cases x with
  | ok a => exact hf a
  | error refusal => simpa [Fits, Bind.bind, Except.bind] using hx

end Fits

namespace Expr

/-- The name of a written type is a literal, as a static call needs it. -/
theorem fits_ofConstructor (start : Nat) (es : List SyntaxTree) (args : List Expr) :
    Fits (ofConstructor start es args) := by
  unfold ofConstructor
  cases firstNode .typeName start es with
  | some typeNode =>
      cases hname : firstToken .ident typeNode.tree.elements <;>
        simp [hname, constructStatic, Terminal.isLiteral]
  | none =>
      cases args with
      | nil => exact fits_malformed _
      | cons t rest =>
          cases t with
          | skipped => exact fits_malformed _
          | _ => exact fits_ok _

-- along the recursion of `lower`; only a constructor call puts parts together
-- that might not fit
mutual

theorem fits_lower (start : Nat) (t : SyntaxTree) : Fits (lower start t) := by
  cases t with
  | token kind text => exact fits_unmodelled kind
  | node kind es =>
      have hchild := fun n => fits_lowerChild kind n start es
      have hargs := fits_lowerArgList start es
      cases kind with
      | literal =>
          rw [lower]
          cases literalIn? es <;> simp
      | nameRef =>
          rw [lower]
          cases firstToken .ident es <;> simp
      | parenExpr =>
          rw [lower]
          exact hchild 0
      | binExpr =>
          rw [lower]
          refine (hchild 0).bind fun l => (hchild 1).bind fun r => ?_
          cases binaryOpIn? es <;> simp
      | prefixExpr =>
          rw [lower]
          cases unaryOpIn? es with
          | none => exact fits_malformed _
          | some op => exact (hchild 0).bind fun e => fits_ok _
      | callExpr =>
          rw [lower]
          cases firstToken .ident es with
          | none => exact fits_malformed _
          | some name => exact hargs.bind fun args => fits_ok _
      | newExpr =>
          rw [lower]
          exact hargs.bind fun args => (fits_ofConstructor start es args).bind fun e => fits_ok _
      | _ => exact fits_unmodelled _

theorem fits_lowerChild (outer : SyntaxKind) (n start : Nat) (es : List SyntaxTree) :
    Fits (lowerChild outer n start es) := by
  cases es with
  | nil => exact fits_malformed outer
  | cons e es =>
      cases e with
      | token kind text => exact fits_lowerChild outer n _ es
      | node kind inner =>
          cases n with
          | zero => exact fits_lower start (.node kind inner)
          | succ n => exact fits_lowerChild outer n _ es

theorem fits_lowerArgList (start : Nat) (es : List SyntaxTree) : Fits (lowerArgList start es) := by
  cases es with
  | nil => exact fits_ok []
  | cons e es =>
      cases e with
      | token kind text => exact fits_lowerArgList _ es
      | node kind inner =>
          rw [lowerArgList]
          split
          · exact fits_lowerArguments start false false inner
          · exact fits_lowerArgList _ es

theorem fits_lowerArguments (start : Nat) (filled delimited : Bool) (es : List SyntaxTree) :
    Fits (lowerArguments start filled delimited es) := by
  cases es with
  | nil => exact fits_ok _
  | cons e es =>
      have hrest := fun start filled delimited => fits_lowerArguments start filled delimited es
      cases e with
      | token kind text =>
          rw [lowerArguments]
          split
          · exact (hrest _ _ _).bind fun rest => fits_ok _
          · exact hrest _ _ _
      | node kind inner =>
          have hfirst := fits_lower start (.node kind inner)
          rw [lowerArguments]
          split
          · exact (hrest _ _ _).bind fun rest => fits_ok _
          · exact hfirst.bind fun first => (hrest _ _ _).bind fun rest => fits_ok _

end

/-! ## changes to a finished call -/

/-- What can be done to an expression after it was made. -/
inductive Change where
  | addArgument (argument : Expr)
  | setLink (link : NodeLink)

/-- The expression after the change. -/
def Change.apply : Change → Expr → Expr
  | .addArgument argument, e => e.addArgument argument
  | .setLink link, e => e.withLink link

/-- The expression after several changes, the first one first. -/
def changed (e : Expr) (changes : List Change) : Expr :=
  changes.foldl (fun e change => change.apply e) e

theorem Change.typing_apply (change : Change) (e : Expr) :
    (change.apply e).isStaticallyTyped = e.isStaticallyTyped ∧
      (change.apply e).staticTypeName? = e.staticTypeName? := by
  cases change <;> simp [apply]

/-- The type of a constructor call is settled when the call is made. -/
theorem typing_changed (e : Expr) (changes : List Change) :
    (e.changed changes).isStaticallyTyped = e.isStaticallyTyped ∧
      (e.changed changes).staticTypeName? = e.staticTypeName? := by
  induction changes generalizing e with
  | nil => exact ⟨rfl, rfl⟩
  | cons change changes ih =>
      obtain ⟨htyped, hname⟩ := change.typing_apply e
      obtain ⟨htyped', hname'⟩ := ih (change.apply e)
      exact ⟨htyped'.trans htyped, hname'.trans hname⟩

/-- The name is there exactly if the type is known. -/
theorem isSome_staticTypeName? (e : Expr) :
    e.staticTypeName?.isSome = e.isStaticallyTyped := by
  cases e <;> simp [staticTypeName?, isStaticallyTyped]

end Expr

/-! ## the type as it is written -/

/-- String literals are those with a string token. -/
theorem LiteralKind.eq_string_iff {token : SyntaxKind} {kind : LiteralKind}
    (h : ofToken? token = some kind) : kind = .string ↔ token = .string := by
  cases token <;> cases h <;> decide

namespace Placed

/-- The first child node of the first argument list. -/
def firstArgument? (p : Placed) : Option Placed :=
  (p.childOf .argList).bind fun list => list.childNodes[0]?

theorem head_of_slotsFrom {delimited : Bool} {cs : List Placed} {c : Placed}
    {slots : List (Option Placed)} (h : slotsFrom false delimited cs = some c :: slots) :
    (cs.filter (·.tree.isNode))[0]? = some c := by
  induction cs with
  | nil =>
      rw [slotsFrom] at h
      split at h <;> simp at h
  | cons d cs ih =>
      rw [slotsFrom] at h
      split at h
      · simp at h
      · split at h
        · next hnode => simpa [hnode] using (List.cons.inj h).1
        · next hnode => simpa [hnode] using ih h

/-- What is in the first slot is the first child node of the list. -/
theorem firstArgument?_eq_some {p c : Placed} {slots : List (Option Placed)}
    (h : p.argumentSlots = some c :: slots) : p.firstArgument? = some c := by
  rw [argumentSlots] at h
  rw [firstArgument?]
  cases hlist : p.childOf .argList with
  | none => simp [hlist] at h
  | some list =>
      rw [hlist] at h
      exact head_of_slotsFrom h

/-- What a node reads as is what the node inside its parentheses reads as. -/
theorem Encloses.reads {p m : Placed} {e : Expr} (h : p.Encloses m) (hread : Reads p e) :
    Reads m e := by
  induction h with
  | refl => exact hread
  | tail _ step ih =>
      obtain ⟨inner, hinner, hread⟩ := (reads_parenExpr_iff step.1).mp ih
      obtain rfl := Option.some.inj (step.2.symm.trans hinner)
      exact hread

/-- The node names the type that is to be made: by the identifier of a type name,
or, without one, by the token of a literal that is the first argument. -/
inductive NamesType (p : Placed) (name : String) : Prop
  | written {typeNode : Placed} (written : p.childOf .typeName = some typeNode)
      (token : firstToken .ident typeNode.tree.elements = some name)
  | literal {c m : Placed} {token : SyntaxKind} {text : String}
      (unwritten : p.childOf .typeName = none) (first : p.firstArgument? = some c)
      (inside : c.Encloses m) (literal : m.kind = .literal)
      (value : (significantTokens m.tree.elements).head? = some (token, text))
      (name_eq : name = if token = .string then unquote text else text)

theorem namesType_iff_of_written {p typeNode : Placed} {name : String}
    (written : p.childOf .typeName = some typeNode) :
    p.NamesType name ↔ firstToken .ident typeNode.tree.elements = some name := by
  constructor
  · intro hname
    cases hname with
    | written written' token =>
        obtain rfl := Option.some.inj (written.symm.trans written')
        exact token
    | literal unwritten => simp [written] at unwritten
  · exact .written written

theorem namesType_iff_of_unwritten {p c : Placed} {name : String}
    (unwritten : p.childOf .typeName = none) (first : p.firstArgument? = some c) :
    p.NamesType name ↔ ∃ m token text, c.Encloses m ∧ m.kind = .literal ∧
      (significantTokens m.tree.elements).head? = some (token, text) ∧
      name = if token = .string then unquote text else text := by
  constructor
  · intro hname
    cases hname with
    | written written => simp [unwritten] at written
    | @literal c' m token text _ first' inside literal value name_eq =>
        obtain rfl := Option.some.inj (first.symm.trans first')
        exact ⟨m, token, text, inside, literal, value, name_eq⟩
  · rintro ⟨m, token, text, inside, literal, value, name_eq⟩
    exact .literal unwritten first inside literal value name_eq

end Placed

namespace Reads

variable {p : Placed} {e : Expr}

/-- A literal is read from a literal node, in any number of parentheses; the first
token there is the value. -/
theorem exists_of_literal? (h : Reads p e) {kind : LiteralKind} {text : String}
    (hliteral : e.literal? = some (kind, text)) :
    ∃ m token, p.Encloses m ∧ m.kind = .literal ∧
      (significantTokens m.tree.elements).head? = some (token, text) ∧
      LiteralKind.ofToken? token = some kind := by
  obtain ⟨m, hm, hparen, hread⟩ := h.exists_source
  cases hread with
  | paren => contradiction
  | literal hkind hvalue =>
      obtain ⟨token, text', kind', hhead, htoken, rfl⟩ := literalIn?_eq_some_iff.mp hvalue
      obtain ⟨rfl, rfl⟩ : kind' = kind ∧ text' = text := by simpa [Expr.literal?] using hliteral
      exact ⟨m, token, hm, hkind, hhead, htoken⟩
  | _ => simp [Expr.literal?] at hliteral

/-- What is read from a literal node, in any number of parentheses, is a literal. -/
theorem exists_literal?_eq {m : Placed} (h : Reads p e) (hm : p.Encloses m)
    (hkind : m.kind = .literal) :
    ∃ token text kind, (significantTokens m.tree.elements).head? = some (token, text) ∧
      LiteralKind.ofToken? token = some kind ∧ e.literal? = some (kind, text) := by
  obtain ⟨value, hvalue, rfl⟩ := (reads_literal_iff hkind).mp (hm.reads h)
  obtain ⟨token, text, kind, hhead, htoken, rfl⟩ := literalIn?_eq_some_iff.mp hvalue
  exact ⟨token, text, kind, hhead, htoken, rfl⟩

theorem isSome_literal?_iff (h : Reads p e) :
    e.literal?.isSome = true ↔ ∃ m, p.Encloses m ∧ m.kind = .literal := by
  constructor
  · intro hsome
    obtain ⟨⟨kind, text⟩, hliteral⟩ := Option.isSome_iff_exists.mp hsome
    obtain ⟨m, token, hm, hkind, -⟩ := h.exists_of_literal? hliteral
    exact ⟨m, hm, hkind⟩
  · rintro ⟨m, hm, hkind⟩
    obtain ⟨token, text, kind, -, -, hliteral⟩ := h.exists_literal?_eq hm hkind
    simp [hliteral]

theorem nodeType_eq (h : Reads p e) (hkind : p.kind = .newExpr) :
    e.nodeType = .constructorCall := by
  cases h with
  | static | dynamic => rfl
  | _ => simp_all

/-- The type is known if its name is written, or given by a literal. -/
theorem isStaticallyTyped_iff (h : Reads p e) (hkind : p.kind = .newExpr) :
    e.isStaticallyTyped = true ↔ (p.childOf .typeName).isSome = true ∨
      ∃ c m, p.firstArgument? = some c ∧ c.Encloses m ∧ m.kind = .literal := by
  cases h with
  | static _ written => simp [Expr.isStaticallyTyped, Expr.literal?, written]
  | dynamic _ unwritten first readName =>
      simp [Expr.isStaticallyTyped, unwritten, Placed.firstArgument?_eq_some first,
        readName.isSome_literal?_iff]
  | _ => simp_all

/-- The name of the type is the one that the node names. -/
theorem staticTypeName?_eq_some_iff (h : Reads p e) (hkind : p.kind = .newExpr) {name : String} :
    e.staticTypeName? = some name ↔ p.NamesType name := by
  cases h with
  | static _ written token =>
      rw [Placed.namesType_iff_of_written written, token]
      simp [Expr.staticTypeName?, Expr.literal?]
  | dynamic _ unwritten first readName =>
      rw [Placed.namesType_iff_of_unwritten unwritten (Placed.firstArgument?_eq_some first)]
      constructor
      · intro hname
        obtain ⟨⟨kind, text⟩, hliteral, rfl⟩ := Option.map_eq_some_iff.mp hname
        obtain ⟨m, token, hm, hkind, hhead, htoken⟩ := readName.exists_of_literal? hliteral
        refine ⟨m, token, text, hm, hkind, hhead, ?_⟩
        simp only [LiteralKind.eq_string_iff htoken]
      · rintro ⟨m, token, text, hm, hkind, hhead, rfl⟩
        obtain ⟨token', text', kind, hhead', htoken, hliteral⟩ :=
          readName.exists_literal?_eq hm hkind
        obtain ⟨rfl, rfl⟩ : token' = token ∧ text' = text := by simpa [hhead, eq_comm] using hhead'
        simp [Expr.staticTypeName?, hliteral, LiteralKind.eq_string_iff htoken]
  | _ => simp_all

end Reads

/-- **Typing is settled by the node**: lowering comes upon no violation, and a
lowered constructor call is statically typed exactly if its type name is written
or its first argument is a literal; then it has the name that the node names, and
no later change takes it away or gives one. -/
theorem construct_typing (p : Placed) (e : Expr) :
    (∀ v, p.expression ≠ .error (.violation v)) ∧
    (p.kind = .newExpr → p.expression = .ok e →
      e.nodeType = .constructorCall ∧
      (e.isStaticallyTyped = true ↔ (p.childOf .typeName).isSome = true ∨
        ∃ c m, p.firstArgument? = some c ∧ c.Encloses m ∧ m.kind = .literal) ∧
      e.staticTypeName?.isSome = e.isStaticallyTyped ∧
      (∀ name, e.staticTypeName? = some name ↔ p.NamesType name) ∧
      ∀ changes, (e.changed changes).isStaticallyTyped = e.isStaticallyTyped ∧
        (e.changed changes).staticTypeName? = e.staticTypeName?) := by
  refine ⟨Expr.fits_lower p.start p.tree, fun hkind h => ?_⟩
  have hread := reads_iff.mpr h
  exact ⟨hread.nodeType_eq hkind, hread.isStaticallyTyped_iff hkind, e.isSome_staticTypeName?,
    fun _ => hread.staticTypeName?_eq_some_iff hkind, e.typing_changed⟩

/-- `New(("Map"),x)` -/
def typedSample : SyntaxTree :=
  .node .newExpr [.token .newKw "New",
    .node .argList [.token .lParen "(",
      .node .parenExpr [.token .lParen "(", .node .literal [.token .string "\"Map\""],
        .token .rParen ")"],
      .token .comma ",", .node .nameRef [.token .ident "x"], .token .rParen ")"]]

theorem construct_typing_typedSample : ∃ e, typedSample.root.expression = .ok e ∧
    e.isStaticallyTyped = true ∧ typedSample.root.NamesType "Map" ∧
    ((e.addArgument .skipped).withLink ⟨.newExpr, 0, 1⟩).staticTypeName? = some "Map" := by
  obtain ⟨-, htyped⟩ := construct_typing typedSample.root (.construct
    (.terminal (.literal .string "\"Map\"") (some ⟨.literal, 5, 10⟩))
    [.terminal (.identifier "x") (some ⟨.nameRef, 12, 13⟩)] (some ⟨.newExpr, 0, 14⟩))
  obtain ⟨-, -, -, hname, hchanged⟩ := htyped rfl rfl
  refine ⟨_, rfl, rfl, (hname "Map").mp ?_, ?_⟩
  · decide +kernel
  · exact (hchanged [.addArgument .skipped, .setLink ⟨.newExpr, 0, 1⟩]).2.trans (by decide +kernel)

end BslNav
