import BslNav.Proofs.Expr.Reading

/-!
# BslNav.Proofs.Expr.Rendering

Writing an expression as a tree, and reading it back.

`Expr.render` writes each form of expression as the one node that stands for it,
and a skipped argument as nothing, so that only the commas around it tell that
it was there.  Reading the tree gives the expression back, up to its links, for
every expression that can be written at all (`isWritable`): the commas of an
argument list delimit as many slots as there are arguments, unless the only
argument is skipped, which no comma can tell from no argument.

* `slotsReadBack_renderRest` — the slots from a comma on are the arguments left;
* `readsBack_render` — the one node written reads as the expression;
* `expression_render` — so lowering undoes writing.
-/

namespace BslNav

open SyntaxTree

/-! ## tokens -/

/-- The token between two operands. -/
def BinaryOp.token : BinaryOp → SyntaxKind
  | .add => .plus
  | .sub => .minus
  | .mul => .star
  | .div => .slash
  | .mod => .percent
  | .eq => .eq
  | .notEq => .neq
  | .lt => .lt
  | .ltEq => .ltEq
  | .gt => .gt
  | .gtEq => .gtEq
  | .and => .andKw
  | .or => .orKw

/-- The token before an operand. -/
def UnaryOp.token : UnaryOp → SyntaxKind
  | .plus => .plus
  | .neg => .minus
  | .not => .notKw

@[simp] theorem BinaryOp.ofToken?_token (op : BinaryOp) : ofToken? op.token = some op := by
  cases op <;> rfl

@[simp] theorem BinaryOp.isTrivia_token (op : BinaryOp) : op.token.isTrivia = false := by
  cases op <;> rfl

@[simp] theorem UnaryOp.ofToken?_token (op : UnaryOp) : ofToken? op.token = some op := by
  cases op <;> rfl

@[simp] theorem UnaryOp.isTrivia_token (op : UnaryOp) : op.token.isTrivia = false := by
  cases op <;> rfl

/-- The words of a source text that say no more than the kind of their token,
and the words for true. -/
structure Wording where
  new : String
  binary : BinaryOp → String
  unary : UnaryOp → String
  isTrue : String → Bool

/-- English words and the usual signs. -/
def Wording.english : Wording where
  new := "New"
  binary
    | .add => "+"
    | .sub => "-"
    | .mul => "*"
    | .div => "/"
    | .mod => "%"
    | .eq => "="
    | .notEq => "<>"
    | .lt => "<"
    | .ltEq => "<="
    | .gt => ">"
    | .gtEq => ">="
    | .and => "And"
    | .or => "Or"
  unary
    | .plus => "+"
    | .neg => "-"
    | .not => "Not"
  isTrue text := text == "True"

/-- The token of a literal.  No token is a type name: that is an identifier in a
place of its own. -/
def Wording.literal (w : Wording) (text : String) : LiteralKind → SyntaxKind
  | .string => .string
  | .number => .number
  | .date => .date
  | .boolean => if w.isTrue text then .trueKw else .falseKw
  | .null => .nullKw
  | .undefined => .undefinedKw
  | .typeName => .ident

@[simp] theorem Wording.ofToken?_literal (w : Wording) (text : String) {kind : LiteralKind}
    (h : kind ≠ .typeName) : LiteralKind.ofToken? (w.literal text kind) = some kind := by
  cases kind with
  | boolean => simp only [Wording.literal]; split <;> rfl
  | typeName => contradiction
  | _ => rfl

@[simp] theorem Wording.isTrivia_literal (w : Wording) (text : String) (kind : LiteralKind) :
    (w.literal text kind).isTrivia = false := by
  cases kind with
  | boolean => simp only [Wording.literal]; split <;> rfl
  | _ => rfl

namespace Expr

/-- The name, if the expression is one that stands directly after the word for
`New`. -/
def writtenTypeName? : Expr → Option String
  | .terminal (.literal .typeName name) _ => some name
  | _ => none

/-! ## trees -/

/-- An argument list with the given slots between its parentheses. -/
def inParens (slots : List SyntaxTree) : SyntaxTree :=
  .node .argList (.token .lParen "(" :: (slots ++ [.token .rParen ")"]))

mutual

/-- What an expression is written as: one node, and nothing for a skipped
argument. -/
def render (w : Wording) : Expr → List SyntaxTree
  | .terminal (.literal kind text) _ => [.node .literal [.token (w.literal text kind) text]]
  | .terminal (.identifier name) _ => [.node .nameRef [.token .ident name]]
  | .binary op l r _ => [.node .binExpr (render w l ++ .token op.token (w.binary op) :: render w r)]
  | .unary op e _ => [.node .prefixExpr (.token op.token (w.unary op) :: render w e)]
  | .call name args _ => [.node .callExpr [.token .ident name, inParens (renderArguments w args)]]
  | .construct t args _ =>
      match t.writtenTypeName? with
      | some name =>
          [.node .newExpr [.token .newKw w.new, .token .whitespace " ",
            .node .typeName [.token .ident name], inParens (renderArguments w args)]]
      | none =>
          [.node .newExpr [.token .newKw w.new, inParens (render w t ++ renderRest w args)]]
  | .skipped => []

/-- The arguments of a call, separated by commas. -/
def renderArguments (w : Wording) : List Expr → List SyntaxTree
  | [] => []
  | e :: es => render w e ++ renderRest w es

/-- Further arguments, each after a comma. -/
def renderRest (w : Wording) : List Expr → List SyntaxTree
  | [] => []
  | e :: es => .token .comma "," :: .token .whitespace " " :: (render w e ++ renderRest w es)

end

mutual

/-- The expression can be written where an operand stands.  Arguments may be
skipped, but not the only one of a call, and a type name is written directly
after the word for `New` and nowhere else. -/
def isWritable : Expr → Bool
  | .terminal (.literal kind _) _ => kind ≠ .typeName
  | .terminal (.identifier _) _ => true
  | .binary _ l r _ => l.isWritable && r.isWritable
  | .unary _ e _ => e.isWritable
  | .call _ args _ => args ≠ [.skipped] && areWritable args
  | .construct t args _ =>
      match t.writtenTypeName? with
      | some _ => args ≠ [.skipped] && areWritable args
      | none => t.isWritable && areWritable args
  | .skipped => false

/-- Every one of the arguments is skipped or can be written. -/
def areWritable : List Expr → Bool
  | [] => true
  | e :: es => (e = .skipped || e.isWritable) && areWritable es

end

theorem writtenTypeName?_eq_some_iff {t : Expr} {name : String} :
    t.writtenTypeName? = some name ↔ ∃ link, t = .terminal (.literal .typeName name) link := by
  constructor
  · intro h
    unfold writtenTypeName? at h
    split at h
    · obtain rfl := Option.some.inj h
      exact ⟨_, rfl⟩
    · contradiction
  · rintro ⟨link, rfl⟩
    rfl

/-! ## one node at a time -/

/-- The elements are a single node, and wherever that stands it reads as the
expression, links apart. -/
def ReadsBack (elements : List SyntaxTree) (e : Expr) : Prop :=
  ∃ kind inner, elements = [.node kind inner] ∧
    ∀ start, ∃ e', Reads ⟨start, .node kind inner⟩ e' ∧ e'.unlinked = e.unlinked

theorem readsBack_terminal (w : Wording) {t : Terminal} {link : Option NodeLink}
    (h : (terminal t link).isWritable = true) :
    ReadsBack ((terminal t link).render w) (.terminal t link) := by
  cases t with
  | literal kind text =>
      have hkind : kind ≠ .typeName := by simpa [isWritable] using h
      have htoken : literalIn? [.token (w.literal text kind) text] = some (.literal kind text) := by
        simp [literalIn?, significantTokens, hkind]
      exact ⟨.literal, _, by rw [render], fun start => ⟨_, .literal rfl htoken, rfl⟩⟩
  | identifier name =>
      exact ⟨.nameRef, _, by rw [render], fun start => ⟨_, .name rfl rfl, rfl⟩⟩

theorem readsBack_binary (op : BinaryOp) (text : String) (link : Option NodeLink)
    {before after : List SyntaxTree} {l r : Expr} (hl : ReadsBack before l)
    (hr : ReadsBack after r) :
    ReadsBack [.node .binExpr (before ++ .token op.token text :: after)] (.binary op l r link) := by
  obtain ⟨kindL, innerL, rfl, hl⟩ := hl
  obtain ⟨kindR, innerR, rfl, hr⟩ := hr
  have htoken : binaryOpIn? [.node kindL innerL, .token op.token text, .node kindR innerR] =
      some op := by
    simp [binaryOpIn?, significantTokens]
  refine ⟨.binExpr, _, rfl, fun start => ?_⟩
  obtain ⟨l', readL, hl'⟩ := hl start
  obtain ⟨r', readR, hr'⟩ := hr (start + widthOfList innerL + text.utf8ByteSize)
  exact ⟨_, .binary rfl rfl rfl htoken readL readR, by simp only [unlinked, hl', hr']⟩

theorem readsBack_unary (op : UnaryOp) (text : String) (link : Option NodeLink)
    {after : List SyntaxTree} {e : Expr} (he : ReadsBack after e) :
    ReadsBack [.node .prefixExpr (.token op.token text :: after)] (.unary op e link) := by
  obtain ⟨kind, inner, rfl, he⟩ := he
  have htoken : unaryOpIn? [.token op.token text, .node kind inner] = some op := by
    simp [unaryOpIn?, significantTokens]
  refine ⟨.prefixExpr, _, rfl, fun start => ?_⟩
  obtain ⟨e', read, he'⟩ := he (start + text.utf8ByteSize)
  exact ⟨_, .unary rfl rfl htoken read, by simp only [unlinked, he']⟩

/-! ## argument lists -/

section ArgumentLists

/-- From here to the closing parenthesis the slots read as the arguments, links
apart. -/
def SlotsReadBack (filled delimited : Bool) (elements : List SyntaxTree) (args : List Expr) :
    Prop :=
  ∀ start, ∃ args', ReadsSlots (Placed.slotsFrom filled delimited
      (Placed.sideBySide start (elements ++ [.token .rParen ")"]))) args' ∧
    unlinkedList args' = unlinkedList args

theorem slotsReadBack_nil : SlotsReadBack false false [] [] :=
  fun _ => ⟨[], .nil, rfl⟩

theorem slotsReadBack_nil_of_filled (delimited : Bool) : SlotsReadBack true delimited [] [] := by
  intro start
  cases delimited <;> exact ⟨[], .nil, rfl⟩

/-- Nothing between the last comma and the parenthesis is a skipped argument. -/
theorem slotsReadBack_nil_of_delimited : SlotsReadBack false true [] [.skipped] :=
  fun _ => ⟨[.skipped], .skipped .nil, rfl⟩

variable {filled delimited : Bool} {elements rest : List SyntaxTree} {e : Expr} {es : List Expr}

theorem SlotsReadBack.given (he : ReadsBack elements e)
    (hrest : SlotsReadBack true delimited rest es) :
    SlotsReadBack filled delimited (elements ++ rest) (e :: es) := by
  obtain ⟨kind, inner, rfl, he⟩ := he
  intro start
  obtain ⟨e', read, he'⟩ := he start
  obtain ⟨args, readRest, hargs⟩ := hrest (start + widthOfList inner)
  have hcomma : kind ≠ .comma := read.kind_ne_comma
  have hslots : Placed.slotsFrom filled delimited (Placed.sideBySide start
      (.node kind inner :: (rest ++ [.token .rParen ")"]))) =
      some ⟨start, .node kind inner⟩ :: Placed.slotsFrom true delimited
        (Placed.sideBySide (start + widthOfList inner) (rest ++ [.token .rParen ")"])) := by
    simp [Placed.sideBySide, Placed.slotsFrom, Placed.kind, SyntaxTree.kind, hcomma,
      SyntaxTree.isNode, width]
  refine ⟨e' :: args, ?_, by simp only [unlinkedList, he', hargs]⟩
  rw [List.append_assoc, List.singleton_append, hslots]
  exact .given read readRest

/-- A comma ends the slot before it, which is skipped if nothing was there. -/
theorem SlotsReadBack.comma (hrest : SlotsReadBack false true rest es) :
    SlotsReadBack filled delimited (.token .comma "," :: .token .whitespace " " :: rest)
      (if filled then es else .skipped :: es) := by
  intro start
  obtain ⟨args, readRest, hargs⟩ := hrest (start + ",".utf8ByteSize + " ".utf8ByteSize)
  cases filled with
  | true => exact ⟨args, readRest, hargs⟩
  | false => exact ⟨.skipped :: args, .skipped readRest, by simp [unlinkedList, hargs]⟩

/-- If each argument reads back, so do the slots from a comma on, and the one
before the comma if it was still empty. -/
theorem slotsReadBack_renderRest (w : Wording)
    (h : ∀ e ∈ es, e = .skipped ∨ ReadsBack (e.render w) e)
    (hslot : filled = true ∨ delimited = true ∨ es ≠ []) :
    SlotsReadBack filled delimited (renderRest w es) (if filled then es else .skipped :: es) := by
  induction es generalizing filled delimited with
  | nil =>
      cases filled with
      | true => exact slotsReadBack_nil_of_filled delimited
      | false =>
          obtain rfl : delimited = true := by simpa using hslot
          exact slotsReadBack_nil_of_delimited
  | cons e es ih =>
      have hes : ∀ a ∈ es, a = .skipped ∨ ReadsBack (a.render w) a :=
        fun a ha => h a (List.mem_cons_of_mem e ha)
      rw [renderRest]
      apply SlotsReadBack.comma
      -- the new slot is that of `e`; skipped, it is left to the next comma to end
      obtain rfl | he := h e List.mem_cons_self
      · exact ih hes (.inr (.inl rfl))
      · exact .given he (ih hes (.inl rfl))

theorem slotsReadBack_renderArguments (w : Wording)
    (h : ∀ e ∈ es, e = .skipped ∨ ReadsBack (e.render w) e) (hone : es ≠ [.skipped]) :
    SlotsReadBack false false (renderArguments w es) es := by
  cases es with
  | nil => exact slotsReadBack_nil
  | cons e es =>
      have hes : ∀ a ∈ es, a = .skipped ∨ ReadsBack (a.render w) a :=
        fun a ha => h a (List.mem_cons_of_mem e ha)
      obtain rfl | he := h e List.mem_cons_self
      · exact slotsReadBack_renderRest w hes (.inr (.inr (by simpa using hone)))
      · exact .given he (slotsReadBack_renderRest w hes (.inl rfl))

theorem readsBack_call (name : String) (link : Option NodeLink)
    (h : SlotsReadBack false false elements es) :
    ReadsBack [.node .callExpr [.token .ident name, inParens elements]] (.call name es link) := by
  refine ⟨.callExpr, _, rfl, fun start => ?_⟩
  obtain ⟨args, read, hargs⟩ := h (start + name.utf8ByteSize + "(".utf8ByteSize)
  exact ⟨_, .call rfl rfl read, by simp only [unlinked, hargs]⟩

theorem readsBack_static (w : Wording) (name : String) (nameLink link : Option NodeLink)
    (h : SlotsReadBack false false elements es) :
    ReadsBack [.node .newExpr [.token .newKw w.new, .token .whitespace " ",
        .node .typeName [.token .ident name], inParens elements]]
      (.construct (.terminal (.literal .typeName name) nameLink) es link) := by
  refine ⟨.newExpr, _, rfl, fun start => ?_⟩
  obtain ⟨args, read, hargs⟩ := h (start + w.new.utf8ByteSize + " ".utf8ByteSize +
    widthOfList [.token .ident name] + "(".utf8ByteSize)
  exact ⟨_, .static rfl rfl rfl read, by simp only [unlinked, hargs]⟩

/-- The type is the first argument, and what is left are the arguments. -/
theorem readsBack_dynamic (w : Wording) (link : Option NodeLink) {t : Expr}
    (h : SlotsReadBack false false elements (t :: es)) (ht : t ≠ .skipped) :
    ReadsBack [.node .newExpr [.token .newKw w.new, inParens elements]]
      (.construct t es link) := by
  refine ⟨.newExpr, _, rfl, fun start => ?_⟩
  obtain ⟨args, read, hargs⟩ := h (start + w.new.utf8ByteSize + "(".utf8ByteSize)
  cases args with
  | nil => simp [unlinkedList] at hargs
  | cons t' args =>
      obtain ⟨ht', hargs⟩ : t'.unlinked = t.unlinked ∧ unlinkedList args = unlinkedList es := by
        simpa [unlinkedList] using hargs
      have hgiven : t' ≠ .skipped := by
        rintro rfl
        exact ht (unlinked_eq_skipped_iff.mp ht'.symm)
      exact ⟨_, (reads_newExpr_iff rfl).mpr (.inr ⟨rfl, t', args, hgiven, read, rfl⟩),
        by simp only [unlinked, ht', hargs]⟩

end ArgumentLists

/-! ## the whole language -/

mutual

theorem readsBack_render (w : Wording) (e : Expr) (h : e.isWritable = true) :
    ReadsBack (e.render w) e := by
  cases e with
  | terminal t link => exact readsBack_terminal w h
  | binary op l r link =>
      obtain ⟨hl, hr⟩ : l.isWritable = true ∧ r.isWritable = true := by simpa [isWritable] using h
      rw [render]
      exact readsBack_binary op _ link (readsBack_render w l hl) (readsBack_render w r hr)
  | unary op e link =>
      have he : e.isWritable = true := by simpa [isWritable] using h
      rw [render]
      exact readsBack_unary op _ link (readsBack_render w e he)
  | call name args link =>
      obtain ⟨hone, hargs⟩ : args ≠ [.skipped] ∧ areWritable args = true := by
        simpa [isWritable] using h
      rw [render]
      exact readsBack_call name link
        (slotsReadBack_renderArguments w (readsBack_of_areWritable w args hargs) hone)
  | construct t args link =>
      cases ht : t.writtenTypeName? with
      | some name =>
          obtain ⟨hone, hargs⟩ : args ≠ [.skipped] ∧ areWritable args = true := by
            simpa [isWritable, ht] using h
          have hread := slotsReadBack_renderArguments w (readsBack_of_areWritable w args hargs) hone
          obtain ⟨nameLink, rfl⟩ := writtenTypeName?_eq_some_iff.mp ht
          rw [render, ht]
          exact readsBack_static w name nameLink link hread
      | none =>
          obtain ⟨hname, hargs⟩ : t.isWritable = true ∧ areWritable args = true := by
            simpa [isWritable, ht] using h
          have hgiven : t ≠ .skipped := by
            rintro rfl
            simp [isWritable] at hname
          have hrest := slotsReadBack_renderRest w (readsBack_of_areWritable w args hargs)
            (.inl rfl : true = true ∨ false = true ∨ args ≠ [])
          simp only [render, ht]
          exact readsBack_dynamic w link (.given (readsBack_render w t hname) hrest) hgiven
  | skipped => simp [isWritable] at h

theorem readsBack_of_areWritable (w : Wording) (es : List Expr) (h : areWritable es = true) :
    ∀ e ∈ es, e = .skipped ∨ ReadsBack (e.render w) e := by
  cases es with
  | nil => simp
  | cons e es =>
      obtain ⟨hfirst, hes⟩ : (e = .skipped ∨ e.isWritable = true) ∧ areWritable es = true := by
        simpa [areWritable] using h
      rintro a (_ | ⟨_, ha⟩)
      · exact hfirst.imp_right (readsBack_render w e)
      · exact readsBack_of_areWritable w es hes a ha

end

/-- **Lowering undoes writing**: an expression that can be written is written as
one node, and wherever that stands, it is lowered to the expression, links
apart. -/
theorem expression_render (w : Wording) {e : Expr} (h : e.isWritable = true) :
    ∃ tree, e.render w = [tree] ∧
      ∀ start, ∃ e', (Placed.mk start tree).expression = .ok e' ∧ e'.unlinked = e.unlinked := by
  obtain ⟨kind, inner, hrender, hread⟩ := readsBack_render w e h
  refine ⟨_, hrender, fun start => ?_⟩
  obtain ⟨e', read, he'⟩ := hread start
  exact ⟨e', reads_iff.mp read, he'⟩

/-- `f(, -a, , New Array(1, ), New("Map" + kind, ) And True, )`, with nothing in
the first, third and last place. -/
def sampleCall : Expr :=
  .call "f" [.skipped, .unary .neg (.terminal (.identifier "a") none) none, .skipped,
    .construct (.terminal (.literal .typeName "Array") none)
      [.terminal (.literal .number "1") none, .skipped] none,
    .binary .and
      (.construct (.binary .add (.terminal (.literal .string "\"Map\"") none)
        (.terminal (.identifier "kind") none) none) [.skipped] none)
      (.terminal (.literal .boolean "True") none) none,
    .skipped] none

theorem expression_render_sampleCall :
    sampleCall.isWritable = true ∧ ∃ tree, sampleCall.render .english = [tree] ∧
      ∀ start, ∃ e', (Placed.mk start tree).expression = .ok e' ∧
        e'.unlinked = sampleCall.unlinked :=
  ⟨by decide, expression_render .english (by decide)⟩

/-- A skipped argument that is the only one leaves no comma: the call is written
like the call without arguments. -/
theorem render_call_skipped (w : Wording) (name : String) (link : Option NodeLink) :
    (call name [.skipped] link).render w = (call name [] link).render w := rfl

end Expr

end BslNav
