import BslNav.Expr.Basic
import BslNav.Notice

/-!
# BslNav.Expr.Lowering

Reading an expression off a node of the parse tree.

`lower` follows the shape of the tree and links what it reads to the node it
came from; parentheses leave no trace.  Elements are read in a fixed order, and
the first one that cannot be read decides the refusal of the whole:

* a node of a kind that stands for no expression is `unmodelled`;
* a node that lacks a part its kind calls for is `malformed`.

In an argument list, commas delimit slots; a slot without an expression is a
skipped argument, and a list without commas and expressions has no slots.
-/

namespace BslNav

/-- Why a node gives no expression. -/
inductive Refusal where
  /-- No expression has nodes of this kind. -/
  | unmodelled (kind : SyntaxKind)
  /-- A node of this kind lacks a part. -/
  | malformed (kind : SyntaxKind)
  /-- The parts do not fit together. -/
  | violation (v : Violation)
deriving DecidableEq, Repr

/-- What a literal token means. -/
def LiteralKind.ofToken? : SyntaxKind → Option LiteralKind
  | .string => some .string
  | .number => some .number
  | .date => some .date
  | .trueKw | .falseKw => some .boolean
  | .nullKw => some .null
  | .undefinedKw => some .undefined
  | _ => none

/-- The operation a token between two operands stands for. -/
def BinaryOp.ofToken? : SyntaxKind → Option BinaryOp
  | .plus => some .add
  | .minus => some .sub
  | .star => some .mul
  | .slash => some .div
  | .percent => some .mod
  | .eq => some .eq
  | .neq => some .notEq
  | .lt => some .lt
  | .ltEq => some .ltEq
  | .gt => some .gt
  | .gtEq => some .gtEq
  | .andKw => some .and
  | .orKw => some .or
  | _ => none

/-- The operation a token before an operand stands for. -/
def UnaryOp.ofToken? : SyntaxKind → Option UnaryOp
  | .plus => some .plus
  | .minus => some .neg
  | .notKw => some .not
  | _ => none

namespace SyntaxTree

/-- The literal that the first significant token is. -/
def literalIn? (es : List SyntaxTree) : Option Terminal :=
  match significantTokens es with
  | (kind, text) :: _ => (LiteralKind.ofToken? kind).map (Terminal.literal · text)
  | [] => none

/-- The operation of the first token that stands for one. -/
def binaryOpIn? (es : List SyntaxTree) : Option BinaryOp :=
  (significantTokens es).findSome? fun t => BinaryOp.ofToken? t.1

/-- The operation of the first significant token. -/
def unaryOpIn? (es : List SyntaxTree) : Option UnaryOp :=
  (significantTokens es).head?.bind fun t => UnaryOp.ofToken? t.1

/-- The first node of a kind among elements that begin at `start`. -/
def firstNode (kind : SyntaxKind) (start : Nat) : List SyntaxTree → Option Placed
  | [] => none
  | e :: es =>
      if e.isNode && e.kind = kind then some ⟨start, e⟩
      else firstNode kind (start + e.width) es

end SyntaxTree

open SyntaxTree

namespace Expr

/-- The constructor call with the given elements around its arguments.  With a
type name among them the call is static; otherwise the first argument names the
type, and it must not be left out. -/
def ofConstructor (start : Nat) (es : List SyntaxTree) (arguments : List Expr) :
    Except Refusal Expr :=
  match firstNode .typeName start es with
  | some typeNode =>
      match firstToken .ident typeNode.tree.elements with
      | some name =>
          match constructStatic (.literal .typeName name) (some typeNode.link) arguments with
          | .ok e => .ok e
          | .error v => .error (.violation v)
      | none => .error (.malformed .typeName)
  | none =>
      match arguments with
      | [] | .skipped :: _ => .error (.malformed .newExpr)
      | typeName :: rest => .ok (constructDynamic typeName rest)

mutual

/-- The expression that a tree beginning at `start` stands for. -/
def lower (start : Nat) : SyntaxTree → Except Refusal Expr
  | .token kind _ => .error (.unmodelled kind)
  | .node kind es =>
      let link : NodeLink := ⟨kind, start, start + widthOfList es⟩
      match kind with
      | .literal =>
          match literalIn? es with
          | some value => .ok (.terminal value (some link))
          | none => .error (.malformed kind)
      | .nameRef =>
          match firstToken .ident es with
          | some name => .ok (.terminal (.identifier name) (some link))
          | none => .error (.malformed kind)
      | .parenExpr => lowerChild kind 0 start es
      | .binExpr => do
          let left ← lowerChild kind 0 start es
          let right ← lowerChild kind 1 start es
          match binaryOpIn? es with
          | some op => .ok (.binary op left right (some link))
          | none => .error (.malformed kind)
      | .prefixExpr =>
          match unaryOpIn? es with
          | some op => do .ok (.unary op (← lowerChild kind 0 start es) (some link))
          | none => .error (.malformed kind)
      | .callExpr =>
          match firstToken .ident es with
          | some name => do .ok (.call name (← lowerArgList start es) (some link))
          | none => .error (.malformed kind)
      | .newExpr => do
          let arguments ← lowerArgList start es
          let e ← ofConstructor start es arguments
          .ok (e.withLink link)
      | _ => .error (.unmodelled kind)

/-- The expression that child node number `n` stands for, `outer` being the
kind that calls for it. -/
def lowerChild (outer : SyntaxKind) (n start : Nat) : List SyntaxTree → Except Refusal Expr
  | [] => .error (.malformed outer)
  | .token _ text :: es => lowerChild outer n (start + text.utf8ByteSize) es
  | .node kind inner :: es =>
      match n with
      | 0 => lower start (.node kind inner)
      | n + 1 => lowerChild outer n (start + widthOfList inner) es

/-- The arguments in the first argument list, none if there is no list. -/
def lowerArgList (start : Nat) : List SyntaxTree → Except Refusal (List Expr)
  | [] => .ok []
  | .token _ text :: es => lowerArgList (start + text.utf8ByteSize) es
  | .node kind inner :: es =>
      if kind = .argList then lowerArguments start false false inner
      else lowerArgList (start + widthOfList inner) es

/-- The arguments from here to the end of the list.  `filled` says that the
present slot has an expression, `delimited` that a comma came before. -/
def lowerArguments (start : Nat) (filled delimited : Bool) :
    List SyntaxTree → Except Refusal (List Expr)
  | [] => .ok (if delimited && !filled then [.skipped] else [])
  | .token kind text :: es =>
      if kind = .comma then do
        let rest ← lowerArguments (start + text.utf8ByteSize) false true es
        .ok (if filled then rest else .skipped :: rest)
      else lowerArguments (start + text.utf8ByteSize) filled delimited es
  | .node kind inner :: es =>
      if kind = .comma then do
        let rest ← lowerArguments (start + widthOfList inner) false true es
        .ok (if filled then rest else .skipped :: rest)
      else do
        let argument ← lower start (.node kind inner)
        let rest ← lowerArguments (start + widthOfList inner) true delimited es
        .ok (argument :: rest)

end

/-- A token stands for nothing, whatever its kind. -/
theorem lower_token (start : Nat) (kind : SyntaxKind) (text : String) :
    lower start (.token kind text) = .error (.unmodelled kind) := by
  rw [lower]

end Expr

/-- The expression that a placed node stands for. -/
def Placed.expression (p : Placed) : Except Refusal Expr := Expr.lower p.start p.tree

/-- The record of a refusal: only kinds without a model are worth one. -/
def Refusal.notices : Refusal → List Notice
  | .unmodelled kind => [⟨.trace, "no expression model for node", [("kind", kind.name)]⟩]
  | _ => []

end BslNav
