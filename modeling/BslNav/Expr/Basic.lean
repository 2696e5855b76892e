import BslNav.Syntax.Tree
import BslNav.Text.Quoted

/-!
# BslNav.Expr.Basic

Expressions as their meaning is analysed: literals, names, operations and
calls, without blanks, comments and parentheses.

An expression may be linked to the node of the parse tree it was read from.
The link says where the expression is and plays no part in what it means.  A
constructor call is statically typed when its type name is a literal; that is
settled when the call is made, and neither adding arguments nor linking
changes it.
-/

namespace BslNav

/-- What an expression is. -/
inductive NodeType where
  | literal | identifier | binaryOp | unaryOp | call | constructorCall | skippedArgument
deriving DecidableEq, Repr

/-- The name of the type of node. -/
def NodeType.name : NodeType → String
  | .literal => "Literal"
  | .identifier => "Identifier"
  | .binaryOp => "BinaryOp"
  | .unaryOp => "UnaryOp"
  | .call => "Call"
  | .constructorCall => "ConstructorCall"
  | .skippedArgument => "SkippedCallArg"

/-- The sort of value a literal has. -/
inductive LiteralKind where
  | string | number | date | boolean | null | undefined
  /-- A type name written directly after the word for `New`. -/
  | typeName
deriving DecidableEq, Repr

/-- The name of the sort. -/
def LiteralKind.name : LiteralKind → String
  | .string => "String"
  | .number => "Number"
  | .date => "Date"
  | .boolean => "Boolean"
  | .null => "Null"
  | .undefined => "Undefined"
  | .typeName => "TypeName"

def LiteralKind.all : List LiteralKind :=
  [.string, .number, .date, .boolean, .null, .undefined, .typeName]

inductive BinaryOp where
  | add | sub | mul | div | mod | eq | notEq | lt | ltEq | gt | gtEq | and | or
deriving DecidableEq, Repr

/-- The name of the operator. -/
def BinaryOp.name : BinaryOp → String
  | .add => "Add"
  | .sub => "Sub"
  | .mul => "Mul"
  | .div => "Div"
  | .mod => "Mod"
  | .eq => "Eq"
  | .notEq => "NotEq"
  | .lt => "Lt"
  | .ltEq => "LtEq"
  | .gt => "Gt"
  | .gtEq => "GtEq"
  | .and => "And"
  | .or => "Or"

def BinaryOp.all : List BinaryOp :=
  [.add, .sub, .mul, .div, .mod, .eq, .notEq, .lt, .ltEq, .gt, .gtEq, .and, .or]

inductive UnaryOp where
  | plus | neg | not
deriving DecidableEq, Repr

/-- The name of the operator. -/
def UnaryOp.name : UnaryOp → String
  | .plus => "Plus"
  | .neg => "Neg"
  | .not => "Not"

def UnaryOp.all : List UnaryOp := [.plus, .neg, .not]

/-- A leaf: a literal with its text as written, or a name. -/
inductive Terminal where
  | literal (kind : LiteralKind) (text : String)
  | identifier (name : String)
deriving DecidableEq, Repr

namespace Terminal

def text : Terminal → String
  | .literal _ text => text
  | .identifier name => name

/-- The sort of a literal; names have none. -/
def literalKind? : Terminal → Option LiteralKind
  | .literal kind _ => some kind
  | .identifier _ => none

def isLiteral : Terminal → Bool
  | .literal .. => true
  | .identifier _ => false

end Terminal

/-- An expression, with its link to the parse tree if it has one. -/
inductive Expr where
  | terminal (value : Terminal) (link : Option NodeLink)
  | binary (op : BinaryOp) (left right : Expr) (link : Option NodeLink)
  | unary (op : UnaryOp) (operand : Expr) (link : Option NodeLink)
  | call (name : String) (arguments : List Expr) (link : Option NodeLink)
  | construct (typeName : Expr) (arguments : List Expr) (link : Option NodeLink)
  /-- An argument left out, as the second of `f(1, , 3)`. -/
  | skipped
deriving Repr

instance : Inhabited Expr := ⟨.skipped⟩

namespace Expr

def nodeType : Expr → NodeType
  | .terminal (.literal ..) _ => .literal
  | .terminal (.identifier _) _ => .identifier
  | .binary .. => .binaryOp
  | .unary .. => .unaryOp
  | .call .. => .call
  | .construct .. => .constructorCall
  | .skipped => .skippedArgument

/-! ## links -/

/-- The node the expression was read from. -/
def link? : Expr → Option NodeLink
  | .terminal _ link => link
  | .binary _ _ _ link => link
  | .unary _ _ link => link
  | .call _ _ link => link
  | .construct _ _ link => link
  | .skipped => none

/-- Link the expression to a node.  A skipped argument stays without one. -/
def withLink (link : NodeLink) : Expr → Expr
  | .terminal t _ => .terminal t (some link)
  | .binary op l r _ => .binary op l r (some link)
  | .unary op e _ => .unary op e (some link)
  | .call f args _ => .call f args (some link)
  | .construct t args _ => .construct t args (some link)
  | .skipped => .skipped

@[simp] theorem link?_withLink (link : NodeLink) (e : Expr) :
    (e.withLink link).link? = if e.nodeType = .skippedArgument then none else some link := by
  rcases e with ⟨t, _⟩ | _ | _ | _ | _ | _
  · cases t <;> rfl
  all_goals rfl

@[simp] theorem nodeType_withLink (link : NodeLink) (e : Expr) :
    (e.withLink link).nodeType = e.nodeType := by
  rcases e with ⟨t, _⟩ | _ | _ | _ | _ | _
  · cases t <;> rfl
  all_goals rfl

mutual

/-- The expression without its links: what it means, and not where it is. -/
def unlinked : Expr → Expr
  | .terminal t _ => .terminal t none
  | .binary op l r _ => .binary op l.unlinked r.unlinked none
  | .unary op e _ => .unary op e.unlinked none
  | .call f args _ => .call f (unlinkedList args) none
  | .construct t args _ => .construct t.unlinked (unlinkedList args) none
  | .skipped => .skipped

/-- Several expressions without their links. -/
def unlinkedList : List Expr → List Expr
  | [] => []
  | e :: es => e.unlinked :: unlinkedList es

end

@[simp] theorem unlinked_withLink (link : NodeLink) (e : Expr) :
    (e.withLink link).unlinked = e.unlinked := by
  cases e <;> rfl

@[simp] theorem unlinked_eq_skipped_iff {e : Expr} : e.unlinked = .skipped ↔ e = .skipped := by
  cases e <;> simp [unlinked]

/-! ## parts -/

/-- The direct sub-expressions, in source order. -/
def children : Expr → List Expr
  | .terminal .. => []
  | .binary _ l r _ => [l, r]
  | .unary _ e _ => [e]
  | .call _ args _ => args
  | .construct t args _ => t :: args
  | .skipped => []

/-- The arguments of a call of either form. -/
def arguments? : Expr → Option (List Expr)
  | .call _ args _ => some args
  | .construct _ args _ => some args
  | _ => none

/-- Give a call one more argument, after the others. -/
def addArgument : (e argument : Expr) → Expr
  | .call f args link, argument => .call f (args ++ [argument]) link
  | .construct t args link, argument => .construct t (args ++ [argument]) link
  | e, _ => e

mutual

/-- The expression and everything in it, outermost first, each with its depth
below `depth`. -/
def outline (depth : Nat) : Expr → List (Nat × Expr)
  | .terminal t link => [(depth, .terminal t link)]
  | .binary op l r link =>
      (depth, .binary op l r link) :: (outline (depth + 1) l ++ outline (depth + 1) r)
  | .unary op e link => (depth, .unary op e link) :: outline (depth + 1) e
  | .call f args link => (depth, .call f args link) :: outlineOfList (depth + 1) args
  | .construct t args link =>
      (depth, .construct t args link) :: (outline (depth + 1) t ++ outlineOfList (depth + 1) args)
  | .skipped => [(depth, .skipped)]

/-- The outlines of several expressions, one after the other. -/
def outlineOfList (depth : Nat) : List Expr → List (Nat × Expr)
  | [] => []
  | e :: es => outline depth e ++ outlineOfList depth es

end

/-! ## constructor calls -/

/-- A constructor call with the type name written out, which must be a
literal. -/
def constructStatic (typeName : Terminal) (typeLink : Option NodeLink) (arguments : List Expr) :
    Except Violation Expr :=
  if typeName.isLiteral then .ok (.construct (.terminal typeName typeLink) arguments none)
  else .error (.computedTypeName typeName.text)

/-- A constructor call whose type is named by the value of an expression. -/
def constructDynamic (typeName : Expr) (arguments : List Expr) : Expr :=
  .construct typeName arguments none

/-- The literal that the expression is, with its text as written. -/
def literal? : Expr → Option (LiteralKind × String)
  | .terminal (.literal kind text) _ => some (kind, text)
  | _ => none

/-- A constructor call whose type name is a literal, so that the type is known
before the program runs. -/
def isStaticallyTyped : Expr → Bool
  | .construct typeName _ _ => typeName.literal?.isSome
  | _ => false

/-- The name of the constructed type when it is known: the value of a string
literal, and any other literal as it is written. -/
def staticTypeName? : Expr → Option String
  | .construct typeName _ _ =>
      typeName.literal?.map fun (kind, text) => if kind = .string then unquote text else text
  | _ => none

@[simp] theorem isStaticallyTyped_withLink (link : NodeLink) (e : Expr) :
    (e.withLink link).isStaticallyTyped = e.isStaticallyTyped := by
  cases e <;> rfl

@[simp] theorem isStaticallyTyped_addArgument (e argument : Expr) :
    (e.addArgument argument).isStaticallyTyped = e.isStaticallyTyped := by
  cases e <;> rfl

@[simp] theorem staticTypeName?_withLink (link : NodeLink) (e : Expr) :
    (e.withLink link).staticTypeName? = e.staticTypeName? := by
  cases e <;> rfl

@[simp] theorem staticTypeName?_addArgument (e argument : Expr) :
    (e.addArgument argument).staticTypeName? = e.staticTypeName? := by
  cases e <;> rfl

/-! ## equality -/

mutual

/-- The two expressions agree, links included. -/
def same : Expr → Expr → Bool
  | .terminal t k, .terminal t' k' => t == t' && k == k'
  | .binary op l r k, .binary op' l' r' k' => op == op' && same l l' && same r r' && k == k'
  | .unary op e k, .unary op' e' k' => op == op' && same e e' && k == k'
  | .call f as k, .call f' as' k' => f == f' && sameList as as' && k == k'
  | .construct t as k, .construct t' as' k' => same t t' && sameList as as' && k == k'
  | .skipped, .skipped => true
  | _, _ => false

/-- The two lists agree expression by expression. -/
def sameList : List Expr → List Expr → Bool
  | [], [] => true
  | e :: es, e' :: es' => same e e' && sameList es es'
  | _, _ => false

end

mutual

theorem same_iff (a b : Expr) : same a b = true ↔ a = b := by
  cases a <;> cases b <;>
    simp [same, same_iff _ _, sameList_iff _ _, and_assoc]

theorem sameList_iff (as bs : List Expr) : sameList as bs = true ↔ as = bs := by
  cases as <;> cases bs <;> simp [sameList, same_iff _ _, sameList_iff _ _]

end

instance : DecidableEq Expr := fun a b => decidable_of_iff _ (same_iff a b)

end Expr

end BslNav
