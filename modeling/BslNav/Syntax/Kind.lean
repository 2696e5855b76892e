import BslNav.Violation

/-!
# BslNav.Syntax.Kind

The kinds of syntax that analysis inspects.

The parse tree of a BSL module is made of tokens and of nodes, and both carry
a kind.  Kinds are numbered in the order of
`SyntaxKind.all`: trivia first, then tokens, then nodes, `error` last.  A
parser marks everything it has no kind for as `error`.
-/

namespace BslNav

/-- What a token or node of a parse tree is. -/
inductive SyntaxKind where
  -- trivia
  | whitespace | lineComment
  -- literal tokens and names
  | ident | number | string | date
  -- punctuation and operators
  | lParen | rParen | comma | dot | plus | minus | star | slash | percent | eq | neq | lt
  | ltEq | gt | gtEq
  -- keywords
  | newKw | trueKw | falseKw | nullKw | undefinedKw | andKw | orKw | notKw
  -- nodes
  | module | literal | nameRef | parenExpr | binExpr | prefixExpr | callExpr | newExpr
  | typeName | argList | error
deriving DecidableEq, Repr, Inhabited

namespace SyntaxKind

/-- Every kind, in the order of the numbers that parsers use. -/
def all : List SyntaxKind :=
  [.whitespace, .lineComment, .ident, .number, .string, .date, .lParen, .rParen, .comma, .dot,
   .plus, .minus, .star, .slash, .percent, .eq, .neq, .lt, .ltEq, .gt, .gtEq, .newKw, .trueKw,
   .falseKw, .nullKw, .undefinedKw, .andKw, .orKw, .notKw, .module, .literal, .nameRef,
   .parenExpr, .binExpr, .prefixExpr, .callExpr, .newExpr, .typeName, .argList, .error]

/-- The name of the kind, as trees and log records spell it. -/
def name : SyntaxKind → String
  | .whitespace => "WHITESPACE"
  | .lineComment => "LINE_COMMENT"
  | .ident => "IDENT"
  | .number => "NUMBER"
  | .string => "STRING"
  | .date => "DATE"
  | .lParen => "L_PAREN"
  | .rParen => "R_PAREN"
  | .comma => "COMMA"
  | .dot => "DOT"
  | .plus => "PLUS"
  | .minus => "MINUS"
  | .star => "STAR"
  | .slash => "SLASH"
  | .percent => "PERCENT"
  | .eq => "EQ"
  | .neq => "NEQ"
  | .lt => "LT"
  | .ltEq => "LT_EQ"
  | .gt => "GT"
  | .gtEq => "GT_EQ"
  | .newKw => "NEW_KW"
  | .trueKw => "TRUE_KW"
  | .falseKw => "FALSE_KW"
  | .nullKw => "NULL_KW"
  | .undefinedKw => "UNDEFINED_KW"
  | .andKw => "AND_KW"
  | .orKw => "OR_KW"
  | .notKw => "NOT_KW"
  | .module => "MODULE"
  | .literal => "LITERAL"
  | .nameRef => "NAME_REF"
  | .parenExpr => "PAREN_EXPR"
  | .binExpr => "BIN_EXPR"
  | .prefixExpr => "PREFIX_EXPR"
  | .callExpr => "CALL_EXPR"
  | .newExpr => "NEW_EXPR"
  | .typeName => "TYPE_NAME"
  | .argList => "ARG_LIST"
  | .error => "ERROR"

/-- The number of the kind: its place in `all`. -/
def code (kind : SyntaxKind) : Nat := kind.ctorIdx

/-- The kind with a given number. -/
def ofCode (raw : Nat) : Except Violation SyntaxKind :=
  match all[raw]? with
  | some kind => .ok kind
  | none => .error (.unknownKind raw)

/-- The kind with a given name. -/
def ofName? (text : String) : Option SyntaxKind := all.find? (·.name == text)

theorem getElem?_code (kind : SyntaxKind) : all[kind.code]? = some kind := by
  cases kind <;> rfl

/-- Reading a kind's own number gives the kind back. -/
@[simp] theorem ofCode_code (kind : SyntaxKind) : ofCode kind.code = .ok kind := by
  simp [ofCode, getElem?_code]

theorem mem_all (kind : SyntaxKind) : kind ∈ all := by
  cases kind <;> decide

/-! ## classes of kinds -/

/-- Blanks and comments, which no construct depends on. -/
def isTrivia : SyntaxKind → Bool
  | .whitespace | .lineComment => true
  | _ => false

/-- Tokens that are a value by themselves. -/
def isLiteralToken : SyntaxKind → Bool
  | .number | .string | .date | .trueKw | .falseKw | .nullKw | .undefinedKw => true
  | _ => false

/-- Kinds meant for inner nodes: all from `module` on. -/
def isNode (kind : SyntaxKind) : Bool := module.code ≤ kind.code

end SyntaxKind

end BslNav
