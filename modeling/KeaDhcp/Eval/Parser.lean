import KeaDhcp.Eval.Token

/-!
# The grammar of classification expressions

The rules of `src/lib/eval/parser.yy` for `bool_expr` and `string_expr`, as trees, and what their
actions append to `ctx.expression`. The parser works bottom up: the actions of the parts of a rule
run before its own, from left to right.
-/

namespace Eval

/-- The two nonterminals. -/
inductive Kind where
  | bool | string
  deriving DecidableEq

/-- The number of a text that `{int}` matches, if it is an `int64_t`. -/
def lexInteger (text : Value) : Option Int :=
  let number : Option Int :=
    match text with
    | 45 :: digits => (decimalDigits digits).map fun n => -(n : Int)
    | digits => (decimalDigits digits).map Int.ofNat
  number.filter fun n => -9223372036854775808 ≤ n ∧ n ≤ 9223372036854775807

/-- An `INTEGER` of `start_expr` and `length_expr` that is an `int`. -/
structure IntLiteral where
  text : Value
  value : Int
  isInt : lexicalCastInt text = some value

inductive LengthExpr where
  | integer (literal : IntLiteral)
  | all

/-- The trees of the grammar. The rules for literals, options, fields and classes, which append one
token each, are `condition` and `value`. -/
inductive Expr (Pkt : Type) : Kind → Type where
  | paren (e : Expr Pkt .bool) : Expr Pkt .bool
  | not (e : Expr Pkt .bool) : Expr Pkt .bool
  | and (l r : Expr Pkt .bool) : Expr Pkt .bool
  | or (l r : Expr Pkt .bool) : Expr Pkt .bool
  | equal (l r : Expr Pkt .string) : Expr Pkt .bool
  | condition (evaluate : Pkt → Bool) : Expr Pkt .bool
  | value (evaluate : Pkt → Value) : Expr Pkt .string
  | substring (string : Expr Pkt .string) (start : IntLiteral) (length : LengthExpr) :
      Expr Pkt .string
  | concat (l r : Expr Pkt .string) : Expr Pkt .string
  | ifElse (cond : Expr Pkt .bool) (iftrue iffalse : Expr Pkt .string) : Expr Pkt .string

variable {Pkt : Type}

def tokenString (str : Value) : Token Pkt := .value fun _ => str

def IntLiteral.actions (literal : IntLiteral) (expression : Expression Pkt) : Expression Pkt :=
  expression ++ [tokenString literal.text]

def LengthExpr.actions (expression : Expression Pkt) : LengthExpr → Expression Pkt
  | integer literal => literal.actions expression
  | all => expression ++ [tokenString (.ofString "all")]

/-- `ctx.expression` after the actions for a tree. -/
def Expr.actions : {k : Kind} → Expr Pkt k → Expression Pkt → Expression Pkt
  | _, .paren e, expression => e.actions expression
  | _, .not e, expression => e.actions expression ++ [.not]
  | _, .and l r, expression => r.actions (l.actions expression) ++ [.and]
  | _, .or l r, expression => r.actions (l.actions expression) ++ [.or]
  | _, .equal l r, expression => r.actions (l.actions expression) ++ [.equal]
  | _, .condition evaluate, expression => expression ++ [.condition evaluate]
  | _, .value evaluate, expression => expression ++ [.value evaluate]
  | _, .substring string start length, expression =>
    length.actions (start.actions (string.actions expression)) ++ [.substring]
  | _, .concat l r, expression => r.actions (l.actions expression) ++ [.concat]
  | _, .ifElse cond iftrue iffalse, expression =>
    iffalse.actions (iftrue.actions (cond.actions expression)) ++ [.ifElse]

/-- The tokens of an accepted expression. -/
def Expr.tokens {k : Kind} (e : Expr Pkt k) : Expression Pkt := e.actions []

end Eval
