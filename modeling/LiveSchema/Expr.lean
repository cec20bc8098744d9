import LiveSchema.Model
/-! Expression trees of SQL: literals, operators, functions, placeholders and references to columns and
tables. A reference to a model's field holds the column it stands for. -/
namespace LiveSchema

inductive UnaryOp where
  | not
  | complement
  | negate
  deriving DecidableEq, Repr

namespace UnaryOp

def symbol : UnaryOp → String
  | .not => "!"
  | .complement => "~"
  | .negate => "-"

end UnaryOp

inductive BinaryOp where
  | and
  | or
  | equals
  | notEqual
  | greater
  | greaterEqual
  | less
  | lessEqual
  | add
  | sub
  | mul
  | div
  | modulo
  | shiftLeft
  | shiftRight
  | bitAnd
  | bitOr
  | bitXor
  | like
  | assign
  deriving DecidableEq, Repr

namespace BinaryOp

def symbol : BinaryOp → String
  | .and => "AND"
  | .or => "OR"
  | .equals | .assign => "="
  | .notEqual => "<>"
  | .greater => ">"
  | .greaterEqual => ">="
  | .less => "<"
  | .lessEqual => "<="
  | .add => "+"
  | .sub => "-"
  | .mul => "*"
  | .div => "/"
  | .modulo => "%"
  | .shiftLeft => "<<"
  | .shiftRight => ">>"
  | .bitAnd => "&"
  | .bitOr => "|"
  | .bitXor => "^"
  | .like => "LIKE"

def rank : BinaryOp → Nat
  | .assign => 0
  | .or => 1
  | .and => 2
  | .equals | .notEqual | .like => 3
  | .greater | .greaterEqual | .less | .lessEqual => 4
  | .shiftLeft | .shiftRight | .bitAnd | .bitOr | .bitXor => 5
  | .add | .sub => 6
  | .mul | .div | .modulo => 7

/-- Operators for which `a op (b op c)` may be written without parentheses. -/
def isAssociative : BinaryOp → Bool
  | .and | .or | .add | .mul | .bitAnd | .bitOr => true
  | _ => false

end BinaryOp

inductive Function where
  | count
  | random
  | average
  | sum
  | max
  | min
  | coalesce
  deriving DecidableEq, Repr

def Function.title : Function → String
  | .count => "Count"
  | .random => "Random"
  | .average => "Average"
  | .sum => "Sum"
  | .max => "Maximum"
  | .min => "Minimum"
  | .coalesce => "Coalesce"

inductive Parameter where
  | positional
  | named (name : String)
  | indexed (index : UInt64)
  deriving DecidableEq, Repr

inductive Expr where
  | value (v : Value)
  | unary (op : UnaryOp) (operand : Expr)
  | binary (op : BinaryOp) (lhs rhs : Expr)
  | call (function : Function) (arguments : List Expr)
  | parameter (p : Parameter)
  | field (table : String) (column : Column)
  | column (name : String)
  | qualified (qualifier : String) (target : Expr)
  | member (item : Expr) (candidates : List Expr)
  | subquery (command : String)
  | table (name : String)
  deriving Repr

namespace Expr

def null : Expr := .value .null

def isNull : Expr → Bool
  | .value v => v.isNull
  | _ => false

def ofField (m : Model) (field : String) : Except ModelError Expr := do
  return .field m.table (← m.field field)

def ofColumn (m : Model) (name : String) : Except ModelError Expr := do
  return .field m.table (← m.column name)

def ofQualifiedField (qualifier : String) (m : Model) (field : String) : Except ModelError Expr := do
  return .qualified qualifier (← ofField m field)

mutual
/-- Equality of trees, in which floats compare as numbers. -/
def equal : Expr → Expr → Bool
  | .value v, .value w => v.equal w
  | .unary o a, .unary p b => o == p && a.equal b
  | .binary o a b, .binary p c d => o == p && a.equal c && b.equal d
  | .call f as, .call g bs => f == g && equalAll as bs
  | .parameter p, .parameter q => p == q
  | .field t c, .field u d => t == u && c == d
  | .column a, .column b => a == b
  | .qualified a x, .qualified b y => a == b && x.equal y
  | .member x as, .member y bs => x.equal y && equalAll as bs
  | .subquery a, .subquery b => a == b
  | .table a, .table b => a == b
  | _, _ => false

def equalAll : List Expr → List Expr → Bool
  | [], [] => true
  | a :: as, b :: bs => a.equal b && equalAll as bs
  | _, _ => false
end

end Expr

end LiveSchema
