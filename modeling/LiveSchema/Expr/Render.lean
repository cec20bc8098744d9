import LiveSchema.Expr.Lexeme
/-! Rendering of expression trees. An operand is put in parentheses where its operator binds less
tightly than the one above it, and on the right side also where both bind equally, unless both are the
same associative operator. -/
namespace LiveSchema

namespace Expr

def isBinary : Expr → Bool
  | .binary .. => true
  | _ => false

/-- The operand of a sign needs parentheses if it is an operation, or a number with a sign of its own;
two minus signs in a row would begin a comment. -/
def groupsUnderSign : Expr → Bool
  | .binary .. | .unary .. => true
  | .value (.int n) => decide (n < 0)
  | .value (.float x) => x.isNegative && x.isFinite
  | _ => false

end Expr

namespace BinaryOp

def groupsLeft (parent : BinaryOp) : Expr → Bool
  | .binary child _ _ => child.rank < parent.rank
  | _ => false

def groupsRight (parent : BinaryOp) : Expr → Bool
  | .binary child _ _ =>
    child.rank < parent.rank ||
      (child.rank == parent.rank && !(child == parent && parent.isAssociative))
  | _ => false

def nullTest? (op : BinaryOp) (rhs : Expr) : Option Bool :=
  if rhs.isNull then
    match op with
    | .equals => some false
    | .notEqual => some true
    | _ => none
  else none

end BinaryOp

namespace Expr
open Rendering

mutual
def render (d : Dialect) : Expr → Rendering
  | .value v => of [.literal v]
  | .unary op e => of [.sign op] ++ grouped e.groupsUnderSign (e.render d)
  | .binary op l r =>
    grouped (op.groupsLeft l) (l.render d) ++
      match op.nullTest? r with
      | some negated => of [.nullTest negated]
      | none => of [.operator op] ++ grouped (op.groupsRight r) (r.render d)
  | .call f arguments =>
    match d.callForm f arguments.length with
    | .error e => failed e
    | .ok (.word text) => of [.word text]
    | .ok (.named name) =>
      of [.word name, .openParen] ++ joinWith .comma (renderAll d arguments) ++ of [.closeParen]
  | .parameter p => of [.placeholder p]
  | .field _ c => of [.name c.name]
  | .column name => of [.name name]
  | .qualified qualifier target => of [.verbatim qualifier, .dot] ++ target.render d
  | .member item candidates =>
    grouped item.isBinary (item.render d) ++ of [.isIn, .openParen] ++
      joinWith .comma (renderAll d candidates) ++ of [.closeParen]
  | .subquery command => of [.openParen, .verbatim command, .closeParen]
  | .table name => of [.verbatim name]

def renderAll (d : Dialect) : List Expr → List Rendering
  | [] => []
  | e :: rest => e.render d :: renderAll d rest
end

theorem renderAllMap (d : Dialect) (es : List Expr) : renderAll d es = es.map (render d) := by
  induction es with
  | nil => rfl
  | cons e rest ih => simp [renderAll, ih]

def compile (d : Dialect) (e : Expr) : Except RenderError String := (e.render d).result d

/-- Appends the text of an expression to a buffer. After a failure the buffer ends with what had been
written up to it. -/
def writeTo (d : Dialect) (buffer : String) (e : Expr) : String × Option RenderError :=
  let r := e.render d
  (buffer ++ r.text d, r.failure)

end Expr

namespace Rendering

def clause {α : Type} (content : Option α) (write : α → Rendering) : Rendering :=
  content.elim (of []) write

def separated (d : Dialect) (es : List Expr) : Rendering :=
  joinWith (.word ", ") (es.map (·.render d))

def asName (label : String) : Rendering := of [.word " AS ", .verbatim label]

def condition (d : Dialect) (filter : Option Expr) : Rendering :=
  clause filter fun e => of [.word " WHERE "] ++ e.render d

end Rendering

end LiveSchema
