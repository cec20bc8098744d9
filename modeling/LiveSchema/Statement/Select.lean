import LiveSchema.Expr.Render
/-! Assembly of SELECT. Clauses are written in a fixed order whatever the order of the steps that set
them; ordering and limits come after a union and so apply to the whole of it. -/
namespace LiveSchema

inductive Order where
  | ascending
  | descending
  deriving DecidableEq, Repr

structure Join where
  table : String
  label : Option String := none
  on : Option Expr := none
  deriving Repr

structure UnionClause where
  command : String
  all : Bool
  deriving DecidableEq, Repr

structure Select where
  columns : List Expr := []
  source : Option Expr := none
  label : Option String := none
  joins : List Join := []
  filter : Option Expr := none
  groupBy : List Expr := []
  union : Option UnionClause := none
  orderBy : List (Expr × Order) := []
  limit : Option UInt64 := none
  offset : Option UInt64 := none
  deriving Repr

namespace Select
open Rendering

def ofModel (m : Model) : Select :=
  { columns := m.columns.map (.column ·.name), source := some (.table m.table) }

def addColumns (s : Select) (es : List Expr) : Select := { s with columns := s.columns ++ es }

def fromTable (s : Select) (table : String) : Select := { s with source := some (.table table) }

def fromQuery (s : Select) (command : String) : Select := { s with source := some (.subquery command) }

def labelled (s : Select) (label : String) : Select := { s with label := some label }

def join (s : Select) (j : Join) : Select := { s with joins := s.joins ++ [j] }

def filtered (s : Select) (condition : Expr) : Select := { s with filter := some condition }

def grouping (s : Select) (terms : List Expr) : Select := { s with groupBy := terms }

/-- A later union takes the place of an earlier one. -/
def unionWith (s : Select) (command : String) (all : Bool) : Select :=
  { s with union := some ⟨command, all⟩ }

def ordered (s : Select) (term : Expr) (order : Order) : Select :=
  { s with orderBy := s.orderBy ++ [(term, order)] }

def limited (s : Select) (n : UInt64) : Select := { s with limit := some n }

def skipping (s : Select) (n : UInt64) : Select := { s with offset := some n }

end Select

namespace Join
open Rendering

def render (d : Dialect) (j : Join) : Rendering :=
  of [.word " INNER JOIN ", .verbatim j.table] ++ clause j.label asName ++
    clause j.on fun e => of [.word " ON "] ++ e.render d

end Join

namespace Select
open Rendering

def orderTerm (d : Dialect) (term : Expr × Order) : Rendering :=
  term.1.render d ++ of (if term.2 = .descending then [.word " DESC"] else [])

def render (d : Dialect) (s : Select) : Rendering :=
  of [.word "SELECT "] ++
  (if s.columns.isEmpty then of [.word "*"] else separated d s.columns) ++
  clause s.source (fun e => of [.word " FROM "] ++ e.render d) ++
  clause s.label asName ++
  s.joins.foldr (fun j rest => j.render d ++ rest) (of []) ++
  condition d s.filter ++
  (if s.groupBy.isEmpty then of [] else of [.word " GROUP BY "] ++ separated d s.groupBy) ++
  clause s.union (fun u => of [.word (if u.all then " UNION ALL " else " UNION "), .verbatim u.command]) ++
  (if s.orderBy.isEmpty then of []
    else of [.word " ORDER BY "] ++ joinWith (.word ", ") (s.orderBy.map (orderTerm d))) ++
  clause s.limit (fun n => of [.word " LIMIT ", .word (toString n.toNat)]) ++
  clause s.offset (fun n => of [.word " OFFSET ", .word (toString n.toNat)])

def prepare (d : Dialect) (s : Select) : Except RenderError String := (s.render d).result d

end Select

end LiveSchema
