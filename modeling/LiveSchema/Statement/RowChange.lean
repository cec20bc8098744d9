import LiveSchema.Expr.Render
/-! Assembly of UPDATE and DELETE, which change the rows that meet a condition. -/
namespace LiveSchema

structure Update where
  table : String
  assignments : List Expr := []
  filter : Option Expr := none
  deriving Repr

namespace Update
open Rendering

def set (s : Update) (column : String) (e : Expr) : Update :=
  { s with assignments := s.assignments ++ [.binary .assign (.column column) e] }

def setField (s : Update) (m : Model) (field : String) (e : Expr) : Except ModelError Update := do
  return { s with assignments := s.assignments ++ [.binary .assign (← Expr.ofField m field) e] }

def filtered (s : Update) (condition : Expr) : Update := { s with filter := some condition }

def render (d : Dialect) (s : Update) : Rendering :=
  of [.word "UPDATE ", .verbatim s.table, .word " SET "] ++ separated d s.assignments ++
    condition d s.filter

def prepare (d : Dialect) (s : Update) : Except RenderError String := (s.render d).result d

end Update

structure Delete where
  table : String
  filter : Option Expr := none
  deriving Repr

namespace Delete
open Rendering

def filtered (s : Delete) (condition : Expr) : Delete := { s with filter := some condition }

def render (d : Dialect) (s : Delete) : Rendering :=
  of [.word "DELETE FROM ", .verbatim s.table] ++
    condition d s.filter

def prepare (d : Dialect) (s : Delete) : Except RenderError String := (s.render d).result d

end Delete

end LiveSchema
