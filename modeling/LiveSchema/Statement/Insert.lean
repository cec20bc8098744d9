import LiveSchema.Expr.Render
/-! Assembly of INSERT, from a list of values or from the rows of a query. -/
namespace LiveSchema

inductive InsertSource where
  | values (values : List Expr)
  | query (command : String)
  deriving Repr

structure Insert where
  table : String
  columns : List String := []
  source : InsertSource := .values []
  returnIdentity : Bool := false
  deriving Repr

namespace Insert
open Rendering

def value (s : Insert) (column : String) (e : Expr) : Insert :=
  let taken :=
    match s.source with
    | .values values => { s with source := .values (values ++ [e]) }
    | .query _ => { s with columns := [], source := .values [e] }
  { taken with columns := taken.columns ++ [column] }

def field (s : Insert) (m : Model) (field : String) (e : Expr) : Except ModelError Insert := do
  return s.value (← m.field field).name e

def fromQuery (s : Insert) (columns : List String) (command : String) : Insert :=
  { s with columns, source := .query command }

def returningIdentity (s : Insert) : Insert := { s with returnIdentity := true }

end Insert

def Dialect.returnIdentity (d : Dialect) : Except RenderError String := do
  d.implemented "write_return_identity"
  return " RETURNING rowid"

namespace Insert
open Rendering

def nameList (columns : List String) : Rendering :=
  joinWith .comma (columns.map fun c => of [.name c])

def render (d : Dialect) (s : Insert) : Rendering :=
  of [.word "INSERT INTO ", .verbatim s.table, .word " ("] ++ nameList s.columns ++ of [.closeParen] ++
  (match s.source with
    | .values values => of [.word " VALUES ("] ++ joinWith .comma (values.map (·.render d)) ++ of [.closeParen]
    | .query command => of [.word " ", .verbatim command]) ++
  (if s.returnIdentity then Rendering.ofExcept (d.returnIdentity.map fun t => [Lexeme.word t])
    else of [])

def prepare (d : Dialect) (s : Insert) : Except RenderError String := (s.render d).result d

end Insert

end LiveSchema
