import LiveSchema.Column
/-! Tables and views as they exist in a database. -/
namespace LiveSchema

structure Table where
  name : String
  columns : List Column
  indices : List ColumnGroup := []
  uniques : List ColumnGroup := []
  deriving DecidableEq, Repr

namespace Table

def column? (t : Table) (name : String) : Option Column := t.columns.find? (·.name = name)

def index? (t : Table) (name : String) : Option ColumnGroup := t.indices.find? (·.name = name)

end Table

structure View where
  name : String
  sql : String
  deriving DecidableEq, Repr

inductive Schema where
  | table (t : Table)
  | view (v : View)
  deriving DecidableEq, Repr

namespace Schema

def name : Schema → String
  | .table t => t.name
  | .view v => v.name

def kind : Schema → String
  | .table _ => "table"
  | .view _ => "view"

end Schema

inductive SchemaError where
  | unreadable (definition : String)
  | unsupportedType (name kind : String)
  | notFound (name : String)
  deriving DecidableEq, Repr

def SchemaError.message : SchemaError → String
  | .unreadable definition => s!"Cannot parse schema definition: {definition}"
  | .unsupportedType name kind => s!"Unsupported schema type '{kind}' for '{name}'"
  | .notFound name => s!"Schema '{name}' not found"

end LiveSchema
