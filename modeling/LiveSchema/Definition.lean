import LiveSchema.Dialect
/-! Changes of definitions: the commands that create, alter and drop tables, indices and views, as data
with their text. -/
namespace LiveSchema
open Text

namespace Column

def resolvedType (c : Column) (d : Dialect) : Except RenderError String :=
  match c.valueType with
  | some type => if c.dbType.isEmpty then d.typeName type else .ok c.dbType
  | none => .ok c.dbType

def resolve (c : Column) (d : Dialect) : Except RenderError Column := do
  return { c with dbType := ← c.resolvedType d }

def constraints (c : Column) : String :=
  (if c.primaryKey then " PRIMARY KEY" else "") ++
  (if c.autoIncrement then " AUTOINCREMENT" else "") ++
  (if c.unique then " UNIQUE" else "") ++
  (if c.notNull then " NOT NULL" else "") ++
  c.default.elim "" (" DEFAULT " ++ ·)

def definition (c : Column) (d : Dialect) : Except RenderError String := do
  d.implemented "write_column"
  return d.mask c.name ++ " " ++ (← c.resolvedType d) ++ c.constraints

end Column

inductive Change where
  | createTable (table : String) (columns : List Column) (uniques : List ColumnGroup)
  | dropTable (table : String)
  | renameTable (source target : String)
  | addColumn (table : String) (column : Column)
  | addUnique (table : String) (group : ColumnGroup)
  | createIndex (table : String) (group : ColumnGroup)
  | dropIndex (table group : String)
  | dropIndexIfExists (table group : String)
  | dropView (view : String)
  deriving DecidableEq, Repr

namespace Change

def operation : Change → String
  | .createTable .. => "create_table_sql"
  | .dropTable _ => "drop_table_sql"
  | .renameTable .. => "rename_table_sql"
  | .addColumn .. => "add_column_sql"
  | .addUnique .. => "add_unique_sql"
  | .createIndex .. | .dropIndexIfExists .. => "create_index_sql"
  | .dropIndex .. => "drop_index_sql"
  | .dropView _ => "drop_view_sql"

def uniqueItem (d : Dialect) (group : ColumnGroup) : String :=
  "UNIQUE(" ++ d.maskAll group.columns ++ ")"

def tableItems (d : Dialect) (columns : List String) (uniques : List ColumnGroup) : String :=
  joinWith "," columns ++ String.join (uniques.map fun g => ", " ++ uniqueItem d g)

def sql (d : Dialect) (c : Change) : Except RenderError String := do
  d.implemented c.operation
  match c with
  | .createTable table columns uniques =>
    let items ← columns.mapM (·.definition d)
    return "CREATE TABLE " ++ table ++ " (" ++ tableItems d items uniques ++ ")"
  | .dropTable table => return "DROP TABLE " ++ table
  | .renameTable source target => return "ALTER TABLE " ++ source ++ " RENAME TO " ++ target
  | .addColumn table column =>
    return "ALTER TABLE " ++ table ++ " ADD COLUMN " ++ (← column.definition d)
  | .addUnique table group => return "ALTER TABLE " ++ table ++ " ADD " ++ uniqueItem d group
  | .createIndex table group =>
    return "CREATE INDEX " ++ d.indexName table group.name ++ " ON " ++ table ++
      " (" ++ d.maskAll group.columns ++ ")"
  | .dropIndex table group => return "DROP INDEX " ++ d.indexName table group
  | .dropIndexIfExists table group => return "DROP INDEX IF EXISTS " ++ d.indexName table group
  | .dropView view => return "DROP VIEW " ++ view

def rebuildIndex (table : String) (group : ColumnGroup) : List Change :=
  [.dropIndexIfExists table group.name, .createIndex table group]

def ofModel (m : Model) : Change := .createTable m.table m.columns m.uniques

end Change

end LiveSchema
