import LiveSchema.Json.Buffered
import LiveSchema.Json.Record
import LiveSchema.Json.Writer
import LiveSchema.Live
import LiveSchema.Model
/-! Columns, groups, schemas and field declarations in JSON. -/
namespace LiveSchema
open Json

def ValueType.json (t : ValueType) : Json := .string t.tag

def ValueType.ofJsonWith? (isNothing : Json → Bool) : Json → Option ValueType
  | .string s => ofTag? s
  | .object [(k, v)] => if isNothing v then ofTag? k else none
  | _ => none

def ValueType.ofJson? : Json → Option ValueType :=
  ofJsonWith? fun
    | .null => true
    | _ => false

/-- In a value held before it is read, an empty object is nothing too. -/
def ValueType.ofHeld? : Json → Option ValueType :=
  ofJsonWith? fun
    | .null | .object [] => true
    | _ => false

namespace Column

def keys : List String :=
  ["name", "field", "value_type", "primary_key", "unique", "auto_increment", "not_null", "default",
    "db_type"]

def members (c : Column) : List (String × Json) :=
  [("name", .string c.name)] ++
  c.field.elim [] (fun s => [("field", .string s)]) ++
  c.valueType.elim [] (fun t => [("value_type", t.json)]) ++
  [("primary_key", .bool c.primaryKey), ("unique", .bool c.unique),
    ("auto_increment", .bool c.autoIncrement), ("not_null", .bool c.notNull)] ++
  c.default.elim [] (fun s => [("default", .string s)]) ++
  [("db_type", .string c.dbType)]

def json (c : Column) : Json := .object c.members

def ofJsonWith? (type : Json → Option ValueType) (j : Json) : Option Column :=
  match fields? keys j with
  | some [name, field, valueType, primaryKey, unique, autoIncrement, notNull, default, dbType] => do
    return {
      name := ← required string? name
      field := ← optional string? field
      valueType := ← optional type valueType
      primaryKey := ← withDefault false bool? primaryKey
      unique := ← withDefault false bool? unique
      autoIncrement := ← withDefault false bool? autoIncrement
      notNull := ← withDefault false bool? notNull
      default := ← optional string? default
      dbType := ← withDefault "" string? dbType }
  | _ => none

def ofJson? (j : Json) : Option Column := ofJsonWith? ValueType.ofJson? j

end Column

namespace ColumnGroup

def json (g : ColumnGroup) : Json :=
  .object [("name", .string g.name), ("columns", .strings g.columns)]

def ofJson? (j : Json) : Option ColumnGroup :=
  match fields? ["name", "columns"] j with
  | some [name, columns] => do
    return ⟨← withDefault "" string? name, ← required (list? string?) columns⟩
  | _ => none

end ColumnGroup

namespace Schema

def json : Schema → Json
  | .table t =>
    .object [("type", .string "table"), ("name", .string t.name),
      ("columns", .array (t.columns.map Column.json)),
      ("indices", .array (t.indices.map ColumnGroup.json)),
      ("uniques", .array (t.uniques.map ColumnGroup.json))]
  | .view v =>
    .object [("type", .string "view"), ("name", .string v.name), ("sql", .string v.sql)]

def untag? : Json → Option (String × Json)
  | .object members =>
    match members.partition (·.1 = "type") with
    | ([(_, .string tag)], rest) => some (tag, .object rest)
    | _ => none
  | .array (.string tag :: rest) => some (tag, .array rest)
  | _ => none

end Schema

def Table.ofJsonWith? (type : Json → Option ValueType) (j : Json) : Option Table :=
  match fields? ["name", "columns", "indices", "uniques"] j with
  | some [name, columns, indices, uniques] => do
    return {
      name := ← required string? name
      columns := ← required (list? (Column.ofJsonWith? type)) columns
      indices := ← withDefault [] (list? ColumnGroup.ofJson?) indices
      uniques := ← withDefault [] (list? ColumnGroup.ofJson?) uniques }
  | _ => none

def Table.ofJson? (j : Json) : Option Table := Table.ofJsonWith? ValueType.ofJson? j

def View.ofJson? (j : Json) : Option View :=
  match fields? ["name", "sql"] j with
  | some [name, sql] => do return ⟨← required string? name, ← required string? sql⟩
  | _ => none

def Schema.ofJson? (j : Json) : Option Schema := do
  match ← untag? j with
  | ("table", rest) => return .table (← Table.ofJsonWith? ValueType.ofHeld? rest)
  | ("view", rest) => return .view (← View.ofJson? rest)
  | _ => none

def Schema.ofSymbols? (input : List Symbol) : Option Schema := do
  let j ← Json.ofSymbols? input
  if holdable 127 j then ofJson? j else none

namespace FieldSpec

def json (f : FieldSpec) : Json :=
  .object [("name", .string f.name), ("type", f.type.json), ("options", .string f.options)]

def ofJson? (j : Json) : Option FieldSpec :=
  match fields? ["name", "type", "options"] j with
  | some [name, type, options] => do
    return ⟨← required string? name, ← required ValueType.ofJson? type,
      ← withDefault "" string? options⟩
  | _ => none

end FieldSpec

end LiveSchema
