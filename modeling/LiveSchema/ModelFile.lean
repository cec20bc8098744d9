import LiveSchema.Json.Schemas
import LiveSchema.Text.Utf8
/-! Model files: a table or a view with its fields, as JSON. -/
namespace LiveSchema
open Json

structure ModelFile where
  table : String
  view : Option String := none
  fields : List FieldSpec := []
  deriving DecidableEq, Repr

inductive ModelFileError where
  | unreadable
  | malformed
  deriving DecidableEq, Repr

namespace ModelFile

def json (f : ModelFile) : Json :=
  .object ([("table", .string f.table)] ++ f.view.elim [] (fun s => [("view", .string s)]) ++
    [("fields", .array (f.fields.map FieldSpec.json))])

def ofJson? (j : Json) : Option ModelFile :=
  match fields? ["table", "view", "fields"] j with
  | some [table, view, fields] => do
    return ⟨← required string? table, ← optional string? view,
      ← withDefault [] (list? FieldSpec.ofJson?) fields⟩
  | _ => none

def load (bytes : Option (List UInt8)) : Except ModelFileError ModelFile :=
  match bytes.bind Text.utf8? with
  | none => .error .unreadable
  | some text =>
    match (ofText? text).bind ofJson? with
    | some f => .ok f
    | none => .error .malformed

def model (f : ModelFile) : Except ModelError Model := Model.build f.table f.view f.fields

end ModelFile

structure DatabaseConfig where
  url : String
  maxConnections : UInt32 := 5
  deriving DecidableEq, Repr

namespace DatabaseConfig

def json (c : DatabaseConfig) : Json :=
  .object [("url", .string c.url), ("max_connections", .nat c.maxConnections.toNat)]

def ofJson? (j : Json) : Option DatabaseConfig :=
  match fields? ["url", "max_connections"] j with
  | some [url, maxConnections] => do
    return ⟨← required string? url, ← withDefault 5 word32? maxConnections⟩
  | _ => none

end DatabaseConfig

end LiveSchema
