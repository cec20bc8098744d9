import LiveSchema.Catalog.Definition
import LiveSchema.Session.Basic
/-! Reading tables and views from the catalog of a database. Names are compared there without regard
to case. -/
namespace LiveSchema

namespace CatalogQuery

def operation : CatalogQuery → String
  | .presence _ => "table_or_view_exists"
  | .entry _ | .indices _ => "read_schema"
  | .entries => "read_all_schemas"

def sql (d : Dialect) (q : CatalogQuery) : Except RenderError String := do
  d.implemented q.operation
  return match q with
    | .presence _ => "SELECT name FROM sqlite_master WHERE (type='table' OR type='view') " ++
      "AND name = ? COLLATE NOCASE"
    | .entry _ => "SELECT type, tbl_name, sql FROM sqlite_master WHERE name = ? COLLATE NOCASE"
    | .entries => "SELECT type, tbl_name, sql FROM sqlite_master WHERE type='view' OR type='table'"
    | .indices _ => "SELECT sql FROM sqlite_master WHERE type='index' " ++
      "AND tbl_name = ? COLLATE NOCASE AND sql IS NOT NULL"

def arguments : CatalogQuery → List Value
  | .presence name | .entry name => [.text name]
  | .indices table => [.text table]
  | .entries => []

end CatalogQuery

namespace Row

def text? (row : Row) (index : Nat) : Option String :=
  match row[index]? with
  | some (.text s) => some s
  | _ => none

def nullableText? (row : Row) (index : Nat) : Option (Option String) :=
  match row[index]? with
  | some (.text s) => some (some s)
  | some .null => some none
  | _ => none

end Row

/-- An entry of the catalog; entries that the database made for itself have no stored text. -/
structure CatalogEntry where
  kind : String
  name : String
  sql : Option String
  deriving DecidableEq, Repr

def CatalogEntry.ofRow? (row : Row) : Option CatalogEntry := do
  return ⟨← row.text? 0, ← row.text? 1, ← row.nullableText? 2⟩

namespace Session

variable {α : Type}

def askCatalog (d : Dialect) (q : CatalogQuery) (choose : List Row → List Row)
    (decode : Row → Option α) : Session (List α) := do
  let sql ← ofExcept .render (q.sql d)
  let (rows, _) ← send (.catalog q) sql q.arguments
  match (choose rows).mapM decode with
  | some found => return found
  | none => .fail (.undecodable sql)

def objectExists (d : Dialect) (name : String) : Session Bool := do
  return !(← askCatalog d (.presence name) (·.take 1) (·.text? 0)).isEmpty

def readIndices (d : Dialect) (table : String) : Session (List ColumnGroup) := do
  let definitions ← askCatalog d (.indices table) id (·.text? 0)
  ofExcept .schema (definitions.mapM (Catalog.readIndex table))

def schemaOf (d : Dialect) (kind name sql : String) : Session Schema :=
  if kind = "table" then do
    let t ← ofExcept .schema (Catalog.readTable name sql)
    return .table { t with indices := ← readIndices d name }
  else if kind = "view" then return .view ⟨name, sql⟩
  else .fail (.schema (.unsupportedType name kind))

def readSchema (d : Dialect) (name : String) : Session Schema := do
  match ← askCatalog d (.entry name) (·.take 1) CatalogEntry.ofRow? with
  | [] => .fail (.schema (.notFound name))
  | entry :: _ =>
    match entry.sql with
    | some sql => schemaOf d entry.kind entry.name sql
    | none =>
      .fail (.schema (.unreadable s!"{entry.kind} {entry.name} has no stored definition"))

def schemasOf (d : Dialect) : List CatalogEntry → Session (List Schema)
  | [] => .done []
  | entry :: rest =>
    match entry.sql with
    | none => schemasOf d rest
    | some sql =>
      if "sqlite".toList.isPrefixOf entry.name.toList then schemasOf d rest
      else do
        let s ← schemaOf d entry.kind entry.name sql
        return s :: (← schemasOf d rest)

def readAllSchemas (d : Dialect) : Session (List Schema) := do
  schemasOf d (← askCatalog d .entries id CatalogEntry.ofRow?)

end Session

end LiveSchema
