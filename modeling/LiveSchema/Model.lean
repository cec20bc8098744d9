import LiveSchema.Column
import LiveSchema.Text.Blank
import LiveSchema.Text.Lowercase
/-! Models: tables and views as they are declared. A field has a name, a generic type and a text of
comma separated options; the options name the column, its constraints and the groups it belongs to. -/
namespace LiveSchema
open Text

inductive ModelError where
  | unknownField (table field : String)
  | unknownColumn (table column : String)
  | invalidOption (field option : String)
  | duplicateColumn (table column : String)
  deriving DecidableEq, Repr

def ModelError.message : ModelError → String
  | .unknownField table field => s!"Unknown field '{field}' on model '{table}'"
  | .unknownColumn table column => s!"Unknown column '{column}' on model '{table}'"
  | .invalidOption field option => s!"Invalid option '{option}' on field '{field}'"
  | .duplicateColumn table column => s!"Duplicate column '{column}' on model '{table}'"

structure FieldSpec where
  name : String
  type : ValueType
  options : String := ""
  deriving DecidableEq, Repr

inductive FieldOption where
  | primaryKey
  | autoIncrement
  | unique
  | notNull
  | column (name : String)
  | index (group : String)
  | uniqueGroup (group : String)
  | default (text : String)
  deriving DecidableEq, Repr

namespace FieldOption

/-- Reads one option that is trimmed and not empty. A value is what follows the first equals sign; it
must not be blank, whatever the key is. -/
def ofChars? (option : List Char) : Option FieldOption :=
  match splitOnce? '=' option with
  | none =>
    match String.ofList option with
    | "primarykey" => some .primaryKey
    | "autoincrement" => some .autoIncrement
    | "unique" => some .unique
    | "notnull" => some .notNull
    | _ => none
  | some (key, value) =>
    let value := String.ofList (trim value)
    if value = "" then none else
    match String.ofList (trim key) with
    | "column" => some (.column value)
    | "index" => some (.index value)
    | "unique" => some (.uniqueGroup value)
    | "default" => some (.default value)
    | _ => none

end FieldOption

structure FieldDraft where
  column : Column
  indexGroups : List String := []
  uniqueGroups : List String := []
  deriving DecidableEq, Repr

namespace FieldDraft

def start (spec : FieldSpec) : FieldDraft :=
  { column := { Column.declared (lowercase spec.name) spec.type with field := some spec.name } }

def apply (d : FieldDraft) : FieldOption → FieldDraft
  | .primaryKey => { d with column.primaryKey := true }
  | .autoIncrement => { d with column.autoIncrement := true }
  | .unique => { d with column.unique := true }
  | .notNull => { d with column.notNull := true }
  | .column name => { d with column.name := name }
  | .index group => { d with indexGroups := d.indexGroups ++ [group] }
  | .uniqueGroup group => { d with uniqueGroups := d.uniqueGroups ++ [group] }
  | .default text => { d with column.default := some text }

end FieldDraft

namespace FieldSpec

def optionTexts (spec : FieldSpec) : List (List Char) :=
  ((pieces ',' spec.options.toList).map trim).filter (· ≠ [])

def draftFrom (spec : FieldSpec) : FieldDraft → List (List Char) → Except ModelError FieldDraft
  | draft, [] => .ok draft
  | draft, option :: rest =>
    match FieldOption.ofChars? option with
    | some o => draftFrom spec (draft.apply o) rest
    | none => .error (.invalidOption spec.name (String.ofList option))

def draft (spec : FieldSpec) : Except ModelError FieldDraft :=
  spec.draftFrom (.start spec) spec.optionTexts

end FieldSpec

def addToGroup (column : String) : List ColumnGroup → String → List ColumnGroup
  | [], name => [⟨name, [column]⟩]
  | g :: rest, name =>
    if g.name = name then { g with columns := g.columns ++ [column] } :: rest
    else g :: addToGroup column rest name

inductive ModelSource where
  | table
  | view (query : String)
  deriving DecidableEq, Repr

structure Model where
  table : String
  source : ModelSource
  columns : List Column
  indices : List ColumnGroup
  uniques : List ColumnGroup
  deriving DecidableEq, Repr

namespace Model

def empty (table : String) (source : ModelSource) : Model := ⟨table, source, [], [], []⟩

def view (name query : String) : Model := empty name (.view query)

def view? (m : Model) : Option String :=
  match m.source with
  | .table => none
  | .view query => some query

def isView (m : Model) : Bool := m.view?.isSome

def column? (m : Model) (name : String) : Option Column := m.columns.find? (·.name = name)

def columnOfField? (m : Model) (field : String) : Option Column :=
  m.columns.reverse.find? (·.field = some field)

def enterField (column : Column) : List (String × Column) → String → List (String × Column)
  | [], field => [(field, column)]
  | (known, old) :: rest, field =>
    if known = field then (field, column) :: rest else (known, old) :: enterField column rest field

def enterColumn (entries : List (String × Column)) (column : Column) : List (String × Column) :=
  column.field.elim entries (enterField column entries)

/-- The fields with their columns as they are entered one after another. A field that is there already keeps its
place and has the new column. -/
def fieldEntries (columns : List Column) : List (String × Column) := columns.foldl enterColumn []

def index? (m : Model) (name : String) : Option ColumnGroup := m.indices.find? (·.name = name)

def unique? (m : Model) (name : String) : Option ColumnGroup := m.uniques.find? (·.name = name)

def field (m : Model) (field : String) : Except ModelError Column :=
  match m.columnOfField? field with
  | some c => .ok c
  | none => .error (.unknownField m.table field)

def column (m : Model) (name : String) : Except ModelError Column :=
  match m.column? name with
  | some c => .ok c
  | none => .error (.unknownColumn m.table name)

def add (m : Model) (d : FieldDraft) : Model :=
  { m with
    columns := m.columns ++ [d.column]
    indices := d.indexGroups.foldl (addToGroup d.column.name) m.indices
    uniques := d.uniqueGroups.foldl (addToGroup d.column.name) m.uniques }

def declare (m : Model) (spec : FieldSpec) : Except ModelError Model := do
  let d ← spec.draft
  if (m.column? d.column.name).isSome then .error (.duplicateColumn m.table d.column.name)
  else .ok (m.add d)

def declareAll : Model → List FieldSpec → Except ModelError Model
  | m, [] => .ok m
  | m, spec :: rest => do declareAll (← m.declare spec) rest

def build (table : String) (view : Option String) (fields : List FieldSpec) :
    Except ModelError Model :=
  (empty table (view.elim .table .view)).declareAll fields

end Model

end LiveSchema
