import LiveSchema.Definition
import LiveSchema.Live
/-! The difference between a model and a live table, and the way it is removed. A column is matched by
its exact name. What ADD COLUMN cannot express calls for building the table anew. -/
namespace LiveSchema

structure TableDiff where
  missing : List Column
  altered : List Column
  obsolete : List String
  indicesEqual : Bool
  uniquesEqual : Bool
  deriving DecidableEq, Repr

inductive Strategy where
  | additive
  | recreate
  deriving DecidableEq, Repr

namespace TableDiff

/-- The live column differs from the declared one in type or in a constraint; defaults are not
compared. -/
def isAltered (d : Dialect) (live target : Column) : Except RenderError Bool := do
  let type ← target.resolvedType d
  return !d.typesEquivalent live.dbType type ||
    live.primaryKey != target.primaryKey || live.autoIncrement != target.autoIncrement ||
    live.unique != target.unique || live.notNull != target.notNull

def missingIn (live : Table) (columns : List Column) : List Column :=
  columns.filter fun c => (live.column? c.name).isNone

def alteredIn (d : Dialect) (live : Table) : List Column → Except RenderError (List Column)
  | [] => .ok []
  | c :: rest => do
    match live.column? c.name with
    | none => alteredIn d live rest
    | some existing =>
      let altered ← isAltered d existing c
      let others ← alteredIn d live rest
      return if altered then c :: others else others

def obsoleteIn (m : Model) (live : Table) : List String :=
  (live.columns.filter fun c => (m.column? c.name).isNone).map (·.name)

def compute (d : Dialect) (m : Model) (live : Table) : Except RenderError TableDiff := do
  return {
    missing := missingIn live m.columns
    altered := ← alteredIn d live m.columns
    obsolete := obsoleteIn m live
    indicesEqual := ColumnGroup.sameGroups live.indices m.indices
    uniquesEqual := ColumnGroup.sameGroups live.uniques m.uniques }

/-- A new column that is a key, unique or required cannot be added in place. -/
def isKeyed (c : Column) : Bool := c.primaryKey || c.unique || c.requiresFill

def strategy (d : TableDiff) : Strategy :=
  if d.obsolete.isEmpty && d.altered.isEmpty && !d.missing.any isKeyed && d.indicesEqual &&
      d.uniquesEqual
  then .additive else .recreate

def isEmpty (d : TableDiff) : Bool :=
  d.missing.isEmpty && d.altered.isEmpty && d.obsolete.isEmpty && d.indicesEqual && d.uniquesEqual

end TableDiff

structure AdditiveReport where
  addedColumns : List String := []
  addedUniques : List String := []
  droppedIndices : List String := []
  createdIndices : List String := []
  deriving DecidableEq, Repr

def AdditiveReport.isEmpty (r : AdditiveReport) : Bool :=
  r.addedColumns.isEmpty && r.addedUniques.isEmpty && r.droppedIndices.isEmpty &&
    r.createdIndices.isEmpty

structure RecreateReport where
  copiedColumns : List String
  filledColumns : List String
  droppedColumns : List String
  rowsCopied : Nat
  deriving DecidableEq, Repr

inductive SchemaUpdate where
  | created
  | viewReplaced
  | additive (report : AdditiveReport)
  | recreated (report : RecreateReport)
  deriving DecidableEq, Repr

def SchemaUpdate.isNoop : SchemaUpdate → Bool
  | .additive report => report.isEmpty
  | _ => false

end LiveSchema
