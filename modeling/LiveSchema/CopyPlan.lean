import LiveSchema.Live
import LiveSchema.Statement.Insert
import LiveSchema.Statement.Select
import LiveSchema.Text.Letters
/-! Copying the rows of a table that was set aside into its successor. The plan says where each column
of the new table takes its values from; columns that may be left empty and have no counterpart are not
in it. -/
namespace LiveSchema

def backupName (table : String) : String := table ++ "_original"

theorem backupKey (table : String) :
    nameKey (backupName table) = nameKey table ++ nameKey "_original" := by
  simp [nameKey, backupName]

theorem backupKeySame {a b : String} (same : nameKey a = nameKey b) :
    nameKey (backupName a) = nameKey (backupName b) := by
  rw [backupKey, backupKey, same]

theorem backupKeyDiffers (table : String) : nameKey (backupName table) ≠ nameKey table := by
  intro same
  have lengths := congrArg List.length same
  rw [backupKey, List.length_append] at lengths
  have positive : (nameKey "_original").length = 9 := by decide
  omega

/-- Where a copied row takes the value of a column from: the column of that name in the old table, the
same with a value in place of NULL, or a fixed value. -/
inductive CopySource where
  | column
  | columnOr (fill : Value)
  | fixed (fill : Value)
  deriving DecidableEq, Repr

structure CopyPlan where
  source : String
  target : String
  columns : List (String × CopySource)
  deriving DecidableEq, Repr

namespace CopyPlan

/-- How a column of the new table is filled, if it is. A column that refuses NULL takes its fill value
where the old table has no such column or lets it be NULL. -/
def sourceOf? (d : Dialect) (live : Table) (c : Column) : Option CopySource :=
  let fill := d.fillValue c.valueType
  match live.column? c.name with
  | some previous => some (if c.requiresFill && !previous.notNull then .columnOr fill else .column)
  | none => if c.requiresFill then some (.fixed fill) else none

def ofModel (d : Dialect) (m : Model) (live : Table) : CopyPlan :=
  { source := backupName m.table
    target := m.table
    columns := m.columns.filterMap fun c => (sourceOf? d live c).map (c.name, ·) }

def expression (column : String) : CopySource → Expr
  | .column => .column column
  | .columnOr fill => .call .coalesce [.column column, .value fill]
  | .fixed fill => .value fill

def select (p : CopyPlan) : Select :=
  (({} : Select).addColumns (p.columns.map fun c => expression c.1 c.2)).fromTable p.source

def sql (d : Dialect) (p : CopyPlan) : Except RenderError String := do
  let query ← p.select.prepare d
  ({ table := p.target : Insert }.fromQuery (p.columns.map (·.1)) query).prepare d

def isFixed : CopySource → Bool
  | .fixed _ => true
  | _ => false

def copiedColumns (p : CopyPlan) : List String :=
  (p.columns.filter fun c => !isFixed c.2).map (·.1)

def filledColumns (p : CopyPlan) : List String :=
  (p.columns.filter fun c => isFixed c.2).map (·.1)

end CopyPlan

/-- What a copy is put together from, gathered column by column in lists that grow side by side. -/
structure CopyLists where
  targets : List String := []
  sources : List Expr := []
  copied : List String := []
  filled : List String := []
  deriving Repr

namespace CopyLists

def push (l : CopyLists) (column : String) (e : Expr) : CopyLists :=
  { l with targets := l.targets ++ [column], sources := l.sources ++ [e] }

def enter (d : Dialect) (live : Table) (l : CopyLists) (c : Column) : CopyLists :=
  let fill := d.fillValue c.valueType
  match live.column? c.name with
  | some previous =>
    let l := { l with copied := l.copied ++ [c.name] }
    if c.requiresFill && !previous.notNull then l.push c.name (.call .coalesce [.column c.name, .value fill])
    else l.push c.name (.column c.name)
  | none =>
    if c.requiresFill then { l with filled := l.filled ++ [c.name] }.push c.name (.value fill) else l

def ofModel (d : Dialect) (m : Model) (live : Table) : CopyLists := m.columns.foldl (enter d live) {}

end CopyLists

end LiveSchema
