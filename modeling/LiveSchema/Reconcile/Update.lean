import LiveSchema.Reconcile.InPlace
import LiveSchema.Reconcile.Rebuild
/-! Bringing one live table or view in line with its model. A missing object is created, a view is
replaced, and a table is altered in place or built anew. A backup that is left over refuses every update
of its table. -/
namespace LiveSchema

namespace Session

def updateTable (d : Dialect) (m : Model) (live : Table) : Session SchemaUpdate := do
  let diff ← ofExcept .render (TableDiff.compute d m live)
  match diff.strategy with
  | .additive => return .additive (← alterInPlace d m live diff)
  | .recreate => return .recreated (← recreate d m live diff)

def updateLive (d : Dialect) (m : Model) : Session SchemaUpdate := do
  match ← readSchema d m.table with
  | .view v => do
    change d (.dropView v.name)
    create d m
    return .viewReplaced
  | .table live => if m.isView then .fail (.mismatch m.table) else updateTable d m live

def update (d : Dialect) (m : Model) : Session SchemaUpdate := do
  let backup := backupName m.table
  let pending ← objectExists d backup
  if pending then .fail (.pendingBackup m.table backup)
  else do
    let present ← objectExists d m.table
    if present then updateLive d m else do
      create d m
      return .created

end Session

end LiveSchema
