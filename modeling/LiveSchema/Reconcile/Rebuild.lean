import LiveSchema.Catalog.Reading
import LiveSchema.Reconcile.Difference
import LiveSchema.Session.Rows
/-! Building a table anew. The live table is set aside under a backup name while its successor is created
and filled, and dropped in the end. If that fails the backup takes the table's place again; a backup that
is left over even so is restored or discarded by a session of its own. -/
namespace LiveSchema

namespace Session

def create (d : Dialect) (m : Model) : Session Unit :=
  match m.source with
  | .view query => do let _ ← command query []
  | .table => do
    change d (.ofModel m)
    changes d (m.indices.flatMap (Change.rebuildIndex m.table))

def existingBackup (d : Dialect) (table : String) : Session String := do
  let backup := backupName table
  let present ← objectExists d backup
  if present then .done backup else .fail (.noBackup backup)

def restoreBackup (d : Dialect) (table : String) : Session Unit := do
  let backup ← existingBackup d table
  let occupied ← objectExists d table
  changes d (if occupied then [.dropTable table] else [])
  change d (.renameTable backup table)

def discardBackup (d : Dialect) (table : String) : Session Unit := do
  change d (.dropTable (← existingBackup d table))

def copyRows (d : Dialect) (plan : CopyPlan) : Session Nat :=
  if plan.columns.isEmpty then .done 0
  else do
    let sql ← ofExcept .render (plan.sql d)
    let (_, copied) ← inTransaction (send (.copy plan) sql [])
    return copied

def rebuild (d : Dialect) (m : Model) (live : Table) (diff : TableDiff) : Session RecreateReport := do
  create d m
  let plan := CopyPlan.ofModel d m live
  return {
    copiedColumns := plan.copiedColumns
    filledColumns := plan.filledColumns
    droppedColumns := diff.obsolete
    rowsCopied := ← copyRows d plan }

def undoRebuild (d : Dialect) (table : String) (live : Table) : Session Unit := do
  restoreBackup d table
  changes d (live.indices.flatMap (Change.rebuildIndex table))

/-- Sets the table aside and builds it anew. A rebuild that fails is undone as far as possible, and its
failure is reported whatever becomes of the undoing. -/
def recreate (d : Dialect) (m : Model) (live : Table) (diff : TableDiff) : Session RecreateReport := do
  let backup := backupName m.table
  change d (.renameTable m.table backup)
  match ← (rebuild d m live diff).outcome with
  | .ok report =>
    change d (.dropTable backup)
    return report
  | .error e =>
    let _ ← (undoRebuild d m.table live).outcome
    .fail e

end Session

end LiveSchema
