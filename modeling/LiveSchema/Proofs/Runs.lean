import LiveSchema.Proofs.Database
import LiveSchema.Reconcile.Update
/-! Runs of updates and restorations of one table, one after another. Any request may be refused and any
call may be cut off. Discarding a backup is no call here, and commands of a caller are part of none. -/
namespace LiveSchema

namespace Change

@[simp]
def drops (table : String) : Change → Bool
  | .dropTable a => nameKey a = nameKey table
  | _ => false

@[simp]
def renames (source target : String) : Change → Bool
  | .renameTable a b => nameKey a = nameKey source && nameKey b = nameKey target
  | _ => false

end Change

inductive Call where
  | update (m : Model)
  | restore (table : String)

namespace Call

def Concerns (t : String) : Call → Prop
  | .update m => m.source = .table ∧ nameKey m.table = nameKey t
  | .restore table => nameKey table = nameKey t

def session (d : Dialect) : Call → Session Unit
  | .update m => do let _ ← Session.update d m
  | .restore table => Session.restoreBackup d table

end Call

structure Action where
  call : Nat
  exchange : Exchange Database

/-- A call may be cut off after any exchange; a transaction that it leaves open is rolled back before the
next call. -/
inductive Run (d : Dialect) (t : String) (start : Store) : Nat → List Action → Database → Prop where
  | start : Run d t start 0 [] ⟨start, none⟩
  | call {n log s steps q u} {c : Call} (earlier : Run d t start n log s) (concerns : c.Concerns t)
    (trace : Session.Trace (Answers d) (c.session d) s.rolledBack steps q u) :
    Run d t start (n + 1) (log ++ steps.map (Action.mk n)) u

end LiveSchema
