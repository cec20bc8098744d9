import LiveSchema.Reconcile.Difference
import LiveSchema.Session.Basic
/-! Altering a table in place. All changes are made in one transaction; an index is matched by its name
and kept if it covers the same columns. -/
namespace LiveSchema

namespace TableDiff

def lacksUnique (live : Table) (group : ColumnGroup) : Bool := !live.uniques.any (·.covers group)

def hasIndex (live : Table) (group : ColumnGroup) : Bool :=
  match live.index? group.name with
  | some existing => existing.covers group
  | none => false

def additiveReport (diff : TableDiff) (m : Model) (live : Table) : AdditiveReport :=
  { addedColumns := diff.missing.map (·.name)
    addedUniques := (m.uniques.filter (lacksUnique live)).map (·.name)
    droppedIndices := (live.indices.filter fun i => (m.index? i.name).isNone).map (·.name)
    createdIndices := (m.indices.filter (!hasIndex live ·)).map (·.name) }

def additiveChanges (diff : TableDiff) (m : Model) (live : Table) : List Change :=
  diff.missing.map (.addColumn m.table) ++
  (m.uniques.filter (lacksUnique live)).map (.addUnique m.table) ++
  (live.indices.filter fun i => (m.index? i.name).isNone).map (fun i => .dropIndex m.table i.name) ++
  (m.indices.filter (!hasIndex live ·)).flatMap (Change.rebuildIndex m.table)

end TableDiff

namespace Session

def alterInPlace (d : Dialect) (m : Model) (live : Table) (diff : TableDiff) :
    Session AdditiveReport := do
  inTransaction (changes d (diff.additiveChanges m live))
  return diff.additiveReport m live

end Session

end LiveSchema
